import AtkOnenet.Json.Item
import Mathlib.Algebra.Ring.Nat
import Mathlib.Data.List.Infix

/-!
# Strings of the JSON package (`packages/cJSON-v1.0.2/cJSON.c`)

`parseString` measures a quoted string, allocates memory for it and then unescapes it. The two passes
over the text do not look at it in the same way, and `\u` skips four characters without a look at
them, so it can leave the text and its memory.

* `parseString_complete`: it does neither where all escapes are complete.
* `parseString_print`: it gives back what `printStringPtr` has printed.
-/

namespace AtkOnenet

open Word

def quote : UInt8 := 0x22
def backslash : UInt8 := 0x5C
def letterU : UInt8 := 0x75

/-! ## Parsing -/

def hexDigit? (c : UInt8) : Option UInt32 :=
  if 0x30 ≤ c ∧ c ≤ 0x39 then some (c - 0x30).toUInt32
  else if 0x41 ≤ c ∧ c ≤ 0x46 then some (10 + (c - 0x41).toUInt32)
  else if 0x61 ≤ c ∧ c ≤ 0x66 then some (10 + (c - 0x61).toUInt32)
  else none

/-- `parse_hex4` with `n` digits to go. -/
def parseHex (h : UInt32) : Nat → List UInt8 → UInt32
  | 0, _ => h
  | _ + 1, [] => 0
  | n + 1, c :: str =>
    match hexDigit? c with
    | some d => parseHex ((h <<< 4) + d) n str
    | none => 0

def parseHex4 (str : List UInt8) : UInt32 := parseHex 0 4 str

/-- The bytes that `uc` is transcoded to. The first one carries `firstByteMark`. -/
def utf8Bytes (uc : UInt32) : List UInt8 :=
  let tail (uc : UInt32) := ((uc ||| 0x80) &&& 0xBF).toUInt8
  if uc < 0x80 then [uc.toUInt8]
  else if uc < 0x800 then [((uc >>> 6) ||| 0xC0).toUInt8, tail uc]
  else if uc < 0x10000 then [((uc >>> 12) ||| 0xE0).toUInt8, tail (uc >>> 6), tail uc]
  else [((uc >>> 18) ||| 0xF0).toUInt8, tail (uc >>> 12), tail (uc >>> 6), tail uc]

/-- The character of a UTF-16 surrogate pair. -/
def surrogatePair (uc uc2 : UInt32) : UInt32 :=
  (0x10000 : UInt32) + (((uc &&& 0x3FF) <<< (10 : UInt32)) ||| (uc2 &&& 0x3FF))

/-- `\u` with the text behind it: what is written, and where the parse goes on. Behind fewer than four
characters that is outside of the text (`none`). -/
def readUnicode (str : List UInt8) : Option (List UInt8 × List UInt8) :=
  if str.length < 4 then none
  else
    let uc := parseHex4 str
    let str := str.drop 4
    if 0xDC00 ≤ uc ∧ uc ≤ 0xDFFF ∨ uc = 0 then some ([], str)
    else if 0xD800 ≤ uc ∧ uc ≤ 0xDBFF then
      match str with
      | a :: b :: pair =>
        if a ≠ backslash ∨ b ≠ letterU then some ([], str)
        else if pair.length < 4 then none
        else
          let uc2 := parseHex4 pair
          let str := pair.drop 4
          if uc2 < 0xDC00 ∨ 0xDFFF < uc2 then some ([], str)
          else some (utf8Bytes (surrogatePair uc uc2), str)
      | _ => some ([], str)
    else some (utf8Bytes uc, str)

/-- The character behind a backslash. -/
def escaped (c : UInt8) : UInt8 :=
  if c = 0x62 then 0x08
  else if c = 0x66 then 0x0C
  else if c = 0x6E then 0x0A
  else if c = 0x72 then 0x0D
  else if c = 0x74 then 0x09
  else c

/-- An escape, from behind its backslash on. -/
def readEscape : List UInt8 → Option (List UInt8 × List UInt8)
  | [] => none
  | c :: str => if c = letterU then readUnicode str else some ([escaped c], str)

/-- A turn of the second pass of `parse_string`, at `c`. -/
def readChar (c : UInt8) (str : List UInt8) : Option (List UInt8 × List UInt8) :=
  if c = backslash then readEscape str else some ([c], str)

/-- The second pass of `parse_string`, for at most `n` characters: what it writes, and where it
ends. -/
def unescapeLoop : Nat → List UInt8 → Option (List UInt8 × List UInt8)
  | _, [] => some ([], [])
  | 0, _ :: _ => none
  | n + 1, c :: str =>
    if c = quote then some ([], str)
    else
      (readChar c str).bind fun (bytes, str) =>
        (unescapeLoop n str).map fun (out, str) => (bytes ++ out, str)

def unescape (str : List UInt8) : Option (List UInt8 × List UInt8) := unescapeLoop str.length str

/-- The first pass of `parse_string`: `len`. A backslash counts together with the next character. -/
def stringLen : List UInt8 → Option Nat
  | [] => some 0
  | c :: str =>
    if c = quote then some 0
    else if c = backslash then
      match str with
      | [] => none
      | _ :: str => (stringLen str).map (· + 1)
    else (stringLen str).map (· + 1)

/-- `parse_string`. The memory has room for `len` characters and the NUL. -/
def parseString {D : Type} (item : CJsonItem D) (str : List UInt8) : Parse (CJsonItem D) :=
  match str with
  | [] => .fail str
  | c :: rest =>
    if c ≠ quote then .fail str
    else
      match stringLen rest, unescape rest with
      | some len, some (out, rest) =>
        if out.length ≤ len then .ok { item with valuestring := some out, type := .string } rest
        else .stray
      | _, _ => .stray

/-! ## Printing -/

/-- The characters that make `print_string_ptr` escape. -/
def NeedsEscape (c : UInt8) : Prop := c < 32 ∨ c = quote ∨ c = backslash

instance (c : UInt8) : Decidable (NeedsEscape c) := inferInstanceAs (Decidable (_ ∨ _))

/-- A digit of `%x`. -/
def hexChar (d : UInt8) : UInt8 := if d < 10 then 0x30 + d else 0x57 + d

/-- A character as `print_string_ptr` writes it. The last case is `sprintf` with `u%04x`. -/
def escapeChar (token : UInt8) : List UInt8 :=
  if NeedsEscape token then
    backslash ::
      if token = backslash then [backslash]
      else if token = quote then [quote]
      else if token = 0x08 then [0x62]
      else if token = 0x0C then [0x66]
      else if token = 0x0A then [0x6E]
      else if token = 0x0D then [0x72]
      else if token = 0x09 then [0x74]
      else [letterU, 0x30, 0x30, hexChar (token >>> 4), hexChar (token &&& 0xF)]
  else [token]

/-- `print_string_ptr`. `none`: it reads through the null pointer. -/
def printStringPtr (str : Option (List UInt8)) : Option (List UInt8) :=
  str.map fun str =>
    if str.any NeedsEscape then quote :: str.flatMap escapeChar ++ [quote]
    else quote :: str ++ [quote]

/-- `len` in `print_string_ptr`, which then has memory for `len + 3` characters. -/
def printLen (str : List UInt8) : Nat :=
  if str.any NeedsEscape then
    (str.map fun token =>
      1 + if token ∈ [quote, backslash, 0x08, 0x0C, 0x0A, 0x0D, 0x09] then 1
        else if token < 32 then 5 else 0).sum
  else str.length

/-! ## The second pass -/

section Unescape

variable {c : UInt8} {str bytes rest : List UInt8}

theorem readUnicode_suffix (h : readUnicode str = some (bytes, rest)) : rest <:+ str := by
  have hdrop := List.drop_suffix 4 str
  simp only [readUnicode] at h
  split at h
  · cases h
  · split at h
    · cases h
      exact hdrop
    · split at h
      · split at h
        next a b pair hcons =>
          rw [hcons] at h hdrop
          have hpair : pair.drop 4 <:+ str :=
            (List.drop_suffix 4 pair).trans
              (((List.suffix_cons b pair).trans (List.suffix_cons a _)).trans hdrop)
          split at h
          · cases h
            exact hdrop
          · split at h
            · cases h
            · split at h <;> (cases h; exact hpair)
        next =>
          cases h
          exact hdrop
      · cases h
        exact hdrop

/-- An escape ends behind its start. -/
theorem readEscape_suffix (h : readEscape str = some (bytes, rest)) :
    ∃ c str', str = c :: str' ∧ rest <:+ str' := by
  cases str with
  | nil => cases h
  | cons c str =>
    refine ⟨c, str, rfl, ?_⟩
    rw [readEscape] at h
    split at h
    · exact readUnicode_suffix h
    · cases h
      exact List.suffix_rfl

theorem readEscape_length (h : readEscape str = some (bytes, rest)) : rest.length < str.length := by
  obtain ⟨c, str', rfl, hrest⟩ := readEscape_suffix h
  exact Nat.lt_succ_of_le hrest.length_le

theorem readChar_length (h : readChar c str = some (bytes, rest)) : rest.length ≤ str.length := by
  unfold readChar at h
  split at h
  · exact Nat.le_of_lt (readEscape_length h)
  · cases h
    exact Nat.le_refl _

/-- More turns than characters change nothing. -/
theorem unescapeLoop_congr {n m : Nat} (hn : str.length ≤ n) (hm : str.length ≤ m) :
    unescapeLoop n str = unescapeLoop m str := by
  induction n generalizing m str with
  | zero =>
    obtain rfl : str = [] := List.length_eq_zero_iff.mp (Nat.le_zero.mp hn)
    cases m <;> rfl
  | succ n ih =>
    cases str with
    | nil => cases m <;> rfl
    | cons c str =>
      cases m with
      | zero => exact absurd hm (Nat.not_succ_le_zero _)
      | succ m =>
        have hn' := Nat.le_of_succ_le_succ hn
        have hm' := Nat.le_of_succ_le_succ hm
        rw [unescapeLoop, unescapeLoop]
        by_cases hq : c = quote
        · rw [if_pos hq, if_pos hq]
        · rw [if_neg hq, if_neg hq]
          cases hr : readChar c str with
          | none => rfl
          | some p =>
            have hlen : p.2.length ≤ str.length := readChar_length hr
            simp only [Option.bind_some]
            rw [ih (hlen.trans hn') (hlen.trans hm')]

@[simp] theorem unescape_nil : unescape [] = some ([], []) := rfl

@[simp] theorem unescape_quote : unescape (quote :: str) = some ([], str) := rfl

theorem unescape_cons (hq : c ≠ quote) (h : readChar c str = some (bytes, rest)) :
    unescape (c :: str) = (unescape rest).map fun p => (bytes ++ p.1, p.2) := by
  rw [unescape, List.length_cons, unescapeLoop, if_neg hq, h, Option.bind_some]
  show (unescapeLoop str.length rest).map _ = _
  rw [unescapeLoop_congr (readChar_length h) (Nat.le_refl _)]
  rfl

end Unescape

/-! ## What has been printed -/

section Print

variable {c : UInt8} {s rest : List UInt8}

/-- The hexadecimal digits of a control character. -/
theorem parseHex4_control (hc : c < 32) :
    parseHex4 (0x30 :: 0x30 :: hexChar (c >>> 4) :: hexChar (c &&& 0xF) :: rest) = c.toUInt32 := by
  have hall : ∀ c : UInt8, c < 32 →
      parseHex4 [0x30, 0x30, hexChar (c >>> 4), hexChar (c &&& 0xF)] = c.toUInt32 :=
    forall_byte (by decide +kernel)
  rw [← hall c hc]
  simp only [parseHex4, parseHex]

theorem readUnicode_control (hc : c < 32) (h0 : c ≠ 0) :
    readUnicode (0x30 :: 0x30 :: hexChar (c >>> 4) :: hexChar (c &&& 0xF) :: rest) =
      some ([c], rest) := by
  have hall : ∀ c : UInt8, c < 32 → c ≠ 0 →
      ¬(0xDC00 ≤ c.toUInt32 ∧ c.toUInt32 ≤ 0xDFFF ∨ c.toUInt32 = 0) ∧
      ¬(0xD800 ≤ c.toUInt32 ∧ c.toUInt32 ≤ 0xDBFF) ∧ utf8Bytes c.toUInt32 = [c] :=
    forall_byte (by decide +kernel)
  obtain ⟨hlow, hhigh, hbytes⟩ := hall c hc h0
  simp only [readUnicode, parseHex4_control hc]
  rw [if_neg (by simp), if_neg hlow, if_neg hhigh, hbytes]
  rfl

/-- A character is read as it has been printed. -/
theorem readChar_escapeChar (h0 : c ≠ 0) (rest : List UInt8) :
    ∃ first more, escapeChar c = first :: more ∧ first ≠ quote ∧
      readChar first (more ++ rest) = some ([c], rest) := by
  unfold escapeChar
  by_cases hn : NeedsEscape c
  · refine ⟨backslash, _, if_pos hn, by decide, ?_⟩
    rw [readChar, if_pos rfl]
    by_cases h1 : c = backslash
    · subst h1; rfl
    by_cases h2 : c = quote
    · subst h2; rfl
    by_cases h3 : c = 0x08
    · subst h3; rfl
    by_cases h4 : c = 0x0C
    · subst h4; rfl
    by_cases h5 : c = 0x0A
    · subst h5; rfl
    by_cases h6 : c = 0x0D
    · subst h6; rfl
    by_cases h7 : c = 0x09
    · subst h7; rfl
    have hc : c < 32 := by
      rcases hn with hn | hn | hn
      · exact hn
      · exact absurd hn h2
      · exact absurd hn h1
    simp only [if_neg h1, if_neg h2, if_neg h3, if_neg h4, if_neg h5, if_neg h6, if_neg h7]
    exact readUnicode_control hc h0
  · refine ⟨c, [], if_neg hn, fun hq => hn (.inr (.inl hq)), ?_⟩
    rw [readChar, if_neg fun hb => hn (.inr (.inr hb))]
    rfl

/-- The second pass gives the characters back. -/
theorem unescape_print (hs : ∀ c ∈ s, c ≠ 0) :
    unescape (s.flatMap escapeChar ++ quote :: rest) = some (s, rest) := by
  induction s with
  | nil => rfl
  | cons c s ih =>
    obtain ⟨first, more, hchar, hq, hread⟩ :=
      readChar_escapeChar (hs c List.mem_cons_self) (s.flatMap escapeChar ++ quote :: rest)
    rw [List.flatMap_cons, hchar, List.cons_append, List.cons_append, List.append_assoc,
      unescape_cons hq hread, ih fun d hd => hs d (List.mem_cons_of_mem _ hd)]
    rfl

@[simp] theorem stringLen_quote {str : List UInt8} : stringLen (quote :: str) = some 0 := by
  rw [stringLen.eq_def]
  exact if_pos rfl

theorem stringLen_plain {str : List UInt8} (hq : c ≠ quote) (hb : c ≠ backslash) :
    stringLen (c :: str) = (stringLen str).map (· + 1) := by
  rw [stringLen.eq_def]
  simp only [if_neg hq, if_neg hb]

theorem stringLen_backslash {str : List UInt8} :
    stringLen (backslash :: c :: str) = (stringLen str).map (· + 1) := by
  rw [stringLen.eq_def]
  simp only [if_neg (show backslash ≠ quote by decide), if_pos]

theorem stringLen_append {n : Nat} {more str : List UInt8}
    (hmore : ∀ c ∈ more, c ≠ quote ∧ c ≠ backslash) (hstr : stringLen str = some n) :
    stringLen (more ++ str) = some (n + more.length) := by
  induction more with
  | nil => exact hstr
  | cons c more ih =>
    obtain ⟨hq, hb⟩ := hmore c List.mem_cons_self
    rw [List.cons_append, stringLen_plain hq hb, ih fun d hd => hmore d (List.mem_cons_of_mem _ hd)]
    rfl

/-- What stands behind a backslash. -/
theorem escapeChar_cases (c : UInt8) :
    escapeChar c = [c] ∧ c ≠ quote ∧ c ≠ backslash ∨
      ∃ d more, escapeChar c = backslash :: d :: more ∧ ∀ x ∈ more, x ≠ quote ∧ x ≠ backslash := by
  have hhex : ∀ c : UInt8, ([0x30, 0x30, hexChar (c >>> 4), hexChar (c &&& 0xF)].all
      fun x => decide (x ≠ quote ∧ x ≠ backslash)) = true := forall_byte (by decide +kernel)
  unfold escapeChar
  by_cases hn : NeedsEscape c
  · right
    rw [if_pos hn]
    split_ifs
    all_goals first
      | exact ⟨_, [], rfl, fun x hx => absurd hx List.not_mem_nil⟩
      | exact ⟨_, _, rfl, forall_mem (hhex c)⟩
  · rw [if_neg hn]
    exact .inl ⟨rfl, fun hq => hn (.inr (.inl hq)), fun hb => hn (.inr (.inr hb))⟩

/-- The first pass counts at least one character for each that has been printed. -/
theorem stringLen_escapeChar {n : Nat} {str : List UInt8} (hstr : stringLen str = some n) :
    ∃ m, stringLen (escapeChar c ++ str) = some m ∧ n + 1 ≤ m := by
  rcases escapeChar_cases c with ⟨hc, hq, hb⟩ | ⟨d, more, hc, hmore⟩
  · refine ⟨n + 1, ?_, Nat.le_refl _⟩
    rw [hc, List.singleton_append, stringLen_plain hq hb, hstr]
    rfl
  · refine ⟨n + more.length + 1, ?_, by omega⟩
    rw [hc, List.cons_append, List.cons_append, stringLen_backslash, stringLen_append hmore hstr]
    rfl

theorem stringLen_print (s rest : List UInt8) :
    ∃ n, stringLen (s.flatMap escapeChar ++ quote :: rest) = some n ∧ s.length ≤ n := by
  induction s with
  | nil =>
    refine ⟨0, ?_, Nat.le_refl _⟩
    rw [List.flatMap_nil, List.nil_append, stringLen_quote]
  | cons c s ih =>
    obtain ⟨n, hn, hle⟩ := ih
    obtain ⟨m, hm, hnm⟩ := stringLen_escapeChar (c := c) hn
    rw [List.flatMap_cons, List.append_assoc]
    exact ⟨m, hm, by rw [List.length_cons]; omega⟩

/-- Without characters to escape, escaping changes nothing. -/
theorem printStringPtr_some (s : List UInt8) :
    printStringPtr (some s) = some (quote :: s.flatMap escapeChar ++ [quote]) := by
  rw [printStringPtr, Option.map_some]
  split
  · rfl
  next h =>
    have hplain : ∀ c ∈ s, escapeChar c = [c] := by
      intro c hc
      exact if_neg fun hn => h (List.any_eq_true.mpr ⟨c, hc, decide_eq_true hn⟩)
    rw [List.flatMap_congr hplain, List.flatMap_singleton']

/-- **A printed string is parsed as it was**, without a step out of the text or the memory. -/
theorem parseString_print {D : Type} (item : CJsonItem D) {text : List UInt8}
    (hs : ∀ c ∈ s, c ≠ 0) (hp : printStringPtr (some s) = some text) (rest : List UInt8) :
    parseString item (text ++ rest) =
      .ok { item with valuestring := some s, type := .string } rest := by
  obtain ⟨n, hlen, hle⟩ := stringLen_print s rest
  rw [printStringPtr_some] at hp
  cases hp
  rw [List.cons_append, List.cons_append, List.append_assoc, List.singleton_append, parseString]
  simp only [ne_eq, not_true_eq_false, if_false, hlen, unescape_print hs, if_pos hle]

/-- The printed string fills its memory. -/
theorem printStringPtr_length {text : List UInt8} (hp : printStringPtr (some s) = some text) :
    text.length + 1 = printLen s + 3 := by
  have hchar : ∀ c : UInt8, (escapeChar c).length =
      1 + if c ∈ [quote, backslash, 0x08, 0x0C, 0x0A, 0x0D, 0x09] then 1
        else if c < 32 then 5 else 0 := forall_byte (by decide +kernel)
  rw [printStringPtr, Option.map_some] at hp
  rw [printLen]
  split at hp
  next h =>
    cases hp
    rw [if_pos h]
    simp only [List.length_append, List.length_cons, List.length_flatMap, hchar, List.length_nil]
  next h =>
    cases hp
    rw [if_neg h]
    simp

end Print

/-! ## Complete escapes -/

/-- The first four characters are hexadecimal digits. -/
def HexPrefix (str : List UInt8) : Prop :=
  4 ≤ str.length ∧ (str.take 4).all fun c => (hexDigit? c).isSome

instance (str : List UInt8) : Decidable (HexPrefix str) := inferInstanceAs (Decidable (_ ∧ _))

/-- From behind the quote of a string on, up to its end: behind a backslash stands a character, and
four digits more where it is a `u`. The escaped character itself begins no escape. -/
def StringComplete : List UInt8 → Prop
  | [] => True
  | [c] => c ≠ backslash
  | c :: d :: str =>
    if c = quote then True
    else if c = backslash then (d = letterU → HexPrefix str) ∧ StringComplete str
    else StringComplete (d :: str)

instance instDecidableStringComplete : (str : List UInt8) → Decidable (StringComplete str)
  | [] => inferInstanceAs (Decidable True)
  | [c] => inferInstanceAs (Decidable (c ≠ backslash))
  | c :: d :: str =>
    have := instDecidableStringComplete str
    have := instDecidableStringComplete (d :: str)
    inferInstanceAs (Decidable (if c = quote then True
      else if c = backslash then (d = letterU → HexPrefix str) ∧ StringComplete str
      else StringComplete (d :: str)))

/-- All escapes are complete in the strings of the text. Each quote may begin one. -/
def Complete : List UInt8 → Prop
  | [] => True
  | c :: str => (c = quote → StringComplete str) ∧ Complete str

instance instDecidableComplete : (str : List UInt8) → Decidable (Complete str)
  | [] => inferInstanceAs (Decidable True)
  | _ :: str =>
    have := instDecidableComplete str
    inferInstanceAs (Decidable (_ ∧ _))

/-- An escaped backslash before a `u`. -/
example : Complete [0x22, 0x5C, 0x5C, 0x75, 0x73, 0x65, 0x72, 0x22] := by decide

/-- The result lies in the text, a returned pointer behind its start. -/
def Parse.Inside {α : Type} (text : List UInt8) : Parse α → Prop
  | ok _ rest => rest <:+ text ∧ rest.length < text.length
  | fail ep => ep <:+ text
  | stray => False

section Complete

variable {c : UInt8} {str bytes rest : List UInt8} {n : Nat}

theorem Complete.of_suffix (h : Complete str) (hs : rest <:+ str) : Complete rest := by
  obtain ⟨t, rfl⟩ := hs
  induction t with
  | nil => exact h
  | cons c t ih => exact ih h.2

theorem stringComplete_plain (hq : c ≠ quote) (hb : c ≠ backslash) :
    StringComplete (c :: str) ↔ StringComplete str := by
  cases str with
  | nil => simp [StringComplete, hb]
  | cons d str => rw [StringComplete, if_neg hq, if_neg hb]

theorem stringComplete_backslash (d : UInt8) : StringComplete (backslash :: d :: str) ↔
    (d = letterU → HexPrefix str) ∧ StringComplete str := by
  rw [StringComplete, if_neg (by decide), if_pos rfl]

theorem hexDigit_plain : ∀ c : UInt8, (hexDigit? c).isSome → c ≠ quote ∧ c ≠ backslash :=
  forall_byte (by decide +kernel)

/-- Digits count one by one. -/
theorem HexPrefix.stringLen (h : HexPrefix str) (hn : stringLen (str.drop 4) = some n) :
    stringLen str = some (n + 4) := by
  have hall := stringLen_append
    (fun c hc => hexDigit_plain c (List.all_eq_true.mp h.2 c hc)) hn
  rwa [List.take_append_drop, List.length_take, Nat.min_eq_left h.1] at hall

/-- No digit begins an escape. -/
theorem HexPrefix.stringComplete (h : HexPrefix str) (hc : StringComplete str) :
    StringComplete (str.drop 4) := by
  have hplain : ∀ p : List UInt8, (∀ c ∈ p, c ≠ quote ∧ c ≠ backslash) → ∀ rest,
      StringComplete (p ++ rest) → StringComplete rest := by
    intro p hp rest hc
    induction p with
    | nil => exact hc
    | cons c p ih =>
      obtain ⟨⟨hq, hb⟩, hp⟩ := List.forall_mem_cons.mp hp
      exact ih hp ((stringComplete_plain hq hb).mp hc)
  apply hplain (str.take 4) fun c hc => hexDigit_plain c (List.all_eq_true.mp h.2 c hc)
  rwa [List.take_append_drop]

theorem utf8Bytes_length_le (uc : UInt32) : (utf8Bytes uc).length ≤ 4 := by
  unfold utf8Bytes
  split_ifs <;> simp

/-- A complete `\u` is read, and counts at least as much as it writes. -/
theorem readUnicode_complete (h : HexPrefix str) (hc : StringComplete str) :
    ∃ bytes rest, readUnicode str = some (bytes, rest) ∧ StringComplete rest ∧
      ∀ n, stringLen rest = some n → ∃ m, stringLen str = some m ∧ bytes.length + n ≤ m := by
  have hlen : ¬str.length < 4 := by
    have := h.1
    omega
  have hrest := h.stringComplete hc
  have hone : ∀ bytes : List UInt8, bytes.length ≤ 4 → ∀ n, stringLen (str.drop 4) = some n →
      ∃ m, stringLen str = some m ∧ bytes.length + n ≤ m :=
    fun bytes hb n hn => ⟨n + 4, h.stringLen hn, by omega⟩
  simp only [readUnicode, if_neg hlen]
  split_ifs with hlow hhigh
  · exact ⟨_, _, rfl, hrest, hone [] (by simp)⟩
  · split
    next a b pair hdrop =>
      split_ifs with hpair hshort hsecond
      · exact ⟨_, _, rfl, hdrop ▸ hrest, hone [] (by simp)⟩
      all_goals
        obtain ⟨rfl, rfl⟩ : a = backslash ∧ b = letterU := by simpa using hpair
        have hcd : StringComplete (backslash :: letterU :: pair) := hdrop ▸ hrest
        obtain ⟨hhex, hpc⟩ := (stringComplete_backslash letterU).mp hcd
        have hhex := hhex rfl
      · exact absurd hhex.1 (by omega)
      all_goals
        have htwo : ∀ n, stringLen (pair.drop 4) = some n → stringLen str = some (n + 9) := by
          intro n hn
          refine h.stringLen (n := n + 5) ?_
          rw [hdrop, stringLen_backslash, hhex.stringLen hn]
          rfl
      · exact ⟨_, _, rfl, hhex.stringComplete hpc, fun n hn => ⟨n + 9, htwo n hn, by simp⟩⟩
      · refine ⟨_, _, rfl, hhex.stringComplete hpc, fun n hn => ⟨n + 9, htwo n hn, ?_⟩⟩
        have := utf8Bytes_length_le (surrogatePair (parseHex4 str) (parseHex4 pair))
        omega
    next => exact ⟨_, _, rfl, hrest, hone [] (by simp)⟩
  · exact ⟨_, _, rfl, hrest, hone _ (utf8Bytes_length_le _)⟩

/-- A turn of the second pass on a complete string. -/
theorem readChar_complete (hq : c ≠ quote) (h : StringComplete (c :: str)) :
    ∃ bytes rest, readChar c str = some (bytes, rest) ∧ rest <:+ str ∧ StringComplete rest ∧
      ∀ n, stringLen rest = some n → ∃ m, stringLen (c :: str) = some m ∧ bytes.length + n ≤ m := by
  by_cases hb : c = backslash
  · subst hb
    rw [readChar, if_pos rfl]
    cases str with
    | nil => exact absurd rfl h
    | cons d str =>
      obtain ⟨hhex, hc⟩ := (stringComplete_backslash d).mp h
      rw [readEscape]
      by_cases hu : d = letterU
      · obtain ⟨bytes, rest, hread, hrest, hcount⟩ := readUnicode_complete (hhex hu) hc
        refine ⟨bytes, rest, by rw [if_pos hu, hread],
          (readUnicode_suffix hread).trans (List.suffix_cons d str), hrest, fun n hn => ?_⟩
        obtain ⟨m, hm, hle⟩ := hcount n hn
        exact ⟨m + 1, by rw [stringLen_backslash, hm]; rfl, by omega⟩
      · refine ⟨_, _, if_neg hu, List.suffix_cons d str, hc, fun n hn => ⟨n + 1, ?_, ?_⟩⟩
        · rw [stringLen_backslash, hn]
          rfl
        · rw [List.length_singleton]
          omega
  · refine ⟨_, _, if_neg hb, List.suffix_rfl, (stringComplete_plain hq hb).mp h,
      fun n hn => ⟨n + 1, ?_, ?_⟩⟩
    · rw [stringLen_plain hq hb, hn]
      rfl
    · rw [List.length_singleton]
      omega

/-- Both passes on a complete string: what is written has been counted. -/
theorem unescape_complete (h : StringComplete str) :
    ∃ len out rest, stringLen str = some len ∧ unescape str = some (out, rest) ∧
      out.length ≤ len ∧ rest <:+ str := by
  induction hk : str.length using Nat.strong_induction_on generalizing str with
  | h k ih =>
    cases str with
    | nil => exact ⟨0, [], [], rfl, rfl, Nat.le_refl _, List.suffix_rfl⟩
    | cons c str =>
      by_cases hq : c = quote
      · subst hq
        exact ⟨0, [], str, stringLen_quote, rfl, Nat.le_refl _, List.suffix_cons _ _⟩
      · obtain ⟨bytes, rest, hread, hsuf, hc, hcount⟩ := readChar_complete hq h
        have hlt : rest.length < k := by
          have := hsuf.length_le
          rw [← hk, List.length_cons]
          omega
        obtain ⟨n, out, rest', hn, hout, hle, hrest⟩ := ih _ hlt hc rfl
        obtain ⟨m, hm, hmn⟩ := hcount n hn
        refine ⟨m, bytes ++ out, rest', hm, ?_, ?_, (hrest.trans hsuf).trans (List.suffix_cons c str)⟩
        · rw [unescape_cons hq hread, hout]
          rfl
        · rw [List.length_append]
          omega

/-- **`parse_string` stays inside the text and its memory** where all escapes are complete. -/
theorem parseString_complete {D : Type} (item : CJsonItem D) (h : Complete str) :
    (parseString item str).Inside str := by
  unfold parseString
  split
  · exact List.suffix_rfl
  next c rest =>
    split_ifs with hq
    · exact List.suffix_rfl
    · obtain ⟨len, out, rest', hlen, hout, hle, hrest⟩ := unescape_complete (h.1 (not_not.mp hq))
      simp only [hlen, hout, if_pos hle]
      exact ⟨hrest.trans (List.suffix_cons c rest), Nat.lt_succ_of_le hrest.length_le⟩

end Complete

end AtkOnenet
