import AtkOnenet.Json.Number
import AtkOnenet.Json.Text

/-!
# The parser of the JSON package (`packages/cJSON-v1.0.2/cJSON.c`)

`parseValue`, `parseArray` and `parseObject` call each other; `parseItems` and `parseMembers` are the
loops of the last two. They count their calls down (`n`), and stop with `stray` at 0.

* `cJsonParse_complete`: on a text with complete escapes the parser comes to an end inside the text,
  and so does the error pointer.
-/

namespace AtkOnenet

def nullText : List UInt8 := [0x6E, 0x75, 0x6C, 0x6C]
def falseText : List UInt8 := [0x66, 0x61, 0x6C, 0x73, 0x65]
def trueText : List UInt8 := [0x74, 0x72, 0x75, 0x65]
def comma : UInt8 := 0x2C
def colon : UInt8 := 0x3A
def openBracket : UInt8 := 0x5B
def closeBracket : UInt8 := 0x5D
def openBrace : UInt8 := 0x7B
def closeBrace : UInt8 := 0x7D

def skip (text : List UInt8) : List UInt8 := text.dropWhile (· ≤ 32)

section Parse

variable {D : Type} [DoubleArith D]

/-- What `parse_array` and `parse_object` have in common: the brackets `start` and `stop` around a
`loop` over the children. -/
def parseBlock (start stop : UInt8) (type : CJsonType)
    (loop : List UInt8 → Parse (List (CJsonItem D))) (item : CJsonItem D) :
    List UInt8 → Parse (CJsonItem D)
  | [] => .fail []
  | c :: rest =>
    if c ≠ start then .fail (c :: rest)
    else
      let value := skip rest
      if value.head? = some stop then .ok { item with type := type } value.tail
      else
        (loop value).bind fun child value =>
          if value.head? = some stop then .ok { item with type := type, child := child } value.tail
          else .fail value

/-- `parse_array`, with its loop as an argument. -/
def parseArray (items : List UInt8 → Parse (List (CJsonItem D))) (item : CJsonItem D)
    (value : List UInt8) : Parse (CJsonItem D) :=
  parseBlock openBracket closeBracket .array items item value

/-- `parse_object`, with its loop as an argument. -/
def parseObject (members : List UInt8 → Parse (List (CJsonItem D))) (item : CJsonItem D)
    (value : List UInt8) : Parse (CJsonItem D) :=
  parseBlock openBrace closeBrace .object members item value

/-- The name of a member, up to its colon: the item with the name, and what stands behind the
colon. -/
def parseName (value : List UInt8) : Parse (CJsonItem D) :=
  (parseString .new (skip value)).bind fun child value =>
    let child := { child with string := child.valuestring, valuestring := none }
    let value := skip value
    if value.head? = some colon then .ok child value.tail else .fail value

mutual

/-- `parse_value`. -/
def parseValue : Nat → CJsonItem D → List UInt8 → Parse (CJsonItem D)
  | 0, _, _ => .stray
  | n + 1, item, value =>
    if nullText <+: value then .ok { item with type := .null } (value.drop 4)
    else if falseText <+: value then .ok { item with type := .false } (value.drop 5)
    else if trueText <+: value then .ok { item with type := .true, valueint := 1 } (value.drop 4)
    else
      match value.head? with
      | none => .fail value
      | some c =>
        if c = quote then parseString item value
        else if c = minus ∨ IsDigit c then
          let (item, value) := parseNumber item value
          .ok item value
        else if c = openBracket then parseArray (parseItems n) item value
        else if c = openBrace then parseObject (parseMembers n) item value
        else .fail value

/-- The loop of `parse_array`, at the start of an item. -/
def parseItems : Nat → List UInt8 → Parse (List (CJsonItem D))
  | 0, _ => .stray
  | n + 1, value =>
    (parseValue n .new (skip value)).bind fun child value =>
      let value := skip value
      if value.head? = some comma then
        (parseItems n value.tail).bind fun items value => .ok (child :: items) value
      else .ok [child] value

/-- The loop of `parse_object`, at the start of a member. -/
def parseMembers : Nat → List UInt8 → Parse (List (CJsonItem D))
  | 0, _ => .stray
  | n + 1, value =>
    (parseName value).bind fun child value =>
      (parseValue n child (skip value)).bind fun child value =>
        let value := skip value
        if value.head? = some comma then
          (parseMembers n value.tail).bind fun items value => .ok (child :: items) value
        else .ok [child] value

end

/-- `cJSON_Parse`. -/
def cJsonParse (value : List UInt8) : Parse (CJsonItem D) :=
  parseValue (2 * value.length + 1) .new (skip value)

end Parse

/-! ## Texts with complete escapes -/

section Inside

variable {α β : Type} {text rest : List UInt8} {p : Parse α} {f : α → List UInt8 → Parse β}

theorem Parse.Inside.of_suffix (h : p.Inside rest) (hs : rest <:+ text) : p.Inside text := by
  cases p with
  | ok a rest' => exact ⟨h.1.trans hs, Nat.lt_of_lt_of_le h.2 hs.length_le⟩
  | fail ep => exact List.IsSuffix.trans h hs
  | stray => exact h

theorem Parse.Inside.bind (hp : p.Inside text)
    (hf : ∀ a rest, rest <:+ text → rest.length < text.length → (f a rest).Inside text) :
    (p.bind f).Inside text := by
  cases p with
  | ok a rest => exact hf a rest hp.1 hp.2
  | fail ep => exact hp
  | stray => exact hp

theorem skip_suffix (text : List UInt8) : skip text <:+ text := List.dropWhile_suffix _

theorem skip_tail_suffix (text : List UInt8) : (skip text).tail <:+ text :=
  (List.tail_suffix _).trans (skip_suffix text)

/-- The text is shorter behind the next character. -/
theorem skip_tail_length {c : UInt8} (h : (skip text).head? = some c) :
    (skip text).tail.length < text.length := by
  have hle := (skip_suffix text).length_le
  cases hs : skip text with
  | nil => rw [hs] at h; cases h
  | cons d rest =>
    rw [hs, List.length_cons] at hle
    exact Nat.lt_of_succ_le hle

variable {D : Type} [DoubleArith D] {n : Nat}

omit [DoubleArith D] in
theorem parseBlock_inside {start stop : UInt8} {type : CJsonType}
    {loop : List UInt8 → Parse (List (CJsonItem D))} (item : CJsonItem D)
    (hloop : ∀ text, Complete text → 2 * text.length + 2 ≤ n → (loop text).Inside text)
    (h : Complete text) (hn : 2 * text.length ≤ n) :
    (parseBlock start stop type loop item text).Inside text := by
  cases text with
  | nil => exact List.suffix_rfl
  | cons c rest =>
    have hrest := List.suffix_cons c rest
    have hskip := (skip_suffix rest).length_le
    rw [List.length_cons] at hn
    simp only [parseBlock]
    split_ifs
    · exact List.suffix_rfl
    · exact ⟨(skip_tail_suffix rest).trans hrest,
        Nat.lt_succ_of_le (skip_tail_suffix rest).length_le⟩
    · refine ((hloop _ (h.2.of_suffix (skip_suffix rest)) (by omega)).of_suffix
        ((skip_suffix rest).trans hrest)).bind fun child value hvalue hlen => ?_
      split_ifs
      · exact ⟨(List.tail_suffix value).trans hvalue,
          Nat.lt_of_le_of_lt (List.tail_suffix value).length_le hlen⟩
      · exact hvalue

theorem parseName_inside (h : Complete text) : (parseName (D := D) text).Inside text := by
  refine ((parseString_complete .new (h.of_suffix (skip_suffix text))).of_suffix
    (skip_suffix text)).bind fun child value hvalue hlen => ?_
  dsimp only
  split_ifs with hcolon
  · exact ⟨(skip_tail_suffix value).trans hvalue,
      Nat.lt_of_le_of_lt (skip_tail_suffix value).length_le hlen⟩
  · exact (skip_suffix value).trans hvalue

omit [DoubleArith D] in
/-- The end of a turn of the loops: behind a comma the loop goes on. -/
theorem next_inside {loop : List UInt8 → Parse (List (CJsonItem D))} (child : CJsonItem D)
    (hloop : ∀ text, Complete text → 2 * text.length + 2 ≤ n → (loop text).Inside text)
    (h : Complete text) (hn : 2 * text.length + 2 ≤ n + 1) (hrest : rest <:+ text)
    (hlen : rest.length < text.length) :
    Parse.Inside text (if (skip rest).head? = some comma then
      (loop (skip rest).tail).bind fun items value => .ok (child :: items) value
      else .ok [child] (skip rest)) := by
  split_ifs with hcomma
  · have htail := (skip_tail_suffix rest).trans hrest
    have hshort := skip_tail_length hcomma
    exact ((hloop _ (h.of_suffix htail) (by omega)).of_suffix htail).bind
      fun items value hvalue hlen' => ⟨hvalue, hlen'⟩
  · exact ⟨(skip_suffix rest).trans hrest, Nat.lt_of_le_of_lt (skip_suffix rest).length_le hlen⟩

/-- The texts of the constants. -/
theorem drop_inside (a : α) {word : List UInt8} (hword : word <+: text) (h0 : 0 < word.length) :
    (Parse.ok a (text.drop word.length)).Inside text := by
  refine ⟨List.drop_suffix _ _, ?_⟩
  have hle := hword.length_le
  rw [List.length_drop]
  omega

/-- Two calls for a character and one more are enough. -/
theorem parse_inside (n : Nat) :
    (∀ item text, Complete text → 2 * text.length + 1 ≤ n →
      (parseValue (D := D) n item text).Inside text) ∧
    (∀ text, Complete text → 2 * text.length + 2 ≤ n →
      (parseItems (D := D) n text).Inside text) ∧
    ∀ text, Complete text → 2 * text.length + 2 ≤ n →
      (parseMembers (D := D) n text).Inside text := by
  induction n with
  | zero =>
    exact ⟨fun _ _ _ h => absurd h (by omega), fun _ _ h => absurd h (by omega),
      fun _ _ h => absurd h (by omega)⟩
  | succ n ih =>
    obtain ⟨hvalue, hitems, hmembers⟩ := ih
    refine ⟨fun item text h hn => ?_, fun text h hn => ?_, fun text h hn => ?_⟩
    · rw [parseValue]
      split_ifs with hnull hfalse htrue
      · exact drop_inside _ hnull (by decide)
      · exact drop_inside _ hfalse (by decide)
      · exact drop_inside _ htrue (by decide)
      · cases text with
        | nil => exact List.suffix_rfl
        | cons c rest =>
          simp only [List.head?_cons]
          split_ifs with hq hd
          · exact parseString_complete item h
          · have hrest := parseNumber_suffix item rest hd
            exact ⟨hrest.trans (List.suffix_cons c rest), Nat.lt_succ_of_le hrest.length_le⟩
          · exact parseBlock_inside item hitems h (by omega)
          · exact parseBlock_inside item hmembers h (by omega)
          · exact List.suffix_rfl
    · have hskip := (skip_suffix text).length_le
      rw [parseItems]
      exact ((hvalue _ _ (h.of_suffix (skip_suffix text)) (by omega)).of_suffix
        (skip_suffix text)).bind fun child rest hrest hlen => next_inside child hitems h hn hrest hlen
    · rw [parseMembers]
      refine (parseName_inside h).bind fun child rest hrest hlen => ?_
      have hskip := (skip_suffix rest).length_le
      refine ((hvalue child _ (h.of_suffix ((skip_suffix rest).trans hrest)) (by omega)).of_suffix
        ((skip_suffix rest).trans hrest)).bind fun child rest hrest hlen => ?_
      exact next_inside child hmembers h hn hrest hlen

end Inside

/-- **The parser stays inside the text.** On every text with complete escapes, well formed or not, it
comes to an end with an item or without one; it leaves neither the text nor the memory of a string,
and the error pointer points into the text. -/
theorem cJsonParse_complete {D : Type} [DoubleArith D] {text : List UInt8} (h : Complete text) :
    (∃ (item : CJsonItem D) (rest : List UInt8), cJsonParse text = .ok item rest ∧ rest <:+ text) ∨
      ∃ ep, cJsonParse (D := D) text = .fail ep ∧ ep <:+ text := by
  have hskip := skip_suffix text
  have hn := hskip.length_le
  have hin := (parse_inside (D := D) (2 * text.length + 1)).1 .new (skip text)
    (h.of_suffix hskip) (by omega)
  cases hp : cJsonParse (D := D) text with
  | ok item rest =>
    rw [← cJsonParse, hp] at hin
    exact .inl ⟨item, rest, rfl, hin.1.trans hskip⟩
  | fail ep =>
    rw [← cJsonParse, hp] at hin
    exact .inr ⟨ep, rfl, hin.trans hskip⟩
  | stray =>
    rw [← cJsonParse, hp] at hin
    exact hin.elim

/-- The text `["\\u00e9"`, without its closing bracket. -/
theorem cJsonParse_complete_open :
    let text : List UInt8 := [0x5B, 0x22, 0x5C, 0x75, 0x30, 0x30, 0x65, 0x39, 0x22]
    (∃ (item : CJsonItem Int) (rest : List UInt8), cJsonParse text = .ok item rest ∧
        rest <:+ text) ∨
      ∃ ep, cJsonParse (D := Int) text = .fail ep ∧ ep <:+ text :=
  cJsonParse_complete (by decide)

end AtkOnenet
