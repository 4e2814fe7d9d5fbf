import AtkOnenet.Json.Print

/-!
# Printing and parsing (`packages/cJSON-v1.0.2/cJSON.c`)

* `parseValue_print`: the parser gives back what the printer has printed, wherever it stands in a
  text.
* `cJsonParse_print`: every printable tree comes back from both formats.
-/

namespace AtkOnenet

open DoubleArith Word

/-! ## Spaces -/

section Skip

variable {c : UInt8} {ws text text' : List UInt8}

theorem skip_cons (hc : 32 < c) : skip (c :: text) = c :: text := by
  have hle : ¬c ≤ 32 := UInt8.not_le.mpr hc
  rw [skip, List.dropWhile_cons_of_neg (by simpa using hle)]

theorem skip_append (hws : ∀ c ∈ ws, c ≤ 32) (text : List UInt8) :
    skip (ws ++ text) = skip text := by
  rw [skip, List.dropWhile_append_of_pos (fun c hc => decide_eq_true (hws c hc)), skip]

theorem skip_skip (text : List UInt8) : skip (skip text) = skip text := by
  induction text with
  | nil => rfl
  | cons c text ih =>
    by_cases hc : c ≤ 32
    · have hskip : skip (c :: text) = skip text :=
        skip_append (List.forall_mem_singleton.mpr hc) text
      rw [hskip, ih]
    · rw [skip_cons (UInt8.not_le.mp hc), skip_cons (UInt8.not_le.mp hc)]

theorem le_of_mem_indent (fmt : Bool) (depth : Nat) : ∀ c ∈ indent fmt depth, c ≤ 32 := by
  intro c hc
  cases fmt with
  | false => exact absurd hc List.not_mem_nil
  | true =>
    rw [List.eq_of_mem_replicate hc]
    decide

theorem le_of_mem_lineEnd (fmt : Bool) : ∀ c ∈ lineEnd fmt, c ≤ 32 := by
  cases fmt <;> exact forall_mem rfl

variable {D : Type} [DoubleArith D]

/-- The loops start with a skip. -/
theorem parseItems_congr (h : skip text = skip text') (n : Nat) :
    parseItems (D := D) n text = parseItems n text' := by
  cases n with
  | zero => rfl
  | succ n => rw [parseItems, parseItems, h]

theorem parseMembers_congr (h : skip text = skip text') (n : Nat) :
    parseMembers (D := D) n text = parseMembers n text' := by
  cases n with
  | zero => rfl
  | succ n => rw [parseMembers, parseMembers, parseName, parseName, h]

end Skip

/-! ## The parser at the start of a value -/

section Value

variable {D : Type} [DoubleArith D] {n : Nat} {rest : List UInt8}

theorem parseValue_null (item : CJsonItem D) :
    parseValue (n + 1) item (nullText ++ rest) = .ok { item with type := .null } rest := by
  rw [parseValue, if_pos (List.prefix_append _ _)]
  rfl

theorem parseValue_false (item : CJsonItem D) :
    parseValue (n + 1) item (falseText ++ rest) = .ok { item with type := .false } rest := by
  have hnull : ¬nullText <+: falseText ++ rest := by
    simp [nullText, falseText, List.cons_prefix_cons]
  rw [parseValue, if_neg hnull, if_pos (List.prefix_append _ _)]
  rfl

theorem parseValue_true (item : CJsonItem D) :
    parseValue (n + 1) item (trueText ++ rest) =
      .ok { item with type := .true, valueint := 1 } rest := by
  have hnull : ¬nullText <+: trueText ++ rest := by
    simp [nullText, trueText, List.cons_prefix_cons]
  have hfalse : ¬falseText <+: trueText ++ rest := by
    simp [falseText, trueText, List.cons_prefix_cons]
  rw [parseValue, if_neg hnull, if_neg hfalse, if_pos (List.prefix_append _ _)]
  rfl

/-- None of the constants starts with `c`. -/
theorem parseValue_cons (item : CJsonItem D) {c : UInt8} (hc : c ≠ 0x6E ∧ c ≠ 0x66 ∧ c ≠ 0x74) :
    parseValue (n + 1) item (c :: rest) =
      if c = quote then parseString item (c :: rest)
      else if c = minus ∨ IsDigit c then
        .ok (parseNumber item (c :: rest)).1 (parseNumber item (c :: rest)).2
      else if c = openBracket then parseArray (parseItems n) item (c :: rest)
      else if c = openBrace then parseObject (parseMembers n) item (c :: rest)
      else .fail (c :: rest) := by
  obtain ⟨hn, hf, ht⟩ := hc
  have hnull : ¬nullText <+: c :: rest := fun h => hn (List.cons_prefix_cons.mp h).1.symm
  have hfalse : ¬falseText <+: c :: rest := fun h => hf (List.cons_prefix_cons.mp h).1.symm
  have htrue : ¬trueText <+: c :: rest := fun h => ht (List.cons_prefix_cons.mp h).1.symm
  rw [parseValue, if_neg hnull, if_neg hfalse, if_neg htrue]
  rfl

omit [DoubleArith D] in
/-- The brackets around a loop that stops in front of `stop`. -/
theorem parseBlock_loop {start stop : UInt8} {type : CJsonType} {item : CJsonItem D}
    {loop : List UInt8 → Parse (List (CJsonItem D))} {child : List (CJsonItem D)}
    {text : List UInt8} (hne : (skip text).head? ≠ some stop)
    (hloop : loop (skip text) = .ok child (stop :: rest)) :
    parseBlock start stop type loop item (start :: text) =
      .ok { item with type := type, child := child } rest := by
  rw [parseBlock]
  simp only [ne_eq, not_true_eq_false, if_false, if_neg hne, hloop, Parse.ok_bind, List.head?_cons,
    if_true, List.tail_cons]

omit [DoubleArith D] in
theorem parseBlock_empty {start stop : UInt8} {type : CJsonType} {item : CJsonItem D}
    {loop : List UInt8 → Parse (List (CJsonItem D))} {text : List UInt8}
    (h : skip text = stop :: rest) :
    parseBlock start stop type loop item (start :: text) = .ok { item with type := type } rest := by
  rw [parseBlock]
  simp only [ne_eq, not_true_eq_false, if_false, h, List.head?_cons, if_true, List.tail_cons]

end Value

/-! ## Where a printed value starts and ends -/

section Ends

variable {c : UInt8} {ws rest text : List UInt8}

/-- The first character of a number. -/
theorem decimal_head (v : Int) : ∃ c t, decimal v = c :: t ∧ (c = minus ∨ IsDigit c) := by
  have hnat : ∀ n, ∃ c t, decimalNat n = c :: t ∧ IsDigit c := by
    intro n
    have hdigit : ∀ d < 10, IsDigit (digitChar d) := by decide
    rw [decimalNat]
    split_ifs with h0
    · exact ⟨zero, [], rfl, by decide⟩
    · cases hds : (Nat.digits 10 n).reverse with
      | nil => exact absurd (List.reverse_eq_nil_iff.mp hds) (Nat.digits_ne_nil_iff_ne_zero.mpr h0)
      | cons d ds =>
        have hd : d ∈ Nat.digits 10 n := by
          rw [← List.mem_reverse, hds]
          exact List.mem_cons_self
        exact ⟨_, _, rfl, hdigit d (Nat.digits_lt_base (by decide) hd)⟩
  rw [decimal]
  split_ifs
  · exact ⟨minus, _, rfl, .inl rfl⟩
  · obtain ⟨c, t, h, hc⟩ := hnat v.natAbs
    exact ⟨c, t, h, .inr hc⟩

/-- A number ends in front of what the printer puts behind a value, -/
theorem numberEnd_cons (hc : c = comma ∨ c = closeBracket ∨ c = closeBrace) (rest : List UInt8) :
    NumberEnd (c :: rest) := by
  intro d hd
  obtain rfl : c = d := Option.some.inj hd
  rcases hc with rfl | rfl | rfl <;> decide

/-- also with spaces in front of it. -/
theorem numberEnd_append (hws : ∀ c ∈ ws, c ≤ 32) (hc : c = comma ∨ c = closeBracket ∨ c = closeBrace)
    (rest : List UInt8) : NumberEnd (ws ++ c :: rest) := by
  have hspace : ∀ c : UInt8, c ≤ 32 → ¬IsDigit c ∧ c ≠ point ∧ c ≠ 0x65 ∧ c ≠ 0x45 :=
    forall_byte (by decide +kernel)
  cases ws with
  | nil => exact numberEnd_cons hc rest
  | cons w ws =>
    intro d hd
    obtain rfl : w = d := Option.some.inj hd
    exact hspace w (hws w List.mem_cons_self)

variable {D : Type} [DoubleArith D] [ExactInts D]

/-- A printed value starts with neither a space nor a closing bracket. -/
theorem printValue_head {item : CJsonItem D} (hp : item.Printable) {depth : Nat} {fmt : Bool}
    (ht : printValue depth fmt item = some text) :
    ∃ c t, text = c :: t ∧ 32 < c ∧ c ≠ closeBracket := by
  obtain ⟨type, valuestring, valueint, valuedouble, string, child⟩ := item
  cases type with
  | null => cases ht; exact ⟨_, _, rfl, by decide, by decide⟩
  | false => cases ht; exact ⟨_, _, rfl, by decide, by decide⟩
  | true => cases ht; exact ⟨_, _, rfl, by decide, by decide⟩
  | number =>
    cases ht
    have hv : valuedouble = ofInt valueint.toInt := hp
    rw [printNumber_int hv]
    obtain ⟨c, t, h, hc⟩ := decimal_head valueint.toInt
    have hgt : ∀ c : UInt8, c = minus ∨ IsDigit c → 32 < c ∧ c ≠ closeBracket :=
      forall_byte (by decide +kernel)
    exact ⟨c, t, h, hgt c hc⟩
  | string =>
    obtain ⟨s, rfl, -⟩ := hp
    rw [printValue, printStringPtr_some] at ht
    cases ht
    exact ⟨_, _, rfl, by decide, by decide⟩
  | array =>
    rw [printValue, Option.map_eq_some_iff] at ht
    obtain ⟨es, -, rfl⟩ := ht
    exact ⟨_, _, rfl, by decide, by decide⟩
  | object =>
    rw [printValue] at ht
    split_ifs at ht
    · cases ht
      exact ⟨_, _, rfl, by decide, by decide⟩
    · rw [Option.map_eq_some_iff] at ht
      obtain ⟨ms, -, rfl⟩ := ht
      exact ⟨_, _, rfl, by decide, by decide⟩

/-- So the spaces in front of it are skipped up to it. -/
theorem skip_print {item : CJsonItem D} (hp : item.Printable) {depth : Nat} {fmt : Bool}
    (ht : printValue depth fmt item = some text) (rest : List UInt8) :
    skip (text ++ rest) = text ++ rest := by
  obtain ⟨c, t, rfl, hc, -⟩ := printValue_head hp ht
  exact skip_cons hc

/-- The first character of a printed value, in a text. -/
theorem head_print {item : CJsonItem D} (hp : item.Printable) {depth : Nat} {fmt : Bool}
    (ht : printValue depth fmt item = some text) (rest : List UInt8) :
    (skip (text ++ rest)).head? ≠ some closeBracket := by
  rw [skip_print hp ht rest]
  obtain ⟨c, t, rfl, -, hc⟩ := printValue_head hp ht
  exact fun h => hc (Option.some.inj h)

theorem length_print {item : CJsonItem D} (hp : item.Printable) {depth : Nat} {fmt : Bool}
    (ht : printValue depth fmt item = some text) : 0 < text.length := by
  obtain ⟨c, t, rfl, -⟩ := printValue_head hp ht
  exact Nat.succ_pos _

end Ends

/-! ## The round trip -/

section RoundTrip

variable {D : Type} [DoubleArith D] [ExactInts D]

/-- A new item with a name. `parse_string` leaves the type of a string in it. -/
def named (type : CJsonType) (string : Option (List UInt8)) : CJsonItem D :=
  { CJsonItem.new with type := type, string := string }

theorem parseValue_number {item : CJsonItem D} {v : Int32} {rest : List UInt8}
    (hrest : NumberEnd rest) (n : Nat) :
    parseValue (n + 1) item (decimal v.toInt ++ rest) =
      .ok { item with valuedouble := ofInt v.toInt, valueint := v, type := .number } rest := by
  obtain ⟨c, t, h, hc⟩ := decimal_head v.toInt
  have hfirst : ∀ c : UInt8, c = minus ∨ IsDigit c →
      (c ≠ 0x6E ∧ c ≠ 0x66 ∧ c ≠ 0x74) ∧ c ≠ quote := forall_byte (by decide +kernel)
  have hparse := parseNumber_decimal item v hrest
  rw [h, List.cons_append] at hparse ⊢
  rw [parseValue_cons item (hfirst c hc).1, if_neg (hfirst c hc).2, if_pos hc, hparse]

omit [ExactInts D] in
theorem parseValue_string {item : CJsonItem D} {s text rest : List UInt8} (hs : ∀ c ∈ s, c ≠ 0)
    (ht : printStringPtr (some s) = some text) (n : Nat) :
    parseValue (n + 1) item (text ++ rest) =
      .ok { item with valuestring := some s, type := .string } rest := by
  have hparse := parseString_print item hs ht rest
  rw [printStringPtr_some] at ht
  cases ht
  rw [List.cons_append, List.cons_append] at hparse ⊢
  rw [parseValue_cons item (by decide), if_pos rfl, hparse]

omit [ExactInts D] in
theorem printItems_cons {depth : Nat} {fmt : Bool} {c : CJsonItem D} {cs : List (CJsonItem D)}
    {es : List (List UInt8)} (h : printItems depth fmt (c :: cs) = some es) :
    ∃ e es', es = e :: es' ∧ printValue depth fmt c = some e ∧ printItems depth fmt cs = some es' := by
  simp only [printItems, Option.bind_eq_bind, Option.bind_eq_some_iff, Option.some.injEq] at h
  obtain ⟨e, he, es', hes, rfl⟩ := h
  exact ⟨e, es', rfl, he, hes⟩

omit [ExactInts D] in
theorem printMembers_cons {depth : Nat} {fmt : Bool} {c : CJsonItem D} {cs : List (CJsonItem D)}
    {ms : List (List UInt8 × List UInt8)} (h : printMembers depth fmt (c :: cs) = some ms) :
    ∃ name e ms', ms = (name, e) :: ms' ∧ printStringPtr c.string = some name ∧
      printValue depth fmt c = some e ∧ printMembers depth fmt cs = some ms' := by
  simp only [printMembers, Option.bind_eq_bind, Option.bind_eq_some_iff, Option.some.injEq] at h
  obtain ⟨name, hname, e, he, ms', hms, rfl⟩ := h
  exact ⟨name, e, ms', rfl, hname, he, hms⟩

omit [ExactInts D] in
/-- The name of a printed member, up to its colon. -/
theorem parseName_print {name s ws rest : List UInt8} (hs : ∀ c ∈ s, c ≠ 0)
    (hname : printStringPtr (some s) = some name) (hws : ∀ c ∈ ws, c ≤ 32) :
    parseName (ws ++ name ++ colon :: rest) = .ok (named (D := D) .string (some s)) rest := by
  have hparse := parseString_print (CJsonItem.new (D := D)) hs hname (colon :: rest)
  have hskip : skip (ws ++ name ++ colon :: rest) = name ++ colon :: rest := by
    rw [List.append_assoc, skip_append hws]
    rw [printStringPtr_some] at hname
    cases hname
    exact skip_cons (by decide)
  have hcolon : skip (colon :: rest) = colon :: rest := skip_cons (by decide)
  rw [parseName, hskip, hparse]
  simp only [Parse.ok_bind, hcolon, List.head?_cons, if_true, List.tail_cons]
  rfl

/-- The end of a turn in front of a comma. -/
theorem next_comma {α : Type} {loop : List UInt8 → Parse (List α)} {child : α} {items : List α}
    {text rest : List UInt8} (hloop : loop text = .ok items rest) :
    (if (skip (comma :: text)).head? = some comma then
      (loop (skip (comma :: text)).tail).bind fun items value => Parse.ok (child :: items) value
      else .ok [child] (skip (comma :: text))) = .ok (child :: items) rest := by
  have hskip : skip (comma :: text) = comma :: text := skip_cons (by decide)
  rw [hskip, List.head?_cons, if_pos rfl, List.tail_cons, hloop, Parse.ok_bind]

/-- The end of the last turn, in front of spaces and a closing bracket. -/
theorem next_stop {α : Type} {loop : List UInt8 → Parse (List α)} {child : α} {stop : UInt8}
    {ws rest : List UInt8} (hws : ∀ c ∈ ws, c ≤ 32)
    (hstop : stop = closeBracket ∨ stop = closeBrace) :
    (if (skip (ws ++ stop :: rest)).head? = some comma then
      (loop (skip (ws ++ stop :: rest)).tail).bind fun items value => Parse.ok (child :: items) value
      else .ok [child] (skip (ws ++ stop :: rest))) = .ok [child] (stop :: rest) := by
  have hskip : skip (ws ++ stop :: rest) = stop :: rest := by
    rw [skip_append hws]
    rcases hstop with rfl | rfl <;> exact skip_cons (by decide)
  have hne : (stop :: rest).head? ≠ some comma := by
    rcases hstop with rfl | rfl <;> exact fun h => absurd (Option.some.inj h) (by decide)
  rw [hskip, if_neg hne]

mutual

/-- A printed value is parsed as it was, wherever it stands. -/
theorem parseValue_print (fmt : Bool) : (item : CJsonItem D) → item.Printable →
    ∀ {depth : Nat} {text : List UInt8}, printValue depth fmt item = some text →
    ∀ (rest : List UInt8), NumberEnd rest → ∀ (type : CJsonType) (s : Option (List UInt8)) {n : Nat},
      2 * (text ++ rest).length + 1 ≤ n →
        parseValue n (named type s) (text ++ rest) = .ok (item.reread s) rest
  | ⟨.null, _, _, _, _, _⟩, _, _, _, ht, _, _, _, _, n + 1, _ => by
    cases ht
    exact parseValue_null _
  | ⟨.false, _, _, _, _, _⟩, _, _, _, ht, _, _, _, _, n + 1, _ => by
    cases ht
    exact parseValue_false _
  | ⟨.true, _, _, _, _, _⟩, _, _, _, ht, _, _, _, _, n + 1, _ => by
    cases ht
    exact parseValue_true _
  | ⟨.number, _, valueint, valuedouble, _, _⟩, hp, _, _, ht, _, hrest, _, _, n + 1, _ => by
    have hv : valuedouble = ofInt valueint.toInt := hp
    cases ht
    rw [printNumber_int hv, parseValue_number hrest, CJsonItem.reread, hv]
    rfl
  | ⟨.string, valuestring, _, _, _, _⟩, hp, _, _, ht, _, _, _, _, n + 1, _ => by
    obtain ⟨s, rfl, hs⟩ := hp
    exact parseValue_string hs ht n
  | ⟨.array, _, _, _, _, child⟩, hp, depth, text, ht, rest, _, type, s, n + 1, hn => by
    rw [printValue, Option.map_eq_some_iff] at ht
    obtain ⟨es, hes, rfl⟩ := ht
    have hitems : ItemsPrintable child := hp
    have htext : composeArray fmt es ++ rest =
        openBracket :: (joinItems fmt es ++ closeBracket :: rest) := by
      simp [composeArray]
    rw [htext] at hn ⊢
    rw [List.length_cons] at hn
    rw [parseValue_cons _ (by decide), if_neg (by decide), if_neg (by decide), if_pos rfl, parseArray]
    cases child with
    | nil =>
      cases hes
      rw [joinItems, List.nil_append, parseBlock_empty (skip_cons (by decide))]
      rfl
    | cons c cs =>
      obtain ⟨hskip, hloop⟩ := parseItems_print fmt (c :: cs) hitems (List.cons_ne_nil c cs) hes
        rest (n := n) (by omega)
      rw [parseBlock_loop hskip (by rw [parseItems_congr (skip_skip _), hloop])]
      rfl
  | ⟨.object, _, _, _, _, child⟩, hp, depth, text, ht, rest, _, type, s, n + 1, hn => by
    have hmembers : MembersPrintable child := hp
    cases child with
    | nil =>
      cases ht
      have htext : composeObject depth fmt [] ++ rest =
          openBrace :: (lineEnd fmt ++ indent fmt (depth - 1) ++ closeBrace :: rest) := by
        simp [composeObject, joinMembers]
      have hskip : skip (lineEnd fmt ++ indent fmt (depth - 1) ++ closeBrace :: rest) =
          closeBrace :: rest := by
        rw [List.append_assoc, skip_append (le_of_mem_lineEnd fmt), skip_append (le_of_mem_indent _ _)]
        exact skip_cons (by decide)
      rw [htext, parseValue_cons _ (by decide), if_neg (by decide), if_neg (by decide),
        if_neg (by decide), if_pos rfl, parseObject, parseBlock_empty hskip]
      rfl
    | cons c cs =>
      rw [printValue, List.isEmpty_cons, if_neg Bool.false_ne_true, Option.map_eq_some_iff] at ht
      obtain ⟨ms, hms, rfl⟩ := ht
      have htext : composeObject (depth + 1) fmt ms ++ rest =
          openBrace :: (lineEnd fmt ++ (joinMembers (depth + 1) fmt ms ++
            indent fmt depth ++ closeBrace :: rest)) := by
        simp [composeObject]
      rw [htext] at hn ⊢
      rw [List.length_cons, List.length_append] at hn
      obtain ⟨hskip, hloop⟩ := parseMembers_print fmt (c :: cs) hmembers (List.cons_ne_nil c cs) hms
        (le_of_mem_indent fmt depth) rest (n := n) (by omega)
      have hline := skip_append (le_of_mem_lineEnd fmt) (joinMembers (depth + 1) fmt ms ++
        indent fmt depth ++ closeBrace :: rest)
      rw [parseValue_cons _ (by decide), if_neg (by decide), if_neg (by decide), if_neg (by decide),
        if_pos rfl, parseObject, parseBlock_loop (by rwa [hline])
          (by rw [parseMembers_congr (skip_skip _), parseMembers_congr hline, hloop])]
      rfl

/-- The items of a printed array, up to its bracket. -/
theorem parseItems_print (fmt : Bool) : (cs : List (CJsonItem D)) → ItemsPrintable cs → cs ≠ [] →
    ∀ {depth : Nat} {es : List (List UInt8)}, printItems depth fmt cs = some es →
    ∀ (rest : List UInt8) {n : Nat},
      2 * (joinItems fmt es ++ closeBracket :: rest).length + 2 ≤ n →
        (skip (joinItems fmt es ++ closeBracket :: rest)).head? ≠ some closeBracket ∧
        parseItems n (joinItems fmt es ++ closeBracket :: rest) =
          .ok (rereadItems cs) (closeBracket :: rest)
  | [], _, hne, _, _, _, _, _, _ => absurd rfl hne
  | c :: cs, hp, _, depth, es, hes, rest, n + 1, hn => by
    obtain ⟨e, es', rfl, he, hes'⟩ := printItems_cons hes
    have hc : c.Printable := hp.1
    have hcs : ItemsPrintable cs := hp.2
    have hhead := head_print hc he
    have hpos := length_print hc he
    cases cs with
    | nil =>
      cases hes'
      have htext : joinItems fmt [e] ++ closeBracket :: rest = e ++ closeBracket :: rest := rfl
      rw [htext] at hn ⊢
      have hvalue := parseValue_print fmt c hc he (closeBracket :: rest)
        (numberEnd_cons (.inr (.inl rfl)) rest) .false none (n := n) (by omega)
      refine ⟨hhead _, ?_⟩
      rw [parseItems, skip_print hc he]
      show (parseValue n (named .false none) _).bind _ = _
      rw [hvalue, Parse.ok_bind]
      exact next_stop (List.forall_mem_nil (· ≤ 32)) (.inl rfl)
    | cons c₂ cs =>
      obtain ⟨e₂, es₂, rfl, -, -⟩ := printItems_cons hes'
      have htext : joinItems fmt (e :: e₂ :: es₂) ++ closeBracket :: rest =
          e ++ comma :: ((if fmt then [space] else []) ++
            (joinItems fmt (e₂ :: es₂) ++ closeBracket :: rest)) := by
        simp [joinItems, itemSep]
      have hspace : ∀ v ∈ if fmt then [space] else [], v ≤ 32 := by
        cases fmt <;> exact forall_mem rfl
      rw [htext] at hn ⊢
      have hn' := hn
      rw [List.length_append, List.length_cons, List.length_append] at hn'
      have hvalue := parseValue_print fmt c hc he _ (numberEnd_cons (.inl rfl)
        ((if fmt then [space] else []) ++ (joinItems fmt (e₂ :: es₂) ++ closeBracket :: rest)))
        .false none (n := n) (by omega)
      obtain ⟨-, hloop⟩ := parseItems_print fmt (c₂ :: cs) hcs (List.cons_ne_nil c₂ cs) hes'
        rest (n := n) (by omega)
      refine ⟨hhead _, ?_⟩
      rw [parseItems, skip_print hc he]
      show (parseValue n (named .false none) _).bind _ = _
      rw [hvalue, Parse.ok_bind]
      exact next_comma (by rw [parseItems_congr (skip_append hspace _), hloop])

/-- The members of a printed object, up to its bracket. -/
theorem parseMembers_print (fmt : Bool) : (cs : List (CJsonItem D)) → MembersPrintable cs → cs ≠ [] →
    ∀ {depth : Nat} {ms : List (List UInt8 × List UInt8)}, printMembers depth fmt cs = some ms →
    ∀ {ws : List UInt8}, (∀ c ∈ ws, c ≤ 32) → ∀ (rest : List UInt8) {n : Nat},
      2 * (joinMembers depth fmt ms ++ ws ++ closeBrace :: rest).length + 2 ≤ n →
        (skip (joinMembers depth fmt ms ++ ws ++ closeBrace :: rest)).head? ≠ some closeBrace ∧
        parseMembers n (joinMembers depth fmt ms ++ ws ++ closeBrace :: rest) =
          .ok (rereadMembers cs) (closeBrace :: rest)
  | [], _, hne, _, _, _, _, _, _, _, _ => absurd rfl hne
  | c :: cs, hp, _, depth, ms, hms, ws, hws, rest, n + 1, hn => by
    obtain ⟨name, e, ms', rfl, hname, he, hms'⟩ := printMembers_cons hms
    obtain ⟨⟨s, hs, hs0⟩, hc, hcs⟩ := hp
    rw [hs] at hname
    have hpos := length_print hc he
    have hskip : ∀ tail, skip (indent fmt 1 ++ (e ++ tail)) = e ++ tail := fun tail => by
      rw [skip_append (le_of_mem_indent _ _), skip_print hc he]
    have hfirst : ∀ tail, (skip (indent fmt depth ++ name ++ tail)).head? ≠ some closeBrace := by
      intro tail
      rw [List.append_assoc, skip_append (le_of_mem_indent _ _)]
      rw [printStringPtr_some] at hname
      cases hname
      rw [List.cons_append, List.cons_append, skip_cons (by decide), List.head?_cons]
      exact fun h => absurd (Option.some.inj h) (by decide)
    cases cs with
    | nil =>
      cases hms'
      have hsplit : joinMembers depth fmt [(name, e)] ++ ws ++ closeBrace :: rest =
          indent fmt depth ++ name ++ colon :: (indent fmt 1 ++
            (e ++ (lineEnd fmt ++ ws ++ closeBrace :: rest))) := by
        simp [joinMembers]
      have hspace : ∀ v ∈ lineEnd fmt ++ ws, v ≤ 32 :=
        List.forall_mem_append.mpr ⟨le_of_mem_lineEnd fmt, hws⟩
      rw [hsplit] at hn ⊢
      have hn' := hn
      simp only [List.length_append, List.length_cons] at hn'
      have hvalue := parseValue_print fmt c hc he _
        (numberEnd_append hspace (.inr (.inr rfl)) rest) .string (some s) (n := n)
        (by simp only [List.length_append, List.length_cons]; omega)
      refine ⟨hfirst _, ?_⟩
      rw [parseMembers, parseName_print hs0 hname (le_of_mem_indent _ _), Parse.ok_bind, hskip, hvalue,
        Parse.ok_bind, rereadMembers, rereadMembers, hs]
      exact next_stop hspace (.inr rfl)
    | cons c₂ cs =>
      obtain ⟨name₂, e₂, ms₂, rfl, -, -, -⟩ := printMembers_cons hms'
      have hsplit : joinMembers depth fmt ((name, e) :: (name₂, e₂) :: ms₂) ++ ws ++
          closeBrace :: rest = indent fmt depth ++ name ++ colon :: (indent fmt 1 ++
            (e ++ comma :: (lineEnd fmt ++ (joinMembers depth fmt ((name₂, e₂) :: ms₂) ++ ws ++
              closeBrace :: rest)))) := by
        rw [joinMembers]
        simp only [List.append_assoc, List.cons_append, reduceCtorEq, if_false, List.nil_append]
      rw [hsplit] at hn ⊢
      have hn' := hn
      simp only [List.length_append, List.length_cons] at hn'
      have hvalue := parseValue_print fmt c hc he _ (numberEnd_cons (.inl rfl) (lineEnd fmt ++
        (joinMembers depth fmt ((name₂, e₂) :: ms₂) ++ ws ++ closeBrace :: rest)))
        .string (some s) (n := n) (by simp only [List.length_append, List.length_cons]; omega)
      obtain ⟨-, hloop⟩ := parseMembers_print fmt (c₂ :: cs) hcs (List.cons_ne_nil c₂ cs) hms' hws
        rest (n := n) (by simp only [List.length_append, List.length_cons]; omega)
      refine ⟨hfirst _, ?_⟩
      rw [parseMembers, parseName_print hs0 hname (le_of_mem_indent _ _), Parse.ok_bind, hskip, hvalue,
        Parse.ok_bind, rereadMembers, hs]
      exact next_comma (by rw [parseMembers_congr (skip_append (le_of_mem_lineEnd fmt) _), hloop])

end

/-- **Every printable tree comes back.** In both formats it is printed; the text is parsed to its end,
and the tree that comes back is printed in the same way. -/
theorem cJsonParse_print {item : CJsonItem D} (hp : item.Printable) (fmt : Bool) :
    ∃ text item', printValue 0 fmt item = some text ∧ cJsonParse text = .ok item' [] ∧
      item' = item.reread none ∧
      ∀ depth fmt, printValue depth fmt item' = printValue depth fmt item := by
  obtain ⟨text, ht⟩ := exists_printValue 0 fmt item hp
  refine ⟨text, _, ht, ?_, rfl, fun depth fmt => printValue_reread depth fmt none item⟩
  have hskip := skip_print hp ht []
  have hparse := parseValue_print fmt item hp ht [] (fun c hc => absurd hc (by simp))
    .false none (n := 2 * text.length + 1) (by simp)
  rw [List.append_nil] at hskip hparse
  rw [cJsonParse, hskip]
  exact hparse

end RoundTrip

/-- An array of -5 and a string with an escape. -/
theorem cJsonParse_print_array :
    let number : CJsonItem Int := ⟨.number, none, -5, -5, none, []⟩
    let string : CJsonItem Int := ⟨.string, some [0x61, 0x0A], 0, 0, none, []⟩
    let array : CJsonItem Int := ⟨.array, none, 0, 0, none, [number, string]⟩
    ∃ text item', printValue 0 true array = some text ∧ cJsonParse text = .ok item' [] ∧
      item' = array.reread none ∧
      ∀ depth fmt, printValue depth fmt item' = printValue depth fmt array := by
  intro number string array
  have hp : array.Printable := ⟨rfl, ⟨[0x61, 0x0A], rfl, forall_mem rfl⟩, trivial⟩
  exact cJsonParse_print hp true

end AtkOnenet
