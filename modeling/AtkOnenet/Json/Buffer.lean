import AtkOnenet.Json.RoundTrip

/-!
# Printing into a buffer (`packages/cJSON-v1.0.2/cJSON.c`)

With a `printbuffer` the printer writes the whole text into one piece of memory, which `ensure`
replaces by a larger one when it is full. `none`: a null pointer, or a byte outside of the memory.

* `printBuffered_print`: an item is written behind the text that is there.
* `cJsonPrintBuffered_eq`: from every size of the buffer on, the text is that of the other printer,
  and no byte is written outside of the memory.
-/

namespace AtkOnenet

open DoubleArith Word

/-- `printbuffer`. The length of the memory is its `length`. -/
structure PrintBuffer where
  mem : List UInt8
  offset : Nat

/-- `pow2gt`: a power of two that is not smaller. -/
def pow2gt (x : Nat) : Nat :=
  let x := x - 1
  let x := x ||| x >>> 1
  let x := x ||| x >>> 2
  let x := x ||| x >>> 4
  let x := x ||| x >>> 8
  let x := x ||| x >>> 16
  x + 1

/-- A C string in memory. -/
def cStringAt (mem : List UInt8) (pos : Nat) : Option (List UInt8) :=
  if 0 ∈ mem.drop pos then some ((mem.drop pos).takeWhile (· ≠ 0)) else none

namespace PrintBuffer

variable (fresh : Nat → Nat → UInt8)

/-- `ensure`. `fresh` is the content of new memory, by its size. -/
def ensure (needed : Nat) (p : PrintBuffer) : Option PrintBuffer :=
  if p.mem = [] then none
  else if p.offset + needed ≤ p.mem.length then some p
  else
    let newsize := pow2gt (needed + p.offset)
    some { p with mem := p.mem ++ (List.range (newsize - p.mem.length)).map (fresh newsize) }

/-- The bytes are written at the offset. -/
def put (bytes : List UInt8) (p : PrintBuffer) : Option PrintBuffer :=
  if p.offset + bytes.length ≤ p.mem.length then
    some { p with mem := p.mem.take p.offset ++ bytes ++ p.mem.drop (p.offset + bytes.length) }
  else none

/-- `update`, stored into the offset. -/
def update (p : PrintBuffer) : Option PrintBuffer :=
  (cStringAt p.mem p.offset).map fun s => { p with offset := p.offset + s.length }

/-- `needed` bytes are ensured, and the text is written with its NUL. The offset stays in front. -/
def putString (needed : Nat) (text : List UInt8) (p : PrintBuffer) : Option PrintBuffer :=
  (p.ensure fresh needed).bind (put (text ++ [0]))

/-- The same, with the offset behind the text. -/
def appendString (needed : Nat) (text : List UInt8) (p : PrintBuffer) : Option PrintBuffer :=
  (p.putString fresh needed text).map fun p => { p with offset := p.offset + text.length }

/-- The same without a NUL. -/
def append (needed : Nat) (text : List UInt8) (p : PrintBuffer) : Option PrintBuffer :=
  ((p.ensure fresh needed).bind (put text)).map fun p => { p with offset := p.offset + text.length }

end PrintBuffer

section Print

variable {D : Type} [DoubleArith D] (fresh : Nat → Nat → UInt8)

/-- `print_number` with a buffer. -/
def printNumberBuffered (item : CJsonItem D) (p : PrintBuffer) : Option PrintBuffer :=
  let d := item.valuedouble
  if isZero d then p.putString fresh 2 [zero]
  else if isInt item.valueint d then p.putString fresh 21 (decimal item.valueint.toInt)
  else p.putString fresh 64 (text d)

/-- `print_string_ptr` with a buffer. -/
def printStringBuffered (str : Option (List UInt8)) (p : PrintBuffer) : Option PrintBuffer :=
  str.bind fun s => (printStringPtr (some s)).bind fun text => p.putString fresh (printLen s + 3) text

/-- The separator behind an item of an array that is not the last one. -/
def appendSep (fmt last : Bool) (p : PrintBuffer) : Option PrintBuffer :=
  if last then some p else p.appendString fresh ((if fmt then 2 else 1) + 1) (itemSep fmt)

/-- The tabs in front of a member. -/
def appendIndent (fmt : Bool) (depth : Nat) (p : PrintBuffer) : Option PrintBuffer :=
  if fmt then p.append fresh depth (indent fmt depth) else some p

mutual

/-- `print_value` with a buffer. -/
def printBuffered (depth : Nat) (fmt : Bool) : CJsonItem D → PrintBuffer → Option PrintBuffer
  | ⟨type, valuestring, valueint, valuedouble, string, child⟩, p =>
    match type with
    | .null => p.putString fresh 5 nullText
    | .false => p.putString fresh 6 falseText
    | .true => p.putString fresh 5 trueText
    | .number =>
      printNumberBuffered fresh ⟨type, valuestring, valueint, valuedouble, string, child⟩ p
    | .string => printStringBuffered fresh valuestring p
    | .array =>
      if child.isEmpty then p.putString fresh 3 [openBracket, closeBracket]
      else do
        let p ← p.append fresh 1 [openBracket]
        let p ← printItemsBuffered (depth + 1) fmt child p
        p.putString fresh 2 [closeBracket]
    | .object =>
      if child.isEmpty then
        p.putString fresh (if fmt then depth + 4 else 3)
          (openBrace :: lineEnd fmt ++ indent fmt (depth - 1) ++ [closeBrace])
      else do
        let p ← p.appendString fresh ((if fmt then 2 else 1) + 1) (openBrace :: lineEnd fmt)
        let p ← printMembersBuffered (depth + 1) fmt child p
        p.putString fresh (if fmt then depth + 2 else 2) (indent fmt depth ++ [closeBrace])

/-- The loop of `print_array` with a buffer. -/
def printItemsBuffered (depth : Nat) (fmt : Bool) :
    List (CJsonItem D) → PrintBuffer → Option PrintBuffer
  | [], p => some p
  | c :: cs, p => do
    let p ← printBuffered depth fmt c p
    let p ← p.update
    let p ← appendSep fresh fmt cs.isEmpty p
    printItemsBuffered depth fmt cs p

/-- The loop of `print_object` with a buffer. -/
def printMembersBuffered (depth : Nat) (fmt : Bool) :
    List (CJsonItem D) → PrintBuffer → Option PrintBuffer
  | [], p => some p
  | c :: cs, p => do
    let p ← appendIndent fresh fmt depth p
    let p ← printStringBuffered fresh c.string p
    let p ← p.update
    let p ← p.append fresh (if fmt then 2 else 1) (colon :: indent fmt 1)
    let p ← printBuffered depth fmt c p
    let p ← p.update
    let p ← p.appendString fresh ((if fmt then 1 else 0) + (if cs.isEmpty then 0 else 1) + 1)
      ((if cs.isEmpty then [] else [comma]) ++ lineEnd fmt)
    printMembersBuffered depth fmt cs p

end

/-- `cJSON_PrintBuffered`. Without a byte of memory there is no buffer. -/
def cJsonPrintBuffered (item : CJsonItem D) (prebuffer : Nat) (fmt : Bool) : Option (List UInt8) :=
  (printBuffered fresh 0 fmt item ⟨(List.range prebuffer).map (fresh prebuffer), 0⟩).bind
    fun p => cStringAt p.mem 0

end Print

/-! ## Texts in a buffer -/

/-- The text `t` is in the memory, and the offset is behind it. -/
def PrintBuffer.Holds (p : PrintBuffer) (t : List UInt8) : Prop :=
  p.mem ≠ [] ∧ p.offset = t.length ∧ t <+: p.mem

/-- The string `t ++ text` is in the memory with its NUL, and the offset is in `text`. -/
def PrintBuffer.Ends (p : PrintBuffer) (t text : List UInt8) : Prop :=
  t.length ≤ p.offset ∧ p.offset ≤ (t ++ text).length ∧ t ++ text ++ [0] <+: p.mem

section Buffer

variable (fresh : Nat → Nat → UInt8) {p : PrintBuffer} {t text : List UInt8}

theorem le_pow2gt (x : Nat) : x ≤ pow2gt x := by
  have h : x - 1 ≤ pow2gt x - 1 :=
    Nat.left_le_or.trans (Nat.left_le_or.trans (Nat.left_le_or.trans (Nat.left_le_or.trans
      Nat.left_le_or)))
  have hpos : 0 < pow2gt x := Nat.succ_pos _
  omega

theorem ensure_spec (h : p.Holds t) (needed : Nat) :
    ∃ p', p.ensure fresh needed = some p' ∧ p'.Holds t ∧ t.length + needed ≤ p'.mem.length := by
  obtain ⟨hne, hoff, hpre⟩ := h
  rw [PrintBuffer.ensure, if_neg hne]
  split_ifs with hfit
  · exact ⟨p, rfl, ⟨hne, hoff, hpre⟩, by omega⟩
  · have hsize := le_pow2gt (needed + p.offset)
    refine ⟨_, rfl, ⟨fun hnil => hne (List.append_eq_nil_iff.mp hnil).1, hoff,
      hpre.trans (List.prefix_append _ _)⟩, ?_⟩
    simp only [List.length_append, List.length_map, List.length_range]
    omega

theorem put_spec (h : p.Holds t) (text : List UInt8)
    (hfit : t.length + text.length ≤ p.mem.length) :
    ∃ p', p.put text = some p' ∧ p'.offset = t.length ∧ p'.mem.length = p.mem.length ∧
      t ++ text <+: p'.mem := by
  obtain ⟨-, hoff, rest, hmem⟩ := h
  refine ⟨_, if_pos (by omega), hoff, ?_, ?_⟩
  · simp only [List.length_append, List.length_take, List.length_drop]
    omega
  · rw [hoff, ← hmem, List.take_left]
    exact List.prefix_append _ _

theorem putString_spec (h : p.Holds t) {needed : Nat} {text : List UInt8}
    (hn : text.length + 1 ≤ needed) :
    ∃ p', p.putString fresh needed text = some p' ∧ p'.Ends t text ∧ p'.offset = t.length := by
  obtain ⟨p₁, hensure, h₁, hroom⟩ := ensure_spec fresh h needed
  obtain ⟨p₂, hput, hoff, -, hpre⟩ := put_spec h₁ (text ++ [0])
    (by rw [List.length_append, List.length_singleton]; omega)
  refine ⟨p₂, by rw [PrintBuffer.putString, hensure, Option.bind_some, hput], ?_, hoff⟩
  rw [← List.append_assoc] at hpre
  exact ⟨Nat.le_of_eq hoff.symm, by rw [hoff, List.length_append]; omega, hpre⟩

theorem appendString_spec (h : p.Holds t) {needed : Nat} {text : List UInt8}
    (hn : text.length + 1 ≤ needed) :
    ∃ p', p.appendString fresh needed text = some p' ∧ p'.Holds (t ++ text) := by
  obtain ⟨p₁, hput, hends, hoff⟩ := putString_spec fresh h hn
  refine ⟨{ p₁ with offset := p₁.offset + text.length },
    by rw [PrintBuffer.appendString, hput, Option.map_some], ?_, ?_, ?_⟩
  · exact List.ne_nil_of_length_pos (Nat.lt_of_lt_of_le (by simp) hends.2.2.length_le)
  · rw [hoff, List.length_append]
  · exact (List.prefix_append _ _).trans hends.2.2

theorem append_spec (h : p.Holds t) {needed : Nat} {text : List UInt8}
    (hn : text.length ≤ needed) :
    ∃ p', p.append fresh needed text = some p' ∧ p'.Holds (t ++ text) := by
  obtain ⟨p₁, hensure, h₁, hroom⟩ := ensure_spec fresh h needed
  obtain ⟨p₂, hput, hoff, hlen, hpre⟩ := put_spec h₁ text (by omega)
  refine ⟨{ p₂ with offset := p₂.offset + text.length },
    by rw [PrintBuffer.append, hensure, Option.bind_some, hput, Option.map_some], ?_, ?_, hpre⟩
  · exact List.ne_nil_of_length_pos (hlen ▸ List.length_pos_iff.mpr h₁.1)
  · rw [hoff, List.length_append]

/-- A string in memory is read up to its NUL. -/
theorem cStringAt_eq {mem s rest : List UInt8} {pos : Nat} (hmem : mem.drop pos = s ++ 0 :: rest)
    (h0 : ∀ c ∈ s, c ≠ 0) : cStringAt mem pos = some s := by
  rw [cStringAt, hmem, if_pos (List.mem_append_right s List.mem_cons_self),
    List.takeWhile_append_of_pos (fun c hc => decide_eq_true (h0 c hc)),
    List.takeWhile_cons_of_neg (by decide), List.append_nil]

/-- `update` finds the end of the string. -/
theorem update_spec (h : p.Ends t text) (h0 : ∀ c ∈ text, c ≠ 0) :
    ∃ p', p.update = some p' ∧ p'.Holds (t ++ text) := by
  obtain ⟨hlo, hhi, rest, hmem⟩ := h
  rw [List.length_append] at hhi
  obtain ⟨k, hk⟩ := Nat.exists_eq_add_of_le hlo
  have hdrop : p.mem.drop p.offset = text.drop k ++ 0 :: rest := by
    rw [← hmem, hk, ← List.drop_drop, List.append_assoc, List.append_assoc, List.drop_left,
      List.drop_append_of_le_length (by omega)]
    rfl
  have hread := cStringAt_eq hdrop fun c hc => h0 c (List.mem_of_mem_drop hc)
  refine ⟨{ p with offset := p.offset + (text.drop k).length },
    by rw [PrintBuffer.update, hread, Option.map_some], ?_, ?_, ?_⟩
  · rw [← hmem]
    simp
  · show p.offset + (text.drop k).length = _
    rw [List.length_drop, List.length_append]
    omega
  · rw [← hmem, List.append_assoc (t ++ text)]
    exact List.prefix_append _ _

/-- What is written in two steps. -/
theorem PrintBuffer.Ends.join {text' : List UInt8} (h : p.Ends (t ++ text) text') :
    p.Ends t (text ++ text') := by
  obtain ⟨hlo, hhi, hpre⟩ := h
  rw [List.length_append] at hlo
  rw [List.append_assoc t] at hhi hpre
  exact ⟨by omega, hhi, hpre⟩

end Buffer

/-! ## No NUL in a text -/

theorem decimal_length_le {v : Int} {k : Nat} (hk : 0 < k) (hv : v.natAbs < 10 ^ k) :
    (decimal v).length ≤ k + 1 := by
  have hnat : (decimalNat v.natAbs).length ≤ k := by
    rw [decimalNat]
    split_ifs
    · exact hk
    · rw [List.length_map, List.length_reverse]
      exact (Nat.digits_length_le_iff (by decide) _).mpr hv
  rw [decimal]
  split_ifs
  · exact Nat.succ_le_succ hnat
  · omega

section NoNul

variable {D : Type} [DoubleArith D]

/-- The text of the number fits into the memory that `print_number` asks for, with no NUL in it. -/
def NumberFits (valueint : Int32) (d : D) : Prop :=
  isZero d = true ∨ isInt valueint d = true ∨ (text d).length + 1 ≤ 64 ∧ ∀ c ∈ text d, c ≠ 0

theorem IsInt.fits [ExactInts D] (valueint : Int32) (d : D) (h : IsInt valueint d) :
    NumberFits valueint d :=
  Or.inr (Or.inl (h ▸ ExactInts.isInt_ofInt valueint))

/-- Every number fits, also one with a fraction. -/
theorem numberFits [SprintfLaws D] (valueint : Int32) (d : D) : NumberFits valueint d := by
  refine Or.inr (Or.inr ⟨?_, ?_⟩)
  · rw [text]
    split_ifs with hwhole hfar
    · have := SprintfLaws.fixed0_length d hwhole
      omega
    · have := SprintfLaws.exponent_length d
      omega
    · have := SprintfLaws.fixed6_length d (Bool.eq_false_iff.mpr hfar)
      omega
  · intro c hc
    apply SprintfLaws.ne_zero d c
    rw [text] at hc
    simp only [List.mem_append]
    split_ifs at hc
    · exact Or.inl (Or.inl hc)
    · exact Or.inl (Or.inr hc)
    · exact Or.inr hc

theorem decimal_ne_zero (v : Int) : ∀ c ∈ decimal v, c ≠ 0 := by
  have hdigit : ∀ d < 10, digitChar d ≠ 0 := by decide
  have hnat : ∀ n, ∀ c ∈ decimalNat n, c ≠ 0 := by
    intro n c hc
    rw [decimalNat] at hc
    split_ifs at hc
    · rw [List.mem_singleton.mp hc]
      decide
    · obtain ⟨d, hd, rfl⟩ := List.mem_map.mp hc
      exact hdigit d (Nat.digits_lt_base (by decide) (List.mem_reverse.mp hd))
  rw [decimal]
  split_ifs
  · exact List.forall_mem_cons.mpr ⟨by decide, hnat _⟩
  · exact hnat _

theorem printNumber_ne_zero {item : CJsonItem D}
    (h : NumberFits item.valueint item.valuedouble) : ∀ c ∈ printNumber item, c ≠ 0 := by
  rw [printNumber]
  split_ifs with hzero hint
  · exact forall_mem rfl
  · exact decimal_ne_zero _
  · exact ((h.resolve_left hzero).resolve_left hint).2

/-- A printed string has no NUL in it. -/
theorem printStringPtr_ne_zero {s text : List UInt8} (hs : ∀ c ∈ s, c ≠ 0)
    (ht : printStringPtr (some s) = some text) : ∀ c ∈ text, c ≠ 0 := by
  have hchar : ∀ d : UInt8, d ≠ 0 → ((escapeChar d).all fun c => decide (c ≠ 0)) = true :=
    forall_byte (by decide +kernel)
  rw [printStringPtr_some] at ht
  cases ht
  intro c hc
  simp only [List.mem_append, List.mem_cons, List.mem_flatMap, List.not_mem_nil, or_false] at hc
  rcases hc with (rfl | ⟨d, hd, hc⟩) | rfl
  · decide
  · exact forall_mem (hchar d (hs d hd)) c hc
  · decide

theorem indent_ne_zero (fmt : Bool) (depth : Nat) : ∀ c ∈ indent fmt depth, c ≠ 0 := by
  intro c hc
  cases fmt with
  | false => exact absurd hc List.not_mem_nil
  | true =>
    rw [List.eq_of_mem_replicate hc]
    decide

theorem lineEnd_ne_zero (fmt : Bool) : ∀ c ∈ lineEnd fmt, c ≠ 0 := by
  cases fmt <;> exact forall_mem rfl

theorem joinItems_ne_zero (fmt : Bool) {es : List (List UInt8)} (h : ∀ e ∈ es, ∀ c ∈ e, c ≠ 0) :
    ∀ c ∈ joinItems fmt es, c ≠ 0 := by
  have hsep : ∀ c ∈ itemSep fmt, c ≠ 0 := by cases fmt <;> exact forall_mem rfl
  induction es with
  | nil => exact List.forall_mem_nil _
  | cons e es ih =>
    obtain ⟨he, hes⟩ := List.forall_mem_cons.mp h
    cases es with
    | nil => exact he
    | cons e₂ es =>
      exact List.forall_mem_append.mpr ⟨List.forall_mem_append.mpr ⟨he, hsep⟩, ih hes⟩

theorem joinMembers_ne_zero (depth : Nat) (fmt : Bool) {ms : List (List UInt8 × List UInt8)}
    (h : ∀ m ∈ ms, (∀ c ∈ m.1, c ≠ 0) ∧ ∀ c ∈ m.2, c ≠ 0) :
    ∀ c ∈ joinMembers depth fmt ms, c ≠ 0 := by
  induction ms with
  | nil => exact List.forall_mem_nil _
  | cons m ms ih =>
    obtain ⟨⟨hname, he⟩, hms⟩ := List.forall_mem_cons.mp h
    have hcomma : ∀ c ∈ if ms = [] then [] else [comma], c ≠ 0 := by
      split_ifs <;> exact forall_mem rfl
    simp only [joinMembers, List.forall_mem_append, List.forall_mem_cons]
    exact ⟨⟨⟨⟨⟨⟨indent_ne_zero fmt depth, hname⟩, by decide, indent_ne_zero fmt 1⟩, he⟩, hcomma⟩,
      lineEnd_ne_zero fmt⟩, ih hms⟩

mutual

theorem printValue_ne_zero (fmt : Bool) : (item : CJsonItem D) → item.PrintableWith NumberFits →
    ∀ {depth : Nat} {text : List UInt8}, printValue depth fmt item = some text → ∀ c ∈ text, c ≠ 0
  | ⟨.null, _, _, _, _, _⟩, _, _, _, ht => by
    cases ht
    exact forall_mem rfl
  | ⟨.false, _, _, _, _, _⟩, _, _, _, ht => by
    cases ht
    exact forall_mem rfl
  | ⟨.true, _, _, _, _, _⟩, _, _, _, ht => by
    cases ht
    exact forall_mem rfl
  | ⟨.number, _, valueint, valuedouble, _, _⟩, hp, _, _, ht => by
    have hv : NumberFits valueint valuedouble := hp
    cases ht
    exact printNumber_ne_zero hv
  | ⟨.string, valuestring, _, _, _, _⟩, hp, _, _, ht => by
    obtain ⟨s, rfl, hs⟩ := hp
    exact printStringPtr_ne_zero hs ht
  | ⟨.array, _, _, _, _, child⟩, hp, depth, text, ht => by
    rw [printValue, Option.map_eq_some_iff] at ht
    obtain ⟨es, hes, rfl⟩ := ht
    have hitems := joinItems_ne_zero fmt (printItems_ne_zero fmt child hp hes)
    simp only [composeArray, List.forall_mem_append, List.forall_mem_cons]
    exact ⟨⟨by decide, hitems⟩, by decide, List.forall_mem_nil _⟩
  | ⟨.object, _, _, _, _, child⟩, hp, depth, text, ht => by
    have hcompose : ∀ depth ms, (∀ m ∈ ms, (∀ c ∈ m.1, c ≠ 0) ∧ ∀ c ∈ m.2, c ≠ 0) →
        ∀ c ∈ composeObject depth fmt ms, c ≠ 0 := by
      intro depth ms hms
      simp only [composeObject, List.forall_mem_append, List.forall_mem_cons]
      exact ⟨⟨⟨⟨by decide, lineEnd_ne_zero fmt⟩, joinMembers_ne_zero depth fmt hms⟩,
        indent_ne_zero fmt _⟩, by decide, List.forall_mem_nil _⟩
    rw [printValue] at ht
    split_ifs at ht
    · cases ht
      exact hcompose depth [] (List.forall_mem_nil _)
    · rw [Option.map_eq_some_iff] at ht
      obtain ⟨ms, hms, rfl⟩ := ht
      exact hcompose _ ms (printMembers_ne_zero fmt child hp hms)

theorem printItems_ne_zero (fmt : Bool) :
    (cs : List (CJsonItem D)) → ItemsPrintableWith NumberFits cs →
    ∀ {depth : Nat} {es : List (List UInt8)}, printItems depth fmt cs = some es →
      ∀ e ∈ es, ∀ c ∈ e, c ≠ 0
  | [], _, _, _, hes => by
    cases hes
    exact List.forall_mem_nil _
  | c :: cs, hp, _, _, hes => by
    obtain ⟨e, es', rfl, he, hes'⟩ := printItems_cons hes
    exact List.forall_mem_cons.mpr
      ⟨printValue_ne_zero fmt c hp.1 he, printItems_ne_zero fmt cs hp.2 hes'⟩

theorem printMembers_ne_zero (fmt : Bool) :
    (cs : List (CJsonItem D)) → MembersPrintableWith NumberFits cs →
    ∀ {depth : Nat} {ms : List (List UInt8 × List UInt8)}, printMembers depth fmt cs = some ms →
      ∀ m ∈ ms, (∀ c ∈ m.1, c ≠ 0) ∧ ∀ c ∈ m.2, c ≠ 0
  | [], _, _, _, hms => by
    cases hms
    exact List.forall_mem_nil _
  | c :: cs, hp, _, _, hms => by
    obtain ⟨name, e, ms', rfl, hname, he, hms'⟩ := printMembers_cons hms
    obtain ⟨⟨s, hs, hs0⟩, hc, hcs⟩ := hp
    rw [hs] at hname
    exact List.forall_mem_cons.mpr ⟨⟨printStringPtr_ne_zero hs0 hname, printValue_ne_zero fmt c hc he⟩,
      printMembers_ne_zero fmt cs hcs hms'⟩

end

end NoNul

/-! ## The same text -/

section Print

variable {D : Type} [DoubleArith D] (fresh : Nat → Nat → UInt8)

theorem printStringBuffered_spec {p : PrintBuffer} {t s text : List UInt8} (h : p.Holds t)
    (ht : printStringPtr (some s) = some text) :
    ∃ p', printStringBuffered fresh (some s) p = some p' ∧ p'.Ends t text := by
  have hlen := printStringPtr_length ht
  obtain ⟨p', hput, hends, -⟩ := putString_spec fresh h (show text.length + 1 ≤ printLen s + 3 by omega)
  exact ⟨p', by rw [printStringBuffered, Option.bind_some, ht, Option.bind_some, hput], hends⟩

/-- A number of an `int` fits into 21 bytes. -/
theorem decimal_length (v : Int32) : (decimal v.toInt).length + 1 ≤ 21 := by
  have hlo := v.le_toInt
  have hhi := v.toInt_lt
  have h := decimal_length_le (v := v.toInt) (k := 10) (by decide) (by omega)
  omega

theorem printNumberBuffered_spec {item : CJsonItem D} {p : PrintBuffer} {t : List UInt8}
    (hn : NumberFits item.valueint item.valuedouble) (h : p.Holds t) :
    ∃ p', printNumberBuffered fresh item p = some p' ∧ p'.Ends t (printNumber item) := by
  simp only [printNumberBuffered, printNumber]
  split_ifs with hzero hint
  · obtain ⟨p', hput, hends, -⟩ := putString_spec fresh h (show [zero].length + 1 ≤ 2 by decide)
    exact ⟨p', hput, hends⟩
  · obtain ⟨p', hput, hends, -⟩ := putString_spec fresh h (decimal_length item.valueint)
    exact ⟨p', hput, hends⟩
  · obtain ⟨p', hput, hends, -⟩ := putString_spec fresh h
      ((hn.resolve_left hzero).resolve_left hint).1
    exact ⟨p', hput, hends⟩

mutual

/-- An item is written behind the text that is in the buffer. -/
theorem printBuffered_print (fmt : Bool) : (item : CJsonItem D) → item.PrintableWith NumberFits →
    ∀ {depth : Nat} {text : List UInt8}, printValue depth fmt item = some text →
    ∀ {p : PrintBuffer} {t : List UInt8}, p.Holds t →
      ∃ p', printBuffered fresh depth fmt item p = some p' ∧ p'.Ends t text
  | ⟨.null, _, _, _, _, _⟩, _, _, _, ht, _, _, h => by
    cases ht
    obtain ⟨p', hput, hends, -⟩ := putString_spec fresh h (show nullText.length + 1 ≤ 5 by decide)
    exact ⟨p', hput, hends⟩
  | ⟨.false, _, _, _, _, _⟩, _, _, _, ht, _, _, h => by
    cases ht
    obtain ⟨p', hput, hends, -⟩ := putString_spec fresh h (show falseText.length + 1 ≤ 6 by decide)
    exact ⟨p', hput, hends⟩
  | ⟨.true, _, _, _, _, _⟩, _, _, _, ht, _, _, h => by
    cases ht
    obtain ⟨p', hput, hends, -⟩ := putString_spec fresh h (show trueText.length + 1 ≤ 5 by decide)
    exact ⟨p', hput, hends⟩
  | ⟨.number, _, valueint, valuedouble, _, _⟩, hp, _, _, ht, _, _, h => by
    have hv : NumberFits valueint valuedouble := hp
    cases ht
    exact printNumberBuffered_spec fresh hv h
  | ⟨.string, valuestring, _, _, _, _⟩, hp, _, _, ht, _, _, h => by
    obtain ⟨s, rfl, -⟩ := hp
    exact printStringBuffered_spec fresh h ht
  | ⟨.array, _, _, _, _, child⟩, hp, depth, text, ht, p, t, h => by
    rw [printValue, Option.map_eq_some_iff] at ht
    obtain ⟨es, hes, rfl⟩ := ht
    rw [printBuffered]
    split_ifs with hchild
    · obtain rfl := List.isEmpty_iff.mp hchild
      cases hes
      obtain ⟨p', hput, hends, -⟩ := putString_spec fresh h
        (show [openBracket, closeBracket].length + 1 ≤ 3 by decide)
      exact ⟨p', hput, hends⟩
    · obtain ⟨p₁, hopen, h₁⟩ := append_spec fresh h (show [openBracket].length ≤ 1 by decide)
      obtain ⟨p₂, hitems, h₂⟩ := printItemsBuffered_print fmt child hp hes h₁
      obtain ⟨p₃, hclose, hends, -⟩ := putString_spec fresh h₂
        (show [closeBracket].length + 1 ≤ 2 by decide)
      refine ⟨p₃, ?_, ?_⟩
      · simp only [hopen, hitems, hclose, Option.bind_eq_bind, Option.bind_some]
      · exact hends.join.join
  | ⟨.object, _, _, _, _, child⟩, hp, depth, text, ht, p, t, h => by
    rw [printValue] at ht
    rw [printBuffered]
    by_cases hchild : child.isEmpty
    · rw [if_pos hchild] at ht ⊢
      cases ht
      have hlen : (openBrace :: lineEnd fmt ++ indent fmt (depth - 1) ++ [closeBrace]).length + 1 ≤
          if fmt then depth + 4 else 3 := by
        cases fmt <;> simp [lineEnd, indent]
      obtain ⟨p', hput, hends, -⟩ := putString_spec fresh h hlen
      have htext : composeObject depth fmt [] =
          openBrace :: lineEnd fmt ++ indent fmt (depth - 1) ++ [closeBrace] := by
        simp [composeObject, joinMembers]
      exact ⟨p', hput, htext ▸ hends⟩
    · rw [if_neg hchild] at ht ⊢
      rw [Option.map_eq_some_iff] at ht
      obtain ⟨ms, hms, rfl⟩ := ht
      have hopen : (openBrace :: lineEnd fmt).length + 1 ≤ (if fmt then 2 else 1) + 1 := by
        cases fmt <;> decide
      have hclose : (indent fmt depth ++ [closeBrace]).length + 1 ≤
          if fmt then depth + 2 else 2 := by
        cases fmt <;> simp [indent]
      obtain ⟨p₁, hfirst, h₁⟩ := appendString_spec fresh h hopen
      obtain ⟨p₂, hmembers, h₂⟩ := printMembersBuffered_print fmt child hp hms h₁
      obtain ⟨p₃, hlast, hends, -⟩ := putString_spec fresh h₂ hclose
      refine ⟨p₃, ?_, ?_⟩
      · simp only [hfirst, hmembers, hlast, Option.bind_eq_bind, Option.bind_some]
      · have htext : composeObject (depth + 1) fmt ms = openBrace :: lineEnd fmt ++
            (joinMembers (depth + 1) fmt ms ++ (indent fmt depth ++ [closeBrace])) := by
          simp [composeObject]
        exact htext ▸ hends.join.join

/-- The items of an array, with their separators. -/
theorem printItemsBuffered_print (fmt : Bool) :
    (cs : List (CJsonItem D)) → ItemsPrintableWith NumberFits cs →
    ∀ {depth : Nat} {es : List (List UInt8)}, printItems depth fmt cs = some es →
    ∀ {p : PrintBuffer} {t : List UInt8}, p.Holds t →
      ∃ p', printItemsBuffered fresh depth fmt cs p = some p' ∧ p'.Holds (t ++ joinItems fmt es)
  | [], _, _, _, hes, p, t, h => by
    cases hes
    exact ⟨p, rfl, by rwa [joinItems, List.append_nil]⟩
  | c :: cs, hp, depth, es, hes, p, t, h => by
    obtain ⟨e, es', rfl, he, hes'⟩ := printItems_cons hes
    have hc : c.PrintableWith NumberFits := hp.1
    have hcs : ItemsPrintableWith NumberFits cs := hp.2
    obtain ⟨p₁, hvalue, hends⟩ := printBuffered_print fmt c hc he h
    obtain ⟨p₂, hupdate, h₂⟩ := update_spec hends (printValue_ne_zero fmt c hc he)
    have hlen : (itemSep fmt).length + 1 ≤ (if fmt then 2 else 1) + 1 := by cases fmt <;> decide
    have hstep : ∃ p₃, appendSep fresh fmt cs.isEmpty p₂ = some p₃ ∧
        p₃.Holds (t ++ e ++ if cs.isEmpty then [] else itemSep fmt) := by
      rw [appendSep]
      by_cases hlast : cs.isEmpty
      · rw [if_pos hlast, if_pos hlast, List.append_nil]
        exact ⟨p₂, rfl, h₂⟩
      · rw [if_neg hlast, if_neg hlast]
        exact appendString_spec fresh h₂ hlen
    obtain ⟨p₃, hsep, h₃⟩ := hstep
    obtain ⟨p₄, hrest, h₄⟩ := printItemsBuffered_print fmt cs hcs hes' h₃
    refine ⟨p₄, ?_, ?_⟩
    · simp only [printItemsBuffered, hvalue, hupdate, hsep, hrest, Option.bind_eq_bind,
        Option.bind_some]
    · cases cs with
      | nil =>
        cases hes'
        simpa [joinItems] using h₄
      | cons c₂ cs =>
        obtain ⟨e₂, es₂, rfl, -, -⟩ := printItems_cons hes'
        simpa [joinItems] using h₄

/-- The members of an object. -/
theorem printMembersBuffered_print (fmt : Bool) :
    (cs : List (CJsonItem D)) → MembersPrintableWith NumberFits cs →
    ∀ {depth : Nat} {ms : List (List UInt8 × List UInt8)}, printMembers depth fmt cs = some ms →
    ∀ {p : PrintBuffer} {t : List UInt8}, p.Holds t →
      ∃ p', printMembersBuffered fresh depth fmt cs p = some p' ∧
        p'.Holds (t ++ joinMembers depth fmt ms)
  | [], _, _, _, hms, p, t, h => by
    cases hms
    exact ⟨p, rfl, by rwa [joinMembers, List.append_nil]⟩
  | c :: cs, hp, depth, ms, hms, p, t, h => by
    obtain ⟨name, e, ms', rfl, hname, he, hms'⟩ := printMembers_cons hms
    obtain ⟨⟨s, hs, hs0⟩, hc, hcs⟩ := hp
    rw [hs] at hname
    have hindent : ∃ p₁, appendIndent fresh fmt depth p = some p₁ ∧
        p₁.Holds (t ++ indent fmt depth) := by
      rw [appendIndent]
      split_ifs with hfmt
      · exact append_spec fresh h (by simp [indent, hfmt])
      · exact ⟨p, rfl, by simpa [indent, hfmt] using h⟩
    have hcolon : (colon :: indent fmt 1).length ≤ if fmt then 2 else 1 := by cases fmt <;> decide
    have htail : ((if cs.isEmpty then [] else [comma]) ++ lineEnd fmt).length + 1 ≤
        (if fmt then 1 else 0) + (if cs.isEmpty then 0 else 1) + 1 := by
      cases fmt <;> cases cs <;> simp [lineEnd]
    obtain ⟨p₁, hindent, h₁⟩ := hindent
    obtain ⟨p₂, hstring, hends₂⟩ := printStringBuffered_spec fresh h₁ hname
    obtain ⟨p₃, hupdate₃, h₃⟩ := update_spec hends₂ (printStringPtr_ne_zero hs0 hname)
    obtain ⟨p₄, hcolon, h₄⟩ := append_spec fresh h₃ hcolon
    obtain ⟨p₅, hvalue, hends₅⟩ := printBuffered_print fmt c hc he h₄
    obtain ⟨p₆, hupdate₆, h₆⟩ := update_spec hends₅ (printValue_ne_zero fmt c hc he)
    obtain ⟨p₇, htail, h₇⟩ := appendString_spec fresh h₆ htail
    obtain ⟨p₈, hrest, h₈⟩ := printMembersBuffered_print fmt cs hcs hms' h₇
    refine ⟨p₈, ?_, ?_⟩
    · simp only [printMembersBuffered, hs, hindent, hstring, hupdate₃, hcolon, hvalue, hupdate₆, htail,
        hrest, Option.bind_eq_bind, Option.bind_some]
    · have hempty : (if cs.isEmpty then [] else [comma]) = if ms' = [] then [] else [comma] := by
        cases cs with
        | nil => cases hms'; rfl
        | cons c₂ cs =>
          obtain ⟨_, _, _, rfl, -⟩ := printMembers_cons hms'
          rfl
      rw [hempty] at h₈
      simpa [joinMembers] using h₈

end

/-- **The buffer changes nothing.** From every size of at least one byte on, with any content of new
memory, a tree with any numbers is printed into the buffer as it is without one, and no byte is written
outside of the memory. -/
theorem cJsonPrintBuffered_eq [SprintfLaws D] {item : CJsonItem D} (hstrings : item.AnyNumbers)
    {prebuffer : Nat} (h0 : 0 < prebuffer) (fmt : Bool) :
    ∃ text, printValue 0 fmt item = some text ∧
      cJsonPrintBuffered fresh item prebuffer fmt = some text := by
  have hp := CJsonItem.PrintableWith.imp (fun v d _ => numberFits v d) item hstrings
  obtain ⟨text, ht⟩ := exists_printValue 0 fmt item hp
  have hstart : PrintBuffer.Holds ⟨(List.range prebuffer).map (fresh prebuffer), 0⟩ [] := by
    refine ⟨List.ne_nil_of_length_pos ?_, rfl, List.nil_prefix⟩
    rwa [List.length_map, List.length_range]
  obtain ⟨p', hprint, -, -, rest, hmem⟩ := printBuffered_print fresh fmt item hp ht hstart
  refine ⟨text, ht, ?_⟩
  rw [cJsonPrintBuffered, hprint, Option.bind_some]
  have hdrop : p'.mem.drop 0 = text ++ 0 :: rest := by
    rw [List.drop_zero, ← hmem]
    simp
  exact cStringAt_eq hdrop (printValue_ne_zero fmt item hp ht)

end Print

instance intArith_sprintf : SprintfLaws Int where
  fixed0_length d hd := decimal_length_le (by decide) (of_decide_eq_true hd)
  exponent_length _ := Nat.zero_le _
  fixed6_length _ _ := Nat.zero_le _
  ne_zero d c hc := by
    rw [show DoubleArith.exponent d = [] from rfl, show DoubleArith.fixed6 d = [] from rfl,
      List.append_nil, List.append_nil] at hc
    exact decimal_ne_zero d c hc

/-- An array with the number 5000000000, which is no `int`, from one byte on. -/
theorem cJsonPrintBuffered_eq_large :
    let number : CJsonItem Int := ⟨.number, none, 2147483647, 5000000000, none, []⟩
    let array : CJsonItem Int := ⟨.array, none, 0, 0, none, [number]⟩
    ∃ text, printValue 0 true array = some text ∧
      cJsonPrintBuffered (fun _ _ => 0xAA) array 1 true = some text := by
  intro number array
  have hp : array.AnyNumbers := ⟨trivial, trivial⟩
  exact cJsonPrintBuffered_eq (fun _ _ => 0xAA) hp (by decide) true

end AtkOnenet
