import AtkOnenet.Json.Parse

/-!
# The printer of the JSON package (`packages/cJSON-v1.0.2/cJSON.c`)

`printValue` prints an item into memory of its own. `none`: it reads through a null pointer.

A tree that the printer can print (`Printable`) and the tree that the text is parsed to (`reread`)
are printed in the same way (`printValue_reread`).
-/

namespace AtkOnenet

open DoubleArith

def space : UInt8 := 0x20
def tab : UInt8 := 0x09
def newline : UInt8 := 0x0A

/-- What stands between two items of an array. -/
def itemSep (fmt : Bool) : List UInt8 := comma :: if fmt then [space] else []

/-- The loop of `print_array` over the printed items. -/
def joinItems (fmt : Bool) : List (List UInt8) → List UInt8
  | [] => []
  | [e] => e
  | e :: es => e ++ itemSep fmt ++ joinItems fmt es

/-- `print_array` behind the printing of its items. -/
def composeArray (fmt : Bool) (entries : List (List UInt8)) : List UInt8 :=
  openBracket :: joinItems fmt entries ++ [closeBracket]

/-- The tabs in front of a member, and what stands behind its colon. -/
def indent (fmt : Bool) (depth : Nat) : List UInt8 := if fmt then List.replicate depth tab else []

def lineEnd (fmt : Bool) : List UInt8 := if fmt then [newline] else []

/-- The loop of `print_object` over the printed names and items. -/
def joinMembers (depth : Nat) (fmt : Bool) : List (List UInt8 × List UInt8) → List UInt8
  | [] => []
  | (name, e) :: ms =>
    indent fmt depth ++ name ++ colon :: indent fmt 1 ++ e ++
      (if ms = [] then [] else [comma]) ++ lineEnd fmt ++ joinMembers depth fmt ms

/-- `print_object` behind the printing of its members. `depth` is that of the members. -/
def composeObject (depth : Nat) (fmt : Bool) (members : List (List UInt8 × List UInt8)) :
    List UInt8 :=
  openBrace :: lineEnd fmt ++ joinMembers depth fmt members ++ indent fmt (depth - 1) ++ [closeBrace]

section Print

variable {D : Type} [DoubleArith D]

mutual

/-- `print_value`. An empty object is one level further out. -/
def printValue (depth : Nat) (fmt : Bool) : CJsonItem D → Option (List UInt8)
  | ⟨type, valuestring, valueint, valuedouble, string, child⟩ =>
    match type with
    | .null => some nullText
    | .false => some falseText
    | .true => some trueText
    | .number => some (printNumber ⟨type, valuestring, valueint, valuedouble, string, child⟩)
    | .string => printStringPtr valuestring
    | .array => (printItems (depth + 1) fmt child).map (composeArray fmt)
    | .object =>
      if child.isEmpty then some (composeObject depth fmt [])
      else (printMembers (depth + 1) fmt child).map (composeObject (depth + 1) fmt)

/-- The printed items of an array. -/
def printItems (depth : Nat) (fmt : Bool) : List (CJsonItem D) → Option (List (List UInt8))
  | [] => some []
  | c :: cs => do
    let e ← printValue depth fmt c
    let es ← printItems depth fmt cs
    some (e :: es)

/-- The printed names and items of an object. -/
def printMembers (depth : Nat) (fmt : Bool) :
    List (CJsonItem D) → Option (List (List UInt8 × List UInt8))
  | [] => some []
  | c :: cs => do
    let name ← printStringPtr c.string
    let e ← printValue depth fmt c
    let ms ← printMembers depth fmt cs
    some ((name, e) :: ms)

end

/-- `cJSON_Print` and `cJSON_PrintUnformatted`. -/
def cJsonPrint (item : CJsonItem D) : Option (List UInt8) := printValue 0 true item

def cJsonPrintUnformatted (item : CJsonItem D) : Option (List UInt8) := printValue 0 false item

end Print

/-! ## Trees that come back -/

section Trees

variable {D : Type} [DoubleArith D]

mutual

/-- The tree can be printed, and its numbers have the property `num`. A string has no NUL in it. -/
def CJsonItem.PrintableWith (num : Int32 → D → Prop) : CJsonItem D → Prop
  | ⟨type, valuestring, valueint, valuedouble, _, child⟩ =>
    match type with
    | .null | .false | .true => True
    | .number => num valueint valuedouble
    | .string => ∃ s, valuestring = some s ∧ ∀ c ∈ s, c ≠ 0
    | .array => ItemsPrintableWith num child
    | .object => MembersPrintableWith num child

def ItemsPrintableWith (num : Int32 → D → Prop) : List (CJsonItem D) → Prop
  | [] => True
  | c :: cs => c.PrintableWith num ∧ ItemsPrintableWith num cs

def MembersPrintableWith (num : Int32 → D → Prop) : List (CJsonItem D) → Prop
  | [] => True
  | c :: cs =>
    (∃ s, c.string = some s ∧ ∀ v ∈ s, v ≠ 0) ∧ c.PrintableWith num ∧ MembersPrintableWith num cs

end

/-- The number is an integer. -/
def IsInt (valueint : Int32) (valuedouble : D) : Prop := valuedouble = ofInt valueint.toInt

/-- The tree can be printed, and its numbers are integers. -/
abbrev CJsonItem.Printable (item : CJsonItem D) : Prop := item.PrintableWith IsInt

abbrev ItemsPrintable (cs : List (CJsonItem D)) : Prop := ItemsPrintableWith IsInt cs

abbrev MembersPrintable (cs : List (CJsonItem D)) : Prop := MembersPrintableWith IsInt cs

/-- The tree can be printed, with any numbers. -/
abbrev CJsonItem.AnyNumbers (item : CJsonItem D) : Prop := item.PrintableWith fun _ _ => True

section Imp

omit [DoubleArith D]

variable {num num' : Int32 → D → Prop}

mutual

theorem CJsonItem.PrintableWith.imp (himp : ∀ v d, num v d → num' v d) :
    (item : CJsonItem D) → item.PrintableWith num → item.PrintableWith num'
  | ⟨.null, _, _, _, _, _⟩, _ => trivial
  | ⟨.false, _, _, _, _, _⟩, _ => trivial
  | ⟨.true, _, _, _, _, _⟩, _ => trivial
  | ⟨.number, _, _, _, _, _⟩, h => himp _ _ h
  | ⟨.string, _, _, _, _, _⟩, h => h
  | ⟨.array, _, _, _, _, child⟩, h => ItemsPrintableWith.imp himp child h
  | ⟨.object, _, _, _, _, child⟩, h => MembersPrintableWith.imp himp child h

theorem ItemsPrintableWith.imp (himp : ∀ v d, num v d → num' v d) :
    (cs : List (CJsonItem D)) → ItemsPrintableWith num cs → ItemsPrintableWith num' cs
  | [], _ => trivial
  | c :: cs, h => ⟨CJsonItem.PrintableWith.imp himp c h.1, ItemsPrintableWith.imp himp cs h.2⟩

theorem MembersPrintableWith.imp (himp : ∀ v d, num v d → num' v d) :
    (cs : List (CJsonItem D)) → MembersPrintableWith num cs → MembersPrintableWith num' cs
  | [], _ => trivial
  | c :: cs, h =>
    ⟨h.1, CJsonItem.PrintableWith.imp himp c h.2.1, MembersPrintableWith.imp himp cs h.2.2⟩

end

end Imp

mutual

/-- The item that the printed text is parsed to, with the name `string`. Fields that the printer does
not look at are zero, and the number of `true` is 1. -/
def CJsonItem.reread (string : Option (List UInt8)) : CJsonItem D → CJsonItem D
  | ⟨type, valuestring, valueint, valuedouble, _, child⟩ =>
    match type with
    | .null => { CJsonItem.new with type := .null, string := string }
    | .false => { CJsonItem.new with type := .false, string := string }
    | .true => { CJsonItem.new with type := .true, string := string, valueint := 1 }
    | .number =>
      { CJsonItem.new with type := .number, string := string, valueint := valueint,
                           valuedouble := valuedouble }
    | .string => { CJsonItem.new with type := .string, string := string, valuestring := valuestring }
    | .array => { CJsonItem.new with type := .array, string := string, child := rereadItems child }
    | .object => { CJsonItem.new with type := .object, string := string, child := rereadMembers child }

def rereadItems : List (CJsonItem D) → List (CJsonItem D)
  | [] => []
  | c :: cs => c.reread none :: rereadItems cs

def rereadMembers : List (CJsonItem D) → List (CJsonItem D)
  | [] => []
  | c :: cs => c.reread c.string :: rereadMembers cs

end

@[simp] theorem CJsonItem.reread_string (s : Option (List UInt8)) (item : CJsonItem D) :
    (item.reread s).string = s := by
  obtain ⟨type, _, _, _, _, _⟩ := item
  cases type <;> rfl

mutual

/-- The printer does not see the difference. -/
theorem printValue_reread (depth : Nat) (fmt : Bool) (s : Option (List UInt8)) :
    (item : CJsonItem D) → printValue depth fmt (item.reread s) = printValue depth fmt item
  | ⟨type, valuestring, valueint, valuedouble, string, child⟩ => by
    cases type with
    | null => rfl
    | false => rfl
    | true => rfl
    | number => rfl
    | string => rfl
    | array =>
      rw [CJsonItem.reread, printValue, printValue, printItems_reread]
    | object =>
      rw [CJsonItem.reread, printValue, printValue, printMembers_reread]
      cases child <;> rfl

theorem printItems_reread (depth : Nat) (fmt : Bool) :
    (cs : List (CJsonItem D)) → printItems depth fmt (rereadItems cs) = printItems depth fmt cs
  | [] => rfl
  | c :: cs => by
    rw [rereadItems, printItems, printItems, printValue_reread, printItems_reread]

theorem printMembers_reread (depth : Nat) (fmt : Bool) :
    (cs : List (CJsonItem D)) → printMembers depth fmt (rereadMembers cs) = printMembers depth fmt cs
  | [] => rfl
  | c :: cs => by
    rw [rereadMembers, printMembers, printMembers, printValue_reread, printMembers_reread,
      CJsonItem.reread_string]

end

variable {num : Int32 → D → Prop}

mutual

/-- A printable tree is printed. -/
theorem exists_printValue (depth : Nat) (fmt : Bool) :
    (item : CJsonItem D) → item.PrintableWith num → ∃ text, printValue depth fmt item = some text
  | ⟨type, valuestring, valueint, valuedouble, string, child⟩, h => by
    cases type with
    | null => exact ⟨_, rfl⟩
    | false => exact ⟨_, rfl⟩
    | true => exact ⟨_, rfl⟩
    | number => exact ⟨_, rfl⟩
    | string =>
      obtain ⟨s, rfl, -⟩ := h
      exact ⟨_, rfl⟩
    | array =>
      obtain ⟨es, hes⟩ := exists_printItems (depth + 1) fmt child h
      rw [printValue, hes]
      exact ⟨_, rfl⟩
    | object =>
      obtain ⟨ms, hms⟩ := exists_printMembers (depth + 1) fmt child h
      rw [printValue, hms]
      cases child <;> exact ⟨_, rfl⟩

theorem exists_printItems (depth : Nat) (fmt : Bool) :
    (cs : List (CJsonItem D)) → ItemsPrintableWith num cs → ∃ es, printItems depth fmt cs = some es
  | [], _ => ⟨[], rfl⟩
  | c :: cs, h => by
    obtain ⟨e, he⟩ := exists_printValue depth fmt c h.1
    obtain ⟨es, hes⟩ := exists_printItems depth fmt cs h.2
    exact ⟨e :: es, by rw [printItems, he, hes]; rfl⟩

theorem exists_printMembers (depth : Nat) (fmt : Bool) :
    (cs : List (CJsonItem D)) → MembersPrintableWith num cs → ∃ ms, printMembers depth fmt cs = some ms
  | [], _ => ⟨[], rfl⟩
  | c :: cs, h => by
    obtain ⟨⟨s, hs, -⟩, hc, hcs⟩ := h
    obtain ⟨e, he⟩ := exists_printValue depth fmt c hc
    obtain ⟨ms, hms⟩ := exists_printMembers depth fmt cs hcs
    exact ⟨_, by rw [printMembers, hs, printStringPtr_some, he, hms]; rfl⟩

end

end Trees

end AtkOnenet
