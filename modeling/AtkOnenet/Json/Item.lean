import AtkOnenet.App.Mqtt
import AtkOnenet.Lib.Word

/-!
# Items and texts of the JSON package (`packages/cJSON-v1.0.2/cJSON.h`)

`CJsonItem` is an item with all its fields, `CJsonItem.toCJson` the part of it that the application
reads. A text is the list of the characters in front of the NUL, and a pointer into it is the rest of
the text. Allocations succeed.

The arithmetic of `double` and its formats are an argument (`DoubleArith`); that it is exact on integers
that fit into 53 bits is a law of its own (`ExactInts`), and so is how long the texts are
(`SprintfLaws`).
-/

namespace AtkOnenet

/-- The operations on `double` in `parse_number` and `print_number`. -/
class DoubleArith (D : Type) where
  ofInt : Int → D
  add : D → D → D
  mul : D → D → D
  /-- `pow(10.0, x)`. -/
  pow10 : D → D
  /-- The conversion to `int`. -/
  toInt : D → Int32
  /-- `d == 0`. -/
  isZero : D → Bool
  /-- `fabs((double)i - d) <= DBL_EPSILON && d <= INT_MAX && d >= INT_MIN`. -/
  isInt : Int32 → D → Bool
  /-- `fabs(floor(d)-d) <= DBL_EPSILON && fabs(d) < 1.0e60`. -/
  isWhole : D → Bool
  /-- `fabs(d) < 1.0e-6 || fabs(d) > 1.0e9`. -/
  isFar : D → Bool
  /-- `sprintf` with `%.0f`. -/
  fixed0 : D → List UInt8
  /-- `sprintf` with `%e`. -/
  exponent : D → List UInt8
  /-- `sprintf` with `%f`. -/
  fixed6 : D → List UInt8

open DoubleArith

/-- The text of a number that is no `int`. -/
def DoubleArith.text {D : Type} [DoubleArith D] (d : D) : List UInt8 :=
  if isWhole d then fixed0 d else if isFar d then exponent d else fixed6 d

/-- Integers of up to 53 bits are computed with exactly. -/
class ExactInts (D : Type) [DoubleArith D] : Prop where
  add_ofInt : ∀ a b : Int, (a + b).natAbs ≤ 2 ^ 53 → a.natAbs ≤ 2 ^ 53 → b.natAbs ≤ 2 ^ 53 →
    add (ofInt a) (ofInt b : D) = ofInt (a + b)
  /-- A product that is 0 keeps its sign, so that case is left out for negative factors. -/
  mul_ofInt : ∀ a b : Int, (a * b).natAbs ≤ 2 ^ 53 → a.natAbs ≤ 2 ^ 53 → b.natAbs ≤ 2 ^ 53 →
    0 ≤ a ∧ 0 ≤ b ∨ a * b ≠ 0 → mul (ofInt a) (ofInt b : D) = ofInt (a * b)
  pow10_zero : pow10 (ofInt 0 : D) = ofInt 1
  toInt_ofInt : ∀ v : Int32, toInt (ofInt v.toInt : D) = v
  isZero_ofInt : ∀ v : Int32, isZero (ofInt v.toInt : D) = decide (v.toInt = 0)
  isInt_ofInt : ∀ v : Int32, isInt v (ofInt v.toInt : D) = true

/-- The lengths of the texts of `sprintf`, and that it writes no NUL into them. -/
class SprintfLaws (D : Type) [DoubleArith D] : Prop where
  /-- A sign and 60 digits. -/
  fixed0_length : ∀ d : D, isWhole d = true → (fixed0 d).length ≤ 61
  /-- `-d.dddddde-ddd`. -/
  exponent_length : ∀ d : D, (exponent d).length ≤ 14
  /-- A sign, 10 digits, the point and 6 digits. -/
  fixed6_length : ∀ d : D, isFar d = false → (fixed6 d).length ≤ 18
  ne_zero : ∀ d : D, ∀ c ∈ fixed0 d ++ exponent d ++ fixed6 d, c ≠ 0

/-- `cJSON`. `child` is the chain of the items in an array or an object. -/
structure CJsonItem (D : Type) where
  type : CJsonType
  valuestring : Option (List UInt8)
  valueint : Int32
  valuedouble : D
  string : Option (List UInt8)
  child : List (CJsonItem D)

namespace CJsonItem

variable {D : Type}

/-- `cJSON_New_Item`: an item of zeros. -/
def new [DoubleArith D] : CJsonItem D := ⟨.false, none, 0, DoubleArith.ofInt 0, none, []⟩

/-- What the application reads of an item. -/
def toCJson : CJsonItem D → CJson
  | ⟨type, _, valueint, _, string, child⟩ => .mk type valueint string (toCJsons child)
where
  toCJsons : List (CJsonItem D) → List CJson
    | [] => []
    | c :: cs => toCJson c :: toCJsons cs

@[simp] theorem toCJsons_eq (cs : List (CJsonItem D)) : toCJson.toCJsons cs = cs.map toCJson := by
  induction cs with
  | nil => rfl
  | cons c cs ih => rw [toCJson.toCJsons, ih, List.map_cons]

end CJsonItem

/-- What a parsing function does. -/
inductive Parse (α : Type) where
  /-- It returns the pointer `rest`. -/
  | ok (a : α) (rest : List UInt8)
  /-- It returns a null pointer, with the error pointer `ep`. -/
  | fail (ep : List UInt8)
  /-- It leaves the text or the memory of a string. -/
  | stray

/-- The next step gets the result and the returned pointer. A null pointer ends the parse. -/
def Parse.bind {α β : Type} (p : Parse α) (f : α → List UInt8 → Parse β) : Parse β :=
  match p with
  | ok a rest => f a rest
  | fail ep => fail ep
  | stray => stray

@[simp] theorem Parse.ok_bind {α β : Type} (a : α) (rest : List UInt8)
    (f : α → List UInt8 → Parse β) : (Parse.ok a rest).bind f = f a rest := rfl

end AtkOnenet
