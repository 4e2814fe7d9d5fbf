import AtkOnenet.Json.Item
import Mathlib.Data.Nat.Digits.Lemmas

/-!
# Numbers of the JSON package (`packages/cJSON-v1.0.2/cJSON.c`)

`parseNumber` computes with `double`, `printNumber` prints integers with `%d`.

* `parseNumber_suffix`: a number ends behind its start.
* `parseNumber_print`: a printed integer is parsed as it was.
-/

namespace AtkOnenet

open DoubleArith Word

def minus : UInt8 := 0x2D
def point : UInt8 := 0x2E
def zero : UInt8 := 0x30

/-- `c >= '0' && c <= '9'`. -/
def IsDigit (c : UInt8) : Prop := 0x30 ≤ c ∧ c ≤ 0x39

instance (c : UInt8) : Decidable (IsDigit c) := inferInstanceAs (Decidable (_ ∧ _))

/-- `c - '0'`. -/
def digitValue (c : UInt8) : Int := (c.toNat : Int) - 0x30

section Parse

variable {D : Type} [DoubleArith D]

/-- `n=(n*10.0)+(*num++ -'0')` while digits follow. -/
def parseDigits (n : D) : List UInt8 → D × List UInt8
  | [] => (n, [])
  | c :: num =>
    if IsDigit c then parseDigits (add (mul n (ofInt 10)) (ofInt (digitValue c))) num
    else (n, c :: num)

/-- The same with `scale--`. -/
def parseFraction (n scale : D) : List UInt8 → D × D × List UInt8
  | [] => (n, scale, [])
  | c :: num =>
    if IsDigit c then
      parseFraction (add (mul n (ofInt 10)) (ofInt (digitValue c))) (add scale (ofInt (-1))) num
    else (n, scale, c :: num)

/-- `subscale=(subscale*10)+(*num++ - '0')` while digits follow. -/
def parseSubscale (subscale : Int32) : List UInt8 → Int32 × List UInt8
  | [] => (subscale, [])
  | c :: num =>
    if IsDigit c then parseSubscale (subscale * 10 + Int32.ofInt (digitValue c)) num
    else (subscale, c :: num)

/-- The exponent: `subscale*signsubscale`. -/
def parseExponent : List UInt8 → Int32 × List UInt8
  | [] => (0, [])
  | c :: num =>
    if c = 0x65 ∨ c = 0x45 then
      match num with
      | [] => (0, [])
      | s :: rest =>
        if s = 0x2B then parseSubscale 0 rest
        else if s = minus then
          let (subscale, rest) := parseSubscale 0 rest
          (subscale * -1, rest)
        else parseSubscale 0 num
    else (0, c :: num)

/-- The sign, and a zero in front. -/
def parseSign : List UInt8 → D × List UInt8
  | [] => (ofInt 1, [])
  | c :: num => if c = minus then (ofInt (-1), num) else (ofInt 1, c :: num)

def parseZero : List UInt8 → List UInt8
  | [] => []
  | c :: num => if c = zero then num else c :: num

/-- The digits in front of the point. -/
def parseInteger : List UInt8 → D × List UInt8
  | [] => (ofInt 0, [])
  | c :: num =>
    if 0x31 ≤ c ∧ c ≤ 0x39 then parseDigits (ofInt 0) (c :: num) else (ofInt 0, c :: num)

/-- The point and the digits behind it, if there are any. -/
def parsePoint (n : D) : List UInt8 → D × D × List UInt8
  | p :: c :: num =>
    if p = point ∧ IsDigit c then parseFraction n (ofInt 0) (c :: num)
    else (n, ofInt 0, p :: c :: num)
  | num => (n, ofInt 0, num)

/-- `parse_number`. -/
def parseNumber (item : CJsonItem D) (num : List UInt8) : CJsonItem D × List UInt8 :=
  let (sign, num) := parseSign (D := D) num
  let num := parseZero num
  let (n, num) := parseInteger (D := D) num
  let (n, scale, num) := parsePoint n num
  let (subscale, num) := parseExponent num
  let n := mul (mul sign n) (pow10 (add scale (ofInt subscale.toInt)))
  ({ item with valuedouble := n, valueint := toInt n, type := .number }, num)

end Parse

/-! ## Printing -/

/-- A digit of `%d`. -/
def digitChar (d : Nat) : UInt8 := 0x30 + UInt8.ofNat d

/-- `%d` of a number that is not negative. -/
def decimalNat (n : Nat) : List UInt8 :=
  if n = 0 then [zero] else (Nat.digits 10 n).reverse.map digitChar

/-- `sprintf` with `%d`. -/
def decimal (v : Int) : List UInt8 :=
  if v < 0 then minus :: decimalNat v.natAbs else decimalNat v.natAbs

/-- `print_number`. -/
def printNumber {D : Type} [DoubleArith D] (item : CJsonItem D) : List UInt8 :=
  let d := item.valuedouble
  if isZero d then [zero]
  else if isInt item.valueint d then decimal item.valueint.toInt
  else text d

/-! ## The end of a number -/

section Suffix

variable {D : Type} [DoubleArith D]

theorem parseDigits_suffix (n : D) (num : List UInt8) : (parseDigits n num).2 <:+ num := by
  induction num generalizing n with
  | nil => exact List.suffix_rfl
  | cons c num ih =>
    rw [parseDigits]
    split
    · exact (ih _).trans (List.suffix_cons c num)
    · exact List.suffix_rfl

theorem parseFraction_suffix (n scale : D) (num : List UInt8) :
    (parseFraction n scale num).2.2 <:+ num := by
  induction num generalizing n scale with
  | nil => exact List.suffix_rfl
  | cons c num ih =>
    rw [parseFraction]
    split
    · exact (ih _ _).trans (List.suffix_cons c num)
    · exact List.suffix_rfl

theorem parseSubscale_suffix (subscale : Int32) (num : List UInt8) :
    (parseSubscale subscale num).2 <:+ num := by
  induction num generalizing subscale with
  | nil => exact List.suffix_rfl
  | cons c num ih =>
    rw [parseSubscale]
    split
    · exact (ih _).trans (List.suffix_cons c num)
    · exact List.suffix_rfl

theorem parseExponent_suffix (num : List UInt8) : (parseExponent num).2 <:+ num := by
  unfold parseExponent
  split
  · exact List.suffix_rfl
  next c num =>
    split_ifs
    · split
      · exact List.suffix_cons c []
      next s rest =>
        have hrest : rest <:+ c :: s :: rest := (List.suffix_cons s rest).trans (List.suffix_cons c _)
        split_ifs
        · exact (parseSubscale_suffix 0 rest).trans hrest
        · have hsub := parseSubscale_suffix 0 rest
          cases hr : parseSubscale 0 rest with
          | mk subscale rest' =>
            rw [hr] at hsub
            exact hsub.trans hrest
        · exact (parseSubscale_suffix 0 _).trans (List.suffix_cons c _)
    · exact List.suffix_rfl

theorem parsePoint_suffix (n : D) (num : List UInt8) : (parsePoint n num).2.2 <:+ num := by
  unfold parsePoint
  split
  next p c rest =>
    split_ifs
    · exact (parseFraction_suffix n _ _).trans (List.suffix_cons p _)
    · exact List.suffix_rfl
  · exact List.suffix_rfl

theorem parseInteger_suffix (num : List UInt8) : (parseInteger (D := D) num).2 <:+ num := by
  unfold parseInteger
  split
  · exact List.suffix_rfl
  · split_ifs
    · exact parseDigits_suffix _ _
    · exact List.suffix_rfl

theorem parseZero_suffix (num : List UInt8) : parseZero num <:+ num := by
  unfold parseZero
  split
  · exact List.suffix_rfl
  next c rest =>
    split_ifs
    · exact List.suffix_cons c rest
    · exact List.suffix_rfl

/-- A number ends behind its first character, if this is a sign or a digit. -/
theorem parseNumber_suffix (item : CJsonItem D) (num : List UInt8) {c : UInt8}
    (hc : c = minus ∨ IsDigit c) : (parseNumber item (c :: num)).2 <:+ num := by
  have htail : ∀ num' : List UInt8,
      (parseExponent (parsePoint (parseInteger (D := D) num').1 (parseInteger (D := D) num').2).2.2).2
        <:+ (parseInteger (D := D) num').2 :=
    fun num' => (parseExponent_suffix _).trans (parsePoint_suffix _ _)
  refine (htail (parseZero (parseSign (D := D) (c :: num)).2)).trans ?_
  by_cases hm : c = minus
  · rw [parseSign, if_pos hm]
    exact (parseInteger_suffix _).trans (parseZero_suffix _)
  · have hd := hc.resolve_left hm
    rw [parseSign, if_neg hm, parseZero]
    by_cases hz : c = zero
    · rw [if_pos hz]
      exact parseInteger_suffix _
    · have hpos : 0x31 ≤ c ∧ c ≤ 0x39 := by
        have hall : ∀ c : UInt8, c ≠ zero → IsDigit c → 0x31 ≤ c ∧ c ≤ 0x39 :=
          forall_byte (by decide +kernel)
        exact hall c hz hd
      rw [if_neg hz, parseInteger, if_pos hpos, parseDigits, if_pos hd]
      exact parseDigits_suffix _ _

end Suffix

/-! ## What has been printed -/

section Print

variable {D : Type} [DoubleArith D] [ExactInts D]

/-- The number does not go on. -/
def NumberEnd (rest : List UInt8) : Prop :=
  ∀ c ∈ rest.head?, ¬IsDigit c ∧ c ≠ point ∧ c ≠ 0x65 ∧ c ≠ 0x45

/-- Digits, the most significant one first, behind the number `a`. -/
def ofDigitList (a : Nat) (ds : List Nat) : Nat := ds.foldl (fun a d => a * 10 + d) a

theorem le_ofDigitList (a : Nat) (ds : List Nat) : a ≤ ofDigitList a ds := by
  induction ds generalizing a with
  | nil => exact Nat.le_refl a
  | cons d ds ih => exact Nat.le_trans (by omega) (ih (a * 10 + d))

theorem ofDigitList_digits (n : Nat) : ofDigitList 0 (Nat.digits 10 n).reverse = n := by
  have h := Nat.ofDigits_digits 10 n
  rw [Nat.ofDigits_eq_foldr] at h
  rw [ofDigitList, List.foldl_reverse]
  simp only [Nat.cast_id, Nat.mul_comm 10] at h
  simpa only [Nat.add_comm] using h

/-- Digits are read with their values. -/
theorem parseDigits_print {a : Nat} {ds : List Nat} {rest : List UInt8} (hds : ∀ d ∈ ds, d < 10)
    (hle : ofDigitList a ds ≤ 2 ^ 53) (hrest : NumberEnd rest) :
    parseDigits (ofInt a : D) (ds.map digitChar ++ rest) = (ofInt (ofDigitList a ds : Nat), rest) := by
  have hdigit : ∀ d < 10, IsDigit (digitChar d) ∧ digitValue (digitChar d) = d := by decide
  induction ds generalizing a with
  | nil =>
    cases rest with
    | nil => rfl
    | cons c rest =>
      have hc := (hrest c rfl).1
      exact (if_neg hc)
  | cons d ds ih =>
    obtain ⟨hd, hvalue⟩ := hdigit d (hds d List.mem_cons_self)
    have hnext := le_ofDigitList (a * 10 + d) ds
    have hle' : ofDigitList (a * 10 + d) ds ≤ 2 ^ 53 := hle
    rw [List.map_cons, List.cons_append, parseDigits, if_pos hd, hvalue]
    rw [ExactInts.mul_ofInt _ _ (by omega) (by omega) (by omega) (.inl ⟨by omega, by omega⟩),
      ExactInts.add_ofInt _ _ (by omega) (by omega) (by omega)]
    have hcast : (a : Int) * 10 + (d : Int) = ((a * 10 + d : Nat) : Int) := by push_cast; rfl
    rw [hcast, ih (fun e he => hds e (List.mem_cons_of_mem d he)) hle']
    rfl

omit [ExactInts D] in
theorem parsePoint_end {rest : List UInt8} (n : D) (hrest : NumberEnd rest) :
    parsePoint n rest = (n, ofInt 0, rest) := by
  unfold parsePoint
  split
  next p c num => exact if_neg fun hp => (hrest p rfl).2.1 hp.1
  · rfl

omit [DoubleArith D] [ExactInts D] in
theorem parseExponent_end {rest : List UInt8} (hrest : NumberEnd rest) :
    parseExponent rest = (0, rest) := by
  cases rest with
  | nil => rfl
  | cons c rest =>
    obtain ⟨-, -, he, hE⟩ := hrest c rfl
    exact if_neg fun h => h.elim he hE

/-- The digits of a number that is not negative, the zero among them. -/
theorem parseInteger_decimalNat {n : Nat} {rest : List UInt8} (hn : n ≤ 2 ^ 53)
    (hrest : NumberEnd rest) :
    parseInteger (parseZero (decimalNat n ++ rest)) = ((ofInt n : D), rest) := by
  rw [decimalNat]
  by_cases h0 : n = 0
  · rw [if_pos h0, h0, List.singleton_append, parseZero, if_pos rfl]
    cases rest with
    | nil => rfl
    | cons c rest =>
      have hpos : ¬(0x31 ≤ c ∧ c ≤ 0x39) := fun h =>
        (hrest c rfl).1 ⟨UInt8.le_trans (by decide) h.1, h.2⟩
      exact if_neg hpos
  · rw [if_neg h0]
    obtain ⟨d, ds, hds⟩ : ∃ d ds, (Nat.digits 10 n).reverse = d :: ds :=
      List.exists_cons_of_ne_nil
        (fun h => Nat.digits_ne_nil_iff_ne_zero.mpr h0 (List.reverse_eq_nil_iff.mp h))
    have hlt : ∀ e ∈ d :: ds, e < 10 := by
      intro e he
      rw [← hds, List.mem_reverse] at he
      exact Nat.digits_lt_base (by decide) he
    have hd0 : d ≠ 0 := by
      have hlast := Nat.getLast_digit_ne_zero 10 h0
      simp only [List.reverse_eq_cons_iff.mp hds, List.getLast_append, List.getLast_singleton] at hlast
      simpa using hlast
    have hfirst : ∀ d < 10, d ≠ 0 → 0x31 ≤ digitChar d ∧ digitChar d ≤ 0x39 := by decide
    have h19 := hfirst d (hlt d List.mem_cons_self) hd0
    have hzero : digitChar d ≠ zero := by
      intro h
      rw [h] at h19
      exact absurd h19.1 (by decide)
    have hval := ofDigitList_digits n
    rw [hds] at hval ⊢
    rw [List.map_cons, List.cons_append, parseZero, if_neg hzero, parseInteger, if_pos h19]
    have hread := parseDigits_print (D := D) (a := 0) hlt (by rwa [hval]) hrest
    rw [hval] at hread
    exact hread

/-- The number of a sign and a magnitude. -/
theorem parseNumber_sign (item : CJsonItem D) {v : Int32} {rest num : List UInt8} {sign : Int}
    (hrest : NumberEnd rest)
    (hsign : parseSign num = ((ofInt sign : D), decimalNat v.toInt.natAbs ++ rest))
    (hone : sign.natAbs = 1) (hmul : sign * v.toInt.natAbs = v.toInt)
    (hne : 0 ≤ sign ∨ v.toInt ≠ 0) :
    parseNumber item num =
      ({ item with valuedouble := ofInt v.toInt, valueint := v, type := .number }, rest) := by
  have hlo := v.le_toInt
  have hhi := v.toInt_lt
  have habs : v.toInt.natAbs ≤ 2 ^ 53 := by omega
  have hscale : add (ofInt 0) (ofInt (0 : Int32).toInt) = (ofInt 0 : D) :=
    ExactInts.add_ofInt 0 0 (by decide) (by decide) (by decide)
  have hsigned : mul (ofInt sign) (ofInt v.toInt.natAbs) = (ofInt v.toInt : D) := by
    have h := ExactInts.mul_ofInt (D := D) sign v.toInt.natAbs (by rwa [hmul]) (by omega)
      (by omega) (hne.imp (fun h => ⟨h, by omega⟩) (fun h => by rwa [hmul]))
    rwa [hmul] at h
  have hpow : mul (ofInt v.toInt) (ofInt 1) = (ofInt v.toInt : D) := by
    have h := ExactInts.mul_ofInt (D := D) v.toInt 1 (by omega) habs (by decide) (by omega)
    rwa [Int.mul_one] at h
  simp only [parseNumber, hsign, parseInteger_decimalNat habs hrest, parsePoint_end _ hrest,
    parseExponent_end hrest]
  rw [hscale, ExactInts.pow10_zero, hsigned, hpow, ExactInts.toInt_ofInt]

omit [ExactInts D] in
/-- A printed magnitude has no sign. -/
theorem parseSign_decimalNat (n : Nat) (rest : List UInt8) :
    parseSign (decimalNat n ++ rest) = ((ofInt 1 : D), decimalNat n ++ rest) := by
  have hdigit : ∀ d < 10, digitChar d ≠ minus := by decide
  rw [decimalNat]
  split_ifs with h0
  · rw [List.singleton_append, parseSign, if_neg (show zero ≠ minus by decide)]
  · cases hds : (Nat.digits 10 n).reverse with
    | nil => exact absurd (List.reverse_eq_nil_iff.mp hds) (Nat.digits_ne_nil_iff_ne_zero.mpr h0)
    | cons d ds =>
      have hd : d ∈ Nat.digits 10 n := by
        rw [← List.mem_reverse, hds]
        exact List.mem_cons_self
      exact if_neg (hdigit d (Nat.digits_lt_base (by decide) hd))

/-- **A printed integer is parsed as it was.** -/
theorem parseNumber_decimal (item : CJsonItem D) (v : Int32) {rest : List UInt8}
    (hrest : NumberEnd rest) :
    parseNumber item (decimal v.toInt ++ rest) =
      ({ item with valuedouble := ofInt v.toInt, valueint := v, type := .number }, rest) := by
  rw [decimal]
  split_ifs with hneg
  · refine parseNumber_sign item hrest (show _ = ((ofInt (-1) : D), _) from ?_) (by decide) (by omega)
      (.inr (by omega))
    rw [List.cons_append, parseSign, if_pos rfl]
  · exact parseNumber_sign item hrest (parseSign_decimalNat _ _) (by decide) (by omega)
      (.inl (by decide))

theorem printNumber_int {item : CJsonItem D} (h : item.valuedouble = ofInt item.valueint.toInt) :
    printNumber item = decimal item.valueint.toInt := by
  simp only [printNumber, h, ExactInts.isZero_ofInt, ExactInts.isInt_ofInt, if_true]
  split
  next h0 =>
    rw [of_decide_eq_true h0]
    rfl
  · rfl

end Print

/-! ## An arithmetic with the law -/

/-- The integers alone, of up to 60 digits where they are printed. -/
instance intArith : DoubleArith Int where
  ofInt := id
  add a b := a + b
  mul a b := a * b
  pow10 x := 10 ^ x.toNat
  toInt := Int32.ofInt
  isZero d := decide (d = 0)
  isInt v d := decide (v.toInt = d)
  isWhole d := decide (d.natAbs < 10 ^ 60)
  isFar d := decide (10 ^ 9 < d.natAbs)
  fixed0 := decimal
  exponent _ := []
  fixed6 _ := []

instance intArith_exact : ExactInts Int where
  add_ofInt _ _ _ _ _ := rfl
  mul_ofInt _ _ _ _ _ _ := rfl
  pow10_zero := rfl
  toInt_ofInt v := Int32.ofInt_toInt v
  isZero_ofInt _ := rfl
  isInt_ofInt _ := decide_eq_true rfl

end AtkOnenet
