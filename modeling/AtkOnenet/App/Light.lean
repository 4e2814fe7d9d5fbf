import AtkOnenet.Lib.Rounding
import AtkOnenet.Lib.Scale
import Mathlib.Algebra.Group.Action.Defs
import Mathlib.Algebra.Order.BigOperators.Group.Finset
import Mathlib.Algebra.Order.Floor.Semifield
import Mathlib.Data.Rat.Floor
import Mathlib.Tactic.IntervalCases
import Mathlib.Tactic.NormNum

/-!
# The light sensor (`applications/main.c`)

`getLightValue` and one turn of `ADC_th` (`adcTh`), over the globals `light_value` and
`adc_ch7_value` (`LightVars`). The `for` of `Get_Light_Value` declares variables of the same names,
so the sums of the samples end with the loop, and the code below it scales the old globals once
more.

* A `float` is the rational number that it stands for, and an operation on floats rounds its exact
  result to 24 bits (`toFloat`). A conversion to `uint32_t` drops the fraction.
* `scale_eq`: on the averages of samples the floats give what exact arithmetic gives. On the largest
  old values of the globals they do not: 3853963450 comes out as 62100, where it is below 62100 with
  exact numbers.
* `Averages` is what a call is for. `averages_iff`: a call gives the averages exactly if the old
  globals agree with the sums of the samples (`Agrees`), which from the third call on means that both
  averages are 0.
-/

namespace AtkOnenet

/-- The globals of `main.c`. -/
structure LightVars where
  lightValue : UInt32
  adcCh7Value : UInt32
  deriving DecidableEq, Repr

/-- `adc_data`: the samples of the two channels by turns. -/
abbrev AdcData := Vector UInt16 100

/-- The variables of the `for` of `Get_Light_Value`. In the loop they hide the globals. -/
structure LoopVars where
  i : Nat
  lightValue : Int32
  adcCh7Value : Int32
  deriving DecidableEq, Repr

def LoopVars.start : LoopVars := ⟨0, 0, 0⟩

/-- The body of the loop. -/
def LoopVars.pass (adc : AdcData) (s : LoopVars) : LoopVars where
  i := s.i + 2
  lightValue := s.lightValue + Int32.ofNat (adc.getD s.i 0).toNat
  adcCh7Value := s.adcCh7Value + Int32.ofNat (adc.getD (s.i + 1) 0).toNat

def sampleLoop (adc : AdcData) (s : LoopVars) : LoopVars :=
  if s.i < 100 then sampleLoop adc (s.pass adc) else s
termination_by 100 - s.i
decreasing_by
  simp only [LoopVars.pass]
  omega

/-- The `float` for an exact value. The exponents here are far from the ends of their range. -/
abbrev toFloat (x : Rat) : Rat := Rounding.rnd 23 x

/-- `v * 3.3f / 4096`. -/
def volts (v : UInt32) : Rat := toFloat (toFloat (toFloat v.toNat * toFloat (33 / 10)) / 4096)

/-- The conversion of a float that is not negative. -/
def toUint32 (x : Rat) : UInt32 := UInt32.ofNat ⌊x⌋₊

/-- `%02d` of a number below 100. -/
def twoDigits (v : UInt32) : String := if v < 10 then "0" ++ toString v else toString v

/-- The value returned, the text printed and the globals. -/
def getLightValue (adc : AdcData) (g : LightVars) : Rat × String × LightVars :=
  -- Here the variables of the loop are gone, and the names are the globals' again.
  let _ := sampleLoop adc .start
  let g := { g with lightValue := g.lightValue / 50 }
  let g := { g with adcCh7Value := g.adcCh7Value / 50 }
  let g := { g with lightValue := toUint32 (volts g.lightValue) }
  let g := { g with adcCh7Value := toUint32 (volts g.adcCh7Value) }
  let text := "[adc3] value is:" ++ toString (g.adcCh7Value / 100) ++ "." ++
    twoDigits (g.adcCh7Value % 100) ++ "\r\n"
  (toFloat g.lightValue.toNat, text, g)

/-- One turn of the loop of `ADC_th`. -/
def adcTh (g : LightVars) (adc : AdcData) : LightVars :=
  let (ret, _, g) := getLightValue adc g
  { g with lightValue := toUint32 ret }

/-! ## The loop over the samples -/

def evenSum (adc : AdcData) (n : Nat) : Nat := ∑ k ∈ Finset.range n, (adc.getD (2 * k) 0).toNat

def oddSum (adc : AdcData) (n : Nat) : Nat :=
  ∑ k ∈ Finset.range n, (adc.getD (2 * k + 1) 0).toNat

/-- After `n` passes the variables are the exact sums. -/
structure LoopVars.Sums (adc : AdcData) (n : Nat) (s : LoopVars) : Prop where
  i : s.i = 2 * n
  light : s.lightValue.toInt = evenSum adc n
  ch7 : s.adcCh7Value.toInt = oddSum adc n

variable {adc : AdcData} {g : LightVars} {s : LoopVars} {n : Nat}

theorem sum_samples_le (f : Nat → UInt16) (n : Nat) :
    ∑ k ∈ Finset.range n, (f k).toNat ≤ n * 65535 := by
  have h : ∀ k ∈ Finset.range n, (f k).toNat ≤ 65535 := by
    intro k _
    have hlt := (f k).toNat_lt
    omega
  have hsum := Finset.sum_le_card_nsmul _ _ _ h
  rwa [Finset.card_range, smul_eq_mul] at hsum

/-- Adding a sample to a sum that has room for it. -/
theorem toInt_add_sample {a : Int32} {m : Nat} (v : UInt16) (ha : a.toInt = m)
    (hm : m + v.toNat < 2 ^ 31) : (a + Int32.ofNat v.toNat).toInt = (m + v.toNat : Nat) := by
  rw [Int32.toInt_add, Int32.toInt_ofNat', ha]
  have hv : ((v.toNat : Int)).bmod Int32.size = v.toNat := by
    apply Int.bmod_eq_of_le <;> simp only [Int32.size] <;> omega
  rw [hv, Nat.cast_add]
  apply Int.bmod_eq_of_le <;> omega

theorem LoopVars.Sums.start : LoopVars.start.Sums adc 0 := ⟨rfl, rfl, rfl⟩

theorem LoopVars.Sums.pass (h : s.Sums adc n) (hn : n < 50) : (s.pass adc).Sums adc (n + 1) := by
  have hlight := sum_samples_le (fun k => adc.getD (2 * k) 0) (n + 1)
  have hch7 := sum_samples_le (fun k => adc.getD (2 * k + 1) 0) (n + 1)
  simp only [Finset.sum_range_succ] at hlight hch7
  constructor
  case i =>
    change s.i + 2 = 2 * (n + 1)
    have hi := h.i
    omega
  case light =>
    simp only [LoopVars.pass, h.i, evenSum, Finset.sum_range_succ]
    exact toInt_add_sample _ h.light (by omega)
  case ch7 =>
    simp only [LoopVars.pass, h.i, oddSum, Finset.sum_range_succ]
    exact toInt_add_sample _ h.ch7 (by omega)

theorem LoopVars.Sums.run (adc : AdcData) (hn : n ≤ 50) :
    ((LoopVars.pass adc)^[n] .start).Sums adc n := by
  induction n with
  | zero => exact .start
  | succ n ih =>
    rw [Function.iterate_succ_apply']
    exact (ih (by omega)).pass (by omega)

/-- The loop ends with the sums of all samples. -/
theorem sampleLoop_sums (h : s.Sums adc n) (hn : n ≤ 50) : (sampleLoop adc s).Sums adc 50 := by
  induction hk : 50 - n generalizing n s with
  | zero =>
    obtain rfl : n = 50 := by omega
    rw [sampleLoop, if_neg (by rw [h.i]; decide)]
    exact h
  | succ k ih =>
    have hi := h.i
    rw [sampleLoop, if_pos (by omega)]
    exact ih (h.pass (by omega)) (by omega) (by omega)

/-! ## What a call does to the globals -/

/-- The average of 50 samples on the scale of the display, from their sum. -/
def average (sum : Nat) : Nat := sum / 50 * 33 / 40960

/-- The least sum with the average `k`. -/
def step : Nat → Nat := Scale.stepOf 50 33 40960

theorem average_gc : GaloisConnection step average :=
  Scale.stepOf_gc (by decide) (by decide) (by decide)

/-- `uint32_t` to the scale of the display and back. -/
def scale (w : Nat) : Nat := ⌊toFloat (toFloat (toFloat w * toFloat (33 / 10)) / 4096)⌋₊

/-- What a turn of `ADC_th` makes of an old value of a global. -/
def measured (x : Nat) : Nat := scale (x / 50)

theorem toFloat_three : toFloat (33 / 10) = 13841203 / 2 ^ 22 := by decide +kernel

/-- A number of up to 24 bits, in units of a power of two, is a `float`. -/
theorem toFloat_mul {m : Nat} (hm : m ≤ 2 ^ 24) (k : Int) : toFloat (m * 2 ^ k) = m * 2 ^ k := by
  have h : |(m : Int)| ≤ 2 ^ (23 + 1) := by
    rw [Nat.abs_cast]
    exact_mod_cast hm
  exact_mod_cast Rounding.rnd_of_mul h k

theorem toFloat_natCast {m : Nat} (hm : m ≤ 2 ^ 24) : toFloat m = m := by
  have h := toFloat_mul hm 0
  rwa [zpow_zero, mul_one] at h

theorem scale_mono : Monotone scale := by
  intro a b hab
  have hc : 0 ≤ toFloat (33 / 10) := by
    rw [toFloat_three]
    positivity
  have hrnd : ∀ x : Rat, 0 ≤ x → 0 ≤ toFloat x := by
    intro x hx
    exact Rounding.rnd_zero.symm.le.trans (Rounding.rnd_mono le_rfl hx)
  have hcast : toFloat a ≤ toFloat b := Rounding.rnd_mono (Nat.cast_nonneg a) (Nat.cast_le.mpr hab)
  have ha := hrnd a (Nat.cast_nonneg a)
  have hmul : toFloat a * toFloat (33 / 10) ≤ toFloat b * toFloat (33 / 10) := by gcongr
  have hprod := Rounding.rnd_mono (p := 23) (mul_nonneg ha hc) hmul
  have hdiv : toFloat (toFloat a * toFloat (33 / 10)) / 4096 ≤
      toFloat (toFloat b * toFloat (33 / 10)) / 4096 := by gcongr
  exact Nat.floor_mono (Rounding.rnd_mono (div_nonneg (hrnd _ (mul_nonneg ha hc)) (by decide)) hdiv)

/-- The division by 4096 is exact. -/
theorem scale_eq_floor (w : Nat) (hw : w ≤ 2 ^ 24) :
    scale w = ⌊toFloat (w * (13841203 / 2 ^ 22)) / 4096⌋₊ := by
  have h4096 : (4096 : Rat) = 2 ^ 12 := by norm_num
  have hnonneg : (0 : Rat) ≤ w * (13841203 / 2 ^ 22) := by positivity
  rw [scale, toFloat_natCast hw, toFloat_three, h4096]
  exact congrArg _ (Rounding.rnd_rnd_div hnonneg 12)

/-- A product that reaches a step of the scale reaches it as a `float`. -/
theorem step_le_toFloat {w k : Nat} (hw : w < 2 ^ 17) (hk : k = w * 33 / 40960) :
    (k : Rat) * 4096 ≤ toFloat (w * (13841203 / 2 ^ 22)) := by
  by_cases hexact : 40960 * k = w * 33
  · -- `3.3f` is less than 3.3, but the product is rounded up
    obtain ⟨j, rfl⟩ : ∃ j, w = 40960 * j := by
      refine ⟨w / 40960, ?_⟩
      omega
    obtain rfl : k = 33 * j := by omega
    have hj : j ≤ 3 := by omega
    interval_cases j <;> decide +kernel
  · have hstep : toFloat (k * 4096) = k * 4096 := by
      have h := toFloat_mul (m := k) (by omega) 12
      norm_num at h
      exact h
    have hlt : 40960 * k + 1 ≤ w * 33 := by omega
    have hltQ : 40960 * (k : Rat) + 1 ≤ w * 33 := by exact_mod_cast hlt
    have hwQ : (w : Rat) ≤ 131072 := by exact_mod_cast hw.le
    have hle : (k : Rat) * 4096 ≤ w * (13841203 / 2 ^ 22) := by linarith
    rw [← hstep]
    exact Rounding.rnd_mono (by positivity) hle

/-- A product that is below a step of the scale is below it as a `float`. -/
theorem toFloat_lt_step {w k : Nat} (hw : w < 2 ^ 17) (hk : k = w * 33 / 40960) :
    toFloat (w * (13841203 / 2 ^ 22)) < ((k : Rat) + 1) * 4096 := by
  -- another `float` lies between them
  obtain ⟨m, hm⟩ : ∃ m, m = 65536 * (k + 1) - 1 := ⟨_, rfl⟩
  have hmQ : (m : Rat) = 65536 * (k + 1) - 1 := by
    have h : m + 1 = 65536 * (k + 1) := by omega
    have hQ : (m : Rat) + 1 = 65536 * (k + 1) := by exact_mod_cast h
    linarith
  have hlt : w * 33 + 1 ≤ 40960 * (k + 1) := by omega
  have hltQ : (w : Rat) * 33 + 1 ≤ 40960 * (k + 1) := by exact_mod_cast hlt
  have hfloat : toFloat (m * 2 ^ (-4 : Int)) = m * 2 ^ (-4 : Int) := toFloat_mul (by omega) _
  have hle : (w : Rat) * (13841203 / 2 ^ 22) ≤ m * 2 ^ (-4 : Int) := by
    have hwQ : (0 : Rat) ≤ w := Nat.cast_nonneg w
    rw [hmQ]
    norm_num
    linarith
  have hrnd := Rounding.rnd_mono (p := 23) (by positivity) hle
  refine (hrnd.trans_eq hfloat).trans_lt ?_
  rw [hmQ]
  norm_num
  linarith

/-- For the averages of samples the rounding does no harm. -/
theorem scale_eq {w : Nat} (hw : w < 2 ^ 17) : scale w = w * 33 / 40960 := by
  have hle := step_le_toFloat hw rfl
  have hlt := toFloat_lt_step hw rfl
  have hnonneg : (0 : Rat) ≤ toFloat (w * (13841203 / 2 ^ 22)) := le_trans (by positivity) hle
  rw [scale_eq_floor w (by omega), Nat.floor_eq_iff (div_nonneg hnonneg (by decide)),
    le_div_iff₀ (by decide), div_lt_iff₀ (by decide)]
  exact ⟨hle, hlt⟩

/-- The globals after a call: both are scaled. -/
def LightVars.scaled (g : LightVars) : LightVars :=
  ⟨toUint32 (volts (g.lightValue / 50)), toUint32 (volts (g.adcCh7Value / 50))⟩

theorem getLightValue_vars (adc : AdcData) (g : LightVars) :
    (getLightValue adc g).2.2 = g.scaled := rfl

/-- No old value goes far over the ends of the scale. -/
theorem measured_le (v : UInt32) : measured v.toNat ≤ 69206 := by
  have hv := v.toNat_lt
  have hend : scale 85899345 = 69206 := by decide +kernel
  rw [← hend]
  exact scale_mono (by omega)

theorem volts_floor (v : UInt32) : ⌊volts (v / 50)⌋₊ = measured v.toNat := by
  rw [volts, UInt32.toNat_div]
  rfl

theorem toUint32_volts (v : UInt32) : (toUint32 (volts (v / 50))).toNat = measured v.toNat := by
  have hle := measured_le v
  rw [toUint32, UInt32.toNat_ofNat', volts_floor, Nat.mod_eq_of_lt (by omega)]

/-- A `float` holds the value returned exactly. -/
theorem getLightValue_ret (adc : AdcData) (g : LightVars) :
    (getLightValue adc g).1 = (getLightValue adc g).2.2.lightValue.toNat := by
  have hle := measured_le g.lightValue
  rw [← toUint32_volts] at hle
  exact toFloat_natCast (m := g.scaled.lightValue.toNat) (hle.trans (by decide))

/-- `ADC_th` assigns the value returned to the global that it comes from. -/
theorem adcTh_eq (g : LightVars) (adc : AdcData) : adcTh g adc = g.scaled := by
  have h : adcTh g adc = { g.scaled with lightValue := toUint32 (getLightValue adc g).1 } := rfl
  rw [h, getLightValue_ret, getLightValue_vars, toUint32, Nat.floor_natCast, UInt32.ofNat_toNat]

/-- The globals after `n` turns of `ADC_th`: no sample has a part in them. -/
theorem adcTh_foldl (g : LightVars) (earlier : List AdcData) :
    earlier.foldl adcTh g = LightVars.scaled^[earlier.length] g := by
  have h : adcTh = fun g _ => g.scaled := by
    funext g adc
    exact adcTh_eq g adc
  rw [h, List.foldl_const]

theorem scaled_iterate_light (n : Nat) (g : LightVars) :
    (LightVars.scaled^[n] g).lightValue.toNat = measured^[n] g.lightValue.toNat :=
  Function.Semiconj.iterate_right (f := fun g : LightVars => g.lightValue.toNat)
    (fun g => toUint32_volts g.lightValue) n g

theorem scaled_iterate_ch7 (n : Nat) (g : LightVars) :
    (LightVars.scaled^[n] g).adcCh7Value.toNat = measured^[n] g.adcCh7Value.toNat :=
  Function.Semiconj.iterate_right (f := fun g : LightVars => g.adcCh7Value.toNat)
    (fun g => toUint32_volts g.adcCh7Value) n g

/-! ## When a call gives the averages -/

/-- What a call at the globals `g` is for: both globals are the averages of the samples, and the value
returned is the first of them. No sum of samples leaves the 32 bits in any pass of the loop, nor does
a value that is converted. -/
structure Averages (adc : AdcData) (g : LightVars) (r : Rat × String × LightVars) : Prop where
  light : r.2.2.lightValue.toNat = average (evenSum adc 50)
  ch7 : r.2.2.adcCh7Value.toNat = average (oddSum adc 50)
  ret : r.1 = r.2.2.lightValue.toNat
  passes : ∀ n ≤ 50, ((LoopVars.pass adc)^[n] .start).Sums adc n
  loop : (sampleLoop adc .start).Sums adc 50
  range : ⌊volts (g.lightValue / 50)⌋₊ < 2 ^ 32 ∧ ⌊volts (g.adcCh7Value / 50)⌋₊ < 2 ^ 32

/-- After `n` earlier calls the value `v` that a global had at first agrees with the sum of the
samples: no step of the scale lies between them in the first call; later the old value has almost or
entirely gone, and the sum must be small. -/
def Agrees : Nat → UInt32 → Nat → Prop
  | 0, v, sum => ∀ k, step k ≤ v.toNat ↔ step k ≤ sum
  | 1, v, sum => (3853963450 ≤ v.toNat ↔ step 1 ≤ sum) ∧ sum < step 2
  | _ + 2, _, sum => sum < step 1

example : step 1 = 62100 ∧ step 2 = 124150 := by decide

/-- The old values that reach the first step twice. -/
theorem step_le_measured (v : Nat) : step 1 ≤ measured v ↔ 3853963450 ≤ v := by
  have hstep : step 1 = 62100 := rfl
  have hbelow : scale 77079268 = 62099 := by decide +kernel
  have hat : scale 77079269 = 62100 := by decide +kernel
  rw [hstep]
  constructor
  · intro h
    by_contra hlt
    have hmono : measured v ≤ scale 77079268 := scale_mono (by omega)
    omega
  · intro h
    have hmono : scale 77079269 ≤ measured v := scale_mono (by omega)
    omega

/-- What two calls leave of an old value. -/
theorem measured_twice (v : UInt32) : measured (measured v.toNat) = average (measured v.toNat) := by
  have hle := measured_le v
  exact scale_eq (by omega)

/-- Of an old value at most 1 is left after two calls. -/
theorem measured_twice_lt (v : UInt32) : measured (measured v.toNat) < 2 := by
  have hle := measured_le v
  rw [measured_twice]
  simp only [average]
  omega

/-- After three calls or more nothing is left of it. -/
theorem measured_iterate_eq_zero (v : UInt32) (n : Nat) : measured^[n + 3] v.toNat = 0 := by
  have htwice := measured_twice_lt v
  have h0 : measured 0 = 0 := scale_eq (by decide)
  have h3 : measured^[3] v.toNat = 0 := by
    have hsmall : measured (measured v.toNat) / 50 = 0 := by omega
    change scale (measured (measured v.toNat) / 50) = 0
    rw [hsmall]
    exact h0
  rw [Function.iterate_add_apply, h3, Function.iterate_fixed h0]

/-- The first call: an old value that is too large for the floats to be exact is too large anyway. -/
theorem measured_eq_average_iff (v : UInt32) {sum : Nat} (hsum : sum ≤ 50 * 65535) :
    measured v.toNat = average sum ↔ Agrees 0 v sum := by
  have heq := Scale.eq_iff average_gc v.toNat sum
  by_cases hv : v.toNat / 50 < 2 ^ 17
  · have hscale : measured v.toNat = average v.toNat := scale_eq hv
    rw [hscale]
    exact heq
  · have hle : average sum ≤ 52 := by
      simp only [average]
      omega
    have hlarge : 105 ≤ average v.toNat := by
      simp only [average]
      omega
    have hend : scale 131071 = 105 := scale_eq (by decide)
    have hmeasured : scale 131071 ≤ measured v.toNat := scale_mono (by omega)
    constructor
    · omega
    · intro h
      have := heq.mpr h
      omega

theorem agrees_iff (n : Nat) (v : UInt32) {sum : Nat} (hsum : sum ≤ 50 * 65535) :
    measured^[n + 1] v.toNat = average sum ↔ Agrees n v sum := by
  match n with
  | 0 => exact measured_eq_average_iff v hsum
  | 1 =>
    have htwice := measured_twice_lt v
    have hold : 3853963450 ≤ v.toNat ↔ 1 ≤ measured (measured v.toNat) := by
      rw [← step_le_measured, measured_twice, average_gc 1]
    have hone := average_gc 1 sum
    have htwo := average_gc 2 sum
    change measured (measured v.toNat) = average sum ↔
      (3853963450 ≤ v.toNat ↔ step 1 ≤ sum) ∧ sum < step 2
    rw [hold, hone]
    omega
  | n + 2 =>
    have hone := average_gc 1 sum
    change measured^[n + 3] v.toNat = average sum ↔ sum < step 1
    rw [measured_iterate_eq_zero]
    omega

/-- **The light value.** After any number of earlier turns of `ADC_th`, from any globals, a call gives
the averages of the samples exactly if the first values of the globals agree with the sums. -/
theorem averages_iff (g : LightVars) (earlier : List AdcData) (adc : AdcData) :
    let g' := earlier.foldl adcTh g
    Averages adc g' (getLightValue adc g') ↔
      Agrees earlier.length g.lightValue (evenSum adc 50) ∧
        Agrees earlier.length g.adcCh7Value (oddSum adc 50) := by
  intro g'
  have hvars : (getLightValue adc g').2.2 = LightVars.scaled^[earlier.length + 1] g := by
    rw [getLightValue_vars, Function.iterate_succ_apply', ← adcTh_foldl]
  have heven : evenSum adc 50 ≤ 50 * 65535 := sum_samples_le _ _
  have hodd : oddSum adc 50 ≤ 50 * 65535 := sum_samples_le _ _
  rw [← agrees_iff _ _ heven, ← agrees_iff _ _ hodd, ← scaled_iterate_light, ← scaled_iterate_ch7,
    ← hvars]
  constructor
  · intro h
    exact ⟨h.light, h.ch7⟩
  · rintro ⟨hlight, hch7⟩
    constructor
    case light => exact hlight
    case ch7 => exact hch7
    case ret => exact getLightValue_ret adc g'
    case passes =>
      intro n hn
      exact .run adc hn
    case loop => exact sampleLoop_sums .start (Nat.zero_le 50)
    case range =>
      have h1 := measured_le g'.lightValue
      have h2 := measured_le g'.adcCh7Value
      rw [volts_floor, volts_floor]
      omega

/-- The first call after start-up, with all samples at 4095: both globals stay 0 instead of 3. -/
theorem bright_reads_dark :
    let adc : AdcData := Vector.replicate 100 4095
    let r := getLightValue adc ⟨0, 0⟩
    r.2.2 = ⟨0, 0⟩ ∧ r.1 = 0 ∧ average (evenSum adc 50) = 3 ∧ ¬ Averages adc ⟨0, 0⟩ r := by
  intro adc r
  have hsum : average (evenSum adc 50) = 3 := by decide +kernel
  have hvars : r.2.2 = ⟨0, 0⟩ := by decide +kernel
  have hret : r.1 = 0 := by decide +kernel
  refine ⟨hvars, hret, hsum, ?_⟩
  intro h
  have hlight := h.light
  rw [hvars, hsum] at hlight
  exact absurd hlight (by decide)

end AtkOnenet
