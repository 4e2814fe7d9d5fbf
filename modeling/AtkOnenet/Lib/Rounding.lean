import Mathlib.Data.Int.Log
import Mathlib.Data.Rat.Floor
import Mathlib.Tactic.FieldSimp
import Mathlib.Tactic.Linarith
import Mathlib.Tactic.Positivity
import Mathlib.Tactic.Ring

/-!
# Binary rounding

`rnd p x` is the number nearest to `x` with `p` bits behind its leading one, with ties to the even last
bit: the result of an operation on binary floats whose exact value is `x`, where the exponents are not
bounded. For `float` (binary32) `p` is 23.

Rounding keeps the order (`rnd_mono`) and the numbers that have no more bits (`rnd_of_mul`).
-/

namespace Rounding

/-- The integer nearest to `x`, the even one of two. -/
def nearest (x : ℚ) : ℤ :=
  if x - ⌊x⌋ < 1 / 2 then ⌊x⌋
  else if 1 / 2 < x - ⌊x⌋ then ⌊x⌋ + 1
  else if ⌊x⌋ % 2 = 0 then ⌊x⌋ else ⌊x⌋ + 1

/-- The weight of the last bit of `x`. -/
def ulp (p : ℕ) (x : ℚ) : ℚ := 2 ^ (Int.log 2 |x| - p)

def rnd (p : ℕ) (x : ℚ) : ℚ := nearest (x / ulp p x) * ulp p x

variable {p : ℕ} {x y : ℚ} {m e : ℤ}

theorem nearest_intCast (n : ℤ) : nearest (n : ℚ) = n := by
  simp [nearest]

theorem floor_le_nearest (x : ℚ) : ⌊x⌋ ≤ nearest x ∧ nearest x ≤ ⌊x⌋ + 1 := by
  unfold nearest
  split_ifs <;> omega

theorem nearest_mono (hxy : x ≤ y) : nearest x ≤ nearest y := by
  rcases (Int.floor_mono hxy).lt_or_eq with hlt | heq
  · have hx := (floor_le_nearest x).2
    have hy := (floor_le_nearest y).1
    omega
  · -- in one interval the fractions are in order
    unfold nearest
    rw [heq]
    split_ifs <;> first | omega | linarith

theorem ulp_pos (p : ℕ) (x : ℚ) : 0 < ulp p x := zpow_pos (by decide) _

theorem ulp_eq (hx : 0 ≤ x) : ulp p x = 2 ^ (Int.log 2 x - p) := by
  rw [ulp, abs_of_nonneg hx]

theorem rnd_zero : rnd p 0 = 0 := by
  simp [rnd, nearest]

theorem zpow_div_zpow (a b : ℤ) : (2 : ℚ) ^ a / 2 ^ b = 2 ^ (a - b) := by
  rw [zpow_sub₀ (by decide)]

/-- A power of two in units of a last bit that is not above it. -/
theorem zpow_div_ulp (he : Int.log 2 |x| - p ≤ e) :
    (2 : ℚ) ^ e / ulp p x = ((2 ^ (e - (Int.log 2 |x| - p)).toNat : ℤ) : ℚ) := by
  rw [ulp, zpow_div_zpow]
  push_cast
  rw [← zpow_natCast, Int.toNat_of_nonneg (by omega)]

/-- Rounding to a fixed unit keeps the order. -/
theorem nearest_mul_mono {u : ℚ} (hu : 0 < u) (hxy : x ≤ y) :
    nearest (x / u) * u ≤ nearest (y / u) * u := by
  have hdiv : x / u ≤ y / u := by gcongr
  have hnear : (nearest (x / u) : ℚ) ≤ nearest (y / u) := by exact_mod_cast nearest_mono hdiv
  gcongr

/-- A power of two that is not below the unit is not rounded. -/
theorem nearest_mul_zpow (he : Int.log 2 |x| - p ≤ e) :
    nearest (2 ^ e / ulp p x) * ulp p x = 2 ^ e := by
  rw [zpow_div_ulp he, nearest_intCast, ← zpow_div_ulp he, div_mul_cancel₀ _ (ulp_pos p x).ne']

/-- A number of the same or a larger binade is rounded to no less than the power of two below it. -/
theorem zpow_le_rnd (hx : 0 < x) (he : 2 ^ e ≤ x) (hlast : Int.log 2 x - p ≤ e) :
    2 ^ e ≤ rnd p x := by
  have hlast' : Int.log 2 |x| - p ≤ e := by rwa [abs_of_pos hx]
  calc (2 : ℚ) ^ e = nearest (2 ^ e / ulp p x) * ulp p x := (nearest_mul_zpow hlast').symm
    _ ≤ rnd p x := nearest_mul_mono (ulp_pos p x) he

theorem rnd_le_zpow (hx : 0 < x) (he : x ≤ 2 ^ e) (hlast : Int.log 2 x - p ≤ e) :
    rnd p x ≤ 2 ^ e := by
  have hlast' : Int.log 2 |x| - p ≤ e := by rwa [abs_of_pos hx]
  calc rnd p x ≤ nearest (2 ^ e / ulp p x) * ulp p x := nearest_mul_mono (ulp_pos p x) he
    _ = 2 ^ e := nearest_mul_zpow hlast'

/-- Rounding keeps the order. -/
theorem rnd_mono (hx : 0 ≤ x) (hxy : x ≤ y) : rnd p x ≤ rnd p y := by
  rcases hx.eq_or_lt with rfl | hx
  · rw [rnd_zero]
    rcases hxy.eq_or_lt with rfl | hy
    · exact rnd_zero.ge
    · have hlast : Int.log 2 y - p ≤ Int.log 2 y := by omega
      have hle := zpow_le_rnd hy (Int.zpow_log_le_self (by decide) hy) hlast
      exact (zpow_pos (by decide : (0 : ℚ) < ((2 : ℕ) : ℚ)) _).le.trans hle
  have hy := hx.trans_le hxy
  rcases (Int.log_mono_right (b := 2) hx hxy).lt_or_eq with hlt | heq
  · -- a power of two lies between the two numbers
    have hxe := Int.lt_zpow_succ_log_self (b := 2) (by decide) x
    calc rnd p x ≤ 2 ^ (Int.log 2 x + 1) := rnd_le_zpow hx hxe.le (by omega)
      _ ≤ 2 ^ Int.log 2 y := zpow_le_zpow_right₀ (by decide) hlt
      _ ≤ rnd p y := zpow_le_rnd hy (Int.zpow_log_le_self (by decide) hy) (by omega)
  · have hulp : ulp p x = ulp p y := by rw [ulp_eq hx.le, ulp_eq hy.le, heq]
    rw [rnd, rnd, hulp]
    exact nearest_mul_mono (ulp_pos p y) hxy

/-- A number of at most `p + 1` bits is not rounded. -/
theorem rnd_of_mul_lt (hm : |m| < 2 ^ (p + 1)) (k : ℤ) : rnd p (m * 2 ^ k) = m * 2 ^ k := by
  by_cases hm0 : m = 0
  · rw [hm0, Int.cast_zero, zero_mul, rnd_zero]
  obtain ⟨x, hx⟩ : ∃ x : ℚ, x = m * 2 ^ k := ⟨_, rfl⟩
  have hpow : (0 : ℚ) < 2 ^ k := zpow_pos (by decide) k
  have hpos : 0 < |x| := by
    rw [hx, abs_pos]
    exact mul_ne_zero (Int.cast_ne_zero.mpr hm0) hpow.ne'
  have hlt : |x| < ((2 : ℕ) : ℚ) ^ ((p + 1 : ℕ) + k : ℤ) := by
    rw [hx, abs_mul, abs_of_pos hpow, zpow_add₀ (by decide), zpow_natCast]
    have hm' : |(m : ℚ)| < 2 ^ (p + 1) := by exact_mod_cast hm
    exact mul_lt_mul_of_pos_right hm' hpow
  have hlog := (Int.lt_zpow_iff_log_lt (by decide) hpos).mp hlt
  have hlast : Int.log 2 |x| - p ≤ k := by omega
  have hdiv : x / ulp p x = ((m * 2 ^ (k - (Int.log 2 |x| - p)).toNat : ℤ) : ℚ) := by
    rw [Int.cast_mul, ← zpow_div_ulp hlast, ← mul_div_assoc, ← hx]
  rw [← hx, rnd, hdiv, nearest_intCast, ← hdiv, div_mul_cancel₀ _ (ulp_pos p x).ne']

theorem rnd_of_mul (hm : |m| ≤ 2 ^ (p + 1)) (k : ℤ) : rnd p (m * 2 ^ k) = m * 2 ^ k := by
  rcases hm.lt_or_eq with hlt | heq
  · exact rnd_of_mul_lt hlt k
  · -- a power of two has one bit
    have hone : |(1 : ℤ)| < 2 ^ (p + 1) := by
      rw [abs_one]
      exact one_lt_pow₀ (by decide) (Nat.succ_ne_zero p)
    have hminus : |(-1 : ℤ)| < 2 ^ (p + 1) := by rwa [abs_neg]
    have hpow := rnd_of_mul_lt hone (k + (p + 1 : ℕ))
    have hneg := rnd_of_mul_lt hminus (k + (p + 1 : ℕ))
    rw [zpow_add₀ (by decide), zpow_natCast] at hpow hneg
    rcases eq_or_eq_neg_of_abs_eq heq with rfl | rfl <;> push_cast at hpow hneg ⊢
    · rwa [mul_comm, ← one_mul (2 ^ k * 2 ^ (p + 1) : ℚ)]
    · rwa [neg_mul, mul_comm, ← neg_one_mul]

/-- The quotient of a rounded number and a power of two is exact. -/
theorem rnd_rnd_div (hx : 0 ≤ x) (k : ℕ) : rnd p (rnd p x / 2 ^ k) = rnd p x / 2 ^ k := by
  rcases hx.eq_or_lt with rfl | hx
  · rw [rnd_zero, zero_div, rnd_zero]
  have hnonneg : 0 ≤ nearest (x / ulp p x) := by
    have hfloor : 0 ≤ ⌊x / ulp p x⌋ := Int.floor_nonneg.mpr (div_nonneg hx.le (ulp_pos p x).le)
    exact hfloor.trans (floor_le_nearest _).1
  have hle : nearest (x / ulp p x) ≤ 2 ^ (p + 1) := by
    have hxe := Int.lt_zpow_succ_log_self (b := 2) (by decide) x
    have hlast : Int.log 2 x - p ≤ Int.log 2 x + 1 := by omega
    have h := rnd_le_zpow hx hxe.le hlast
    rw [rnd, ← le_div_iff₀ (ulp_pos p x)] at h
    have hquot : (2 : ℚ) ^ (Int.log 2 x + 1) / ulp p x =
        2 ^ (Int.log 2 x + 1 - (Int.log 2 x - p)) := by rw [ulp_eq hx.le, zpow_div_zpow]
    have hexp : Int.log 2 x + 1 - (Int.log 2 x - p) = (p + 1 : ℕ) := by
      push_cast
      ring
    rw [hexp, zpow_natCast] at hquot
    have h' : (nearest (x / ulp p x) : ℚ) ≤ 2 ^ (p + 1) := hquot ▸ h
    exact_mod_cast h'
  have hquot : rnd p x / 2 ^ k =
      (nearest (x / ulp p x) : ℚ) * 2 ^ (Int.log 2 x - p - k) := by
    rw [rnd, ulp_eq hx.le, mul_div_assoc, ← zpow_natCast, zpow_div_zpow]
  rw [hquot]
  exact rnd_of_mul (by rwa [abs_of_nonneg hnonneg]) _

end Rounding
