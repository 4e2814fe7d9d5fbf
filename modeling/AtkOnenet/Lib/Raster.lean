import Mathlib.Logic.Function.Iterate
import Mathlib.Data.Nat.Basic

/-!
# The raster walk over a window

The cursor of a display memory with an address window: it starts in the first cell of the window,
walks along the row, and goes on in the next row. `rev` walks the rows from the last column down to
the first. `Window.pos` gives the cell after `k` steps in closed form (`next_iterate`), and
different steps are in different cells (`pos_inj`).
-/

namespace Raster

/-- The columns `x0..x1` and the rows `y0..y1`. -/
structure Window where
  x0 : Nat
  x1 : Nat
  y0 : Nat
  y1 : Nat
  rev : Bool
  deriving DecidableEq, Repr

namespace Window

variable (w : Window)

/-- The first cell of the walk. -/
def home : Nat × Nat := (if w.rev then w.x1 else w.x0, w.y0)

/-- The row after `y`; the walk starts again behind the last one. -/
def nextRow (y : Nat) : Nat := if y = w.y1 then w.y0 else y + 1

/-- One step of the cursor. -/
def next (c : Nat × Nat) : Nat × Nat :=
  if w.rev then
    if c.1 = w.x0 then (w.x1, w.nextRow c.2) else (c.1 - 1, c.2)
  else
    if c.1 = w.x1 then (w.x0, w.nextRow c.2) else (c.1 + 1, c.2)

def width : Nat := w.x1 + 1 - w.x0

def height : Nat := w.y1 + 1 - w.y0

/-- The `i`-th column of the walk along a row. -/
def column (i : Nat) : Nat := if w.rev then w.x1 - i else w.x0 + i

/-- The cell after `k` steps. -/
def pos (k : Nat) : Nat × Nat := (w.column (k % w.width), w.y0 + k / w.width)

variable {w}

theorem pos_zero : w.pos 0 = w.home := by
  simp [pos, home, column]

/-- One step goes from the `k`-th cell to the next one. -/
theorem next_pos (hx : w.x0 ≤ w.x1) {k : Nat} (hk : k + 1 < w.width * w.height) :
    w.next (w.pos k) = w.pos (k + 1) := by
  have hw : 0 < w.width := by unfold width; omega
  have hm := Nat.mod_lt k hw
  have hrow : k / w.width < w.height :=
    (Nat.div_lt_iff_lt_mul hw).mpr (by rw [Nat.mul_comm]; omega)
  by_cases hend : k % w.width + 1 = w.width
  · -- The end of a row: it is not the last one.
    have hdiv : (k + 1) / w.width = k / w.width + 1 := by
      rw [Nat.succ_div, if_pos (Nat.dvd_of_mod_eq_zero (by
        rw [Nat.add_mod, ← Nat.mod_add_mod]; simp [hend]))]
    have hmod : (k + 1) % w.width = 0 := by
      rw [← Nat.mod_add_mod, hend, Nat.mod_self]
    have hlast : k / w.width + 1 < w.y1 + 1 - w.y0 := by
      rw [← hdiv]
      exact (Nat.div_lt_iff_lt_mul hw).mpr (by rw [Nat.mul_comm]; exact hk)
    have hy : w.nextRow (w.y0 + k / w.width) = w.y0 + (k + 1) / w.width := by
      have hne : w.y0 + k / w.width ≠ w.y1 := by
        generalize k / w.width = q at hlast ⊢
        omega
      rw [nextRow, if_neg hne, hdiv, Nat.add_assoc]
    unfold width at hend hm
    unfold next pos column
    rw [hmod]
    cases w.rev <;> simp only [Bool.false_eq_true, ↓reduceIte, hy] <;>
      rw [if_pos (by unfold width; omega)] <;> simp
  · have hmod : (k + 1) % w.width = k % w.width + 1 := by
      rw [← Nat.mod_add_mod, Nat.mod_eq_of_lt (by omega)]
    have hdiv : (k + 1) / w.width = k / w.width := by
      rw [Nat.succ_div, if_neg]
      · rfl
      · intro hd
        have := Nat.mod_eq_zero_of_dvd hd
        omega
    unfold next pos column
    rw [hmod, hdiv]
    unfold width at hend hm ⊢
    cases w.rev <;> simp only [Bool.false_eq_true, ↓reduceIte] <;>
      rw [if_neg (by omega)] <;> congr 1

/-- The walk in closed form. -/
theorem next_iterate (hx : w.x0 ≤ w.x1) {k : Nat} (hk : k < w.width * w.height) :
    w.next^[k] w.home = w.pos k := by
  induction k with
  | zero => exact pos_zero.symm
  | succ k ih =>
    rw [Function.iterate_succ_apply', ih (by omega), next_pos hx hk]

theorem pos_inj (hx : w.x0 ≤ w.x1) {i j : Nat} (h : w.pos i = w.pos j) : i = j := by
  have hw : 0 < w.width := by unfold width; omega
  have hi := Nat.mod_lt i hw
  have hj := Nat.mod_lt j hw
  simp only [pos, column, Prod.mk.injEq] at h
  have hm : i % w.width = j % w.width := by
    unfold width at hi hj h ⊢
    obtain ⟨h, -⟩ := h
    split at h <;> omega
  have hd : i / w.width = j / w.width := by omega
  rw [← Nat.div_add_mod i w.width, ← Nat.div_add_mod j w.width, hm, hd]

/-- The walk does not come to a cell twice before its end. -/
theorem next_iterate_inj (hx : w.x0 ≤ w.x1) {i j : Nat} (hi : i < w.width * w.height)
    (hj : j < w.width * w.height) (h : w.next^[i] w.home = w.next^[j] w.home) : i = j := by
  rw [next_iterate hx hi, next_iterate hx hj] at h
  exact pos_inj hx h

end Window

end Raster
