import Mathlib.Order.GaloisConnection.Defs

/-!
# Scales that round down

A scale is a monotone map with a lower adjoint, which gives the least argument of each value: its
steps. Two arguments have the same value exactly if no step lies between them (`eq_iff`).

`x / c * p / q`, the average of `c` numbers times `p / q`, rounds down twice. Its steps are
`c * ⌈q * k / p⌉` (`stepOf_gc`).
-/

namespace Scale

/-- Equal values: each step is reached by both arguments or by neither. -/
theorem eq_iff {α β : Type} [Preorder α] [PartialOrder β] {l : β → α} {u : α → β}
    (h : GaloisConnection l u) (a b : α) : u a = u b ↔ ∀ k, l k ≤ a ↔ l k ≤ b := by
  rw [h.u_eq]
  constructor
  · intro heq k
    rw [← heq k, h k b]
  · intro heq k
    rw [heq k, h k b]

/-- Where `x / c * p / q` reaches `k`. -/
def stepOf (c p q k : Nat) : Nat := c * ((q * k + (p - 1)) / p)

theorem stepOf_gc {c p q : Nat} (hc : 0 < c) (hp : 0 < p) (hq : 0 < q) :
    GaloisConnection (stepOf c p q) (fun x => x / c * p / q) := by
  intro k x
  have hceil : (q * k + (p - 1)) / p ≤ x / c ↔ q * k ≤ x / c * p := by
    rw [← Nat.lt_succ_iff, Nat.div_lt_iff_lt_mul hp, Nat.succ_mul]
    omega
  rw [stepOf, Nat.mul_comm c, ← Nat.le_div_iff_mul_le hc, hceil, Nat.le_div_iff_mul_le hq,
    Nat.mul_comm k]

end Scale
