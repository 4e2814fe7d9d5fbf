import Mathlib.Data.List.DropRight
import Mathlib.Data.List.Rotate

/-!
# Circular memories

`held buf h k` is what a memory `buf` holds from the cell `h` on in `k` cells, behind the last cell
again at the first one. A queue in such a memory is appended to by a store behind its end (`held_set`,
`held_copy` for a block that does not reach over the last cell) and taken from by a move of its start
(`held_advance`).

A queue that drops its oldest elements where there is no room keeps the last elements of what it has
got: `rtake_append_rtake` is how its operations compose.
-/

namespace Circular

variable {α : Type}

/-- The `k` elements of a circular memory from the cell `h` on. -/
def held (buf : List α) (h k : Nat) : List α := (buf.rotate h).take k

variable {buf xs : List α} {h k j n : Nat} {x : α}

/-- The cell `j` behind the cell `h`. -/
theorem add_mod_eq (hh : h < n) (hj : j ≤ n) :
    (h + j) % n = if h + j < n then h + j else h + j - n := by
  split_ifs with hlt
  · exact Nat.mod_eq_of_lt hlt
  · rw [Nat.mod_eq_sub_mod (Nat.le_of_not_lt hlt), Nat.mod_eq_of_lt (by omega)]

theorem length_held (hk : k ≤ buf.length) : (held buf h k).length = k := by
  rw [held, List.length_take, List.length_rotate, Nat.min_eq_left hk]

theorem getElem?_held (hj : j < k) (hk : k ≤ buf.length) :
    (held buf h k)[j]? = buf[(h + j) % buf.length]? := by
  rw [held, List.getElem?_take_of_lt hj, List.getElem?_rotate (Nat.lt_of_lt_of_le hj hk),
    Nat.add_comm]

/-- Taking from the front moves the start. -/
theorem held_advance (hk : j + k ≤ buf.length) :
    held buf ((h + j) % buf.length) k = (held buf h (j + k)).drop j := by
  have hle : j ≤ (buf.rotate h).length := by rw [List.length_rotate]; omega
  rw [held, held, List.rotate_mod, ← List.rotate_rotate, List.rotate_eq_drop_append_take hle,
    List.take_append_of_le_length, List.drop_take, Nat.add_sub_cancel_left]
  rw [List.length_drop, List.length_rotate]
  omega

/-- The block `xs` stored from the cell `i` on, as `memcpy` does. -/
def copyInto (buf : List α) (i : Nat) (xs : List α) : List α :=
  buf.take i ++ xs ++ buf.drop (i + xs.length)

theorem length_copyInto {i : Nat} (hi : i + xs.length ≤ buf.length) :
    (copyInto buf i xs).length = buf.length := by
  simp only [copyInto, List.length_append, List.length_take, List.length_drop]
  omega

theorem getElem?_copyInto {i : Nat} (hi : i + xs.length ≤ buf.length) (j : Nat) :
    (copyInto buf i xs)[j]? =
      if i ≤ j ∧ j < i + xs.length then xs[j - i]? else buf[j]? := by
  have hlen : (buf.take i).length = i := by rw [List.length_take]; omega
  rw [copyInto, List.append_assoc]
  rcases Nat.lt_or_ge j i with hj | hj
  · rw [List.getElem?_append_left (by omega), List.getElem?_take_of_lt hj, if_neg (by omega)]
  rw [List.getElem?_append_right (by omega), hlen]
  rcases Nat.lt_or_ge (j - i) xs.length with hx | hx
  · rw [List.getElem?_append_left hx, if_pos (by omega)]
  · rw [List.getElem?_append_right hx, List.getElem?_drop, if_neg (by omega)]
    congr 1
    omega

/-- A block behind the end of a queue, with room for it before the last cell of the memory. -/
theorem held_copy (hh : h < buf.length) (hk : k + xs.length ≤ buf.length)
    (hi : (h + k) % buf.length + xs.length ≤ buf.length) :
    held (copyInto buf ((h + k) % buf.length) xs) h (k + xs.length) = held buf h k ++ xs := by
  have hlen := length_copyInto hi
  have hheld : (held buf h k).length = k := length_held (by omega)
  apply List.ext_getElem?
  intro j
  rcases Nat.lt_or_ge j (k + xs.length) with hj | hj
  · rw [getElem?_held hj (by omega), hlen, getElem?_copyInto hi]
    have hcell := add_mod_eq hh (show j ≤ buf.length by omega)
    have hend := add_mod_eq hh (show k ≤ buf.length by omega)
    rcases Nat.lt_or_ge j k with hjk | hjk
    · rw [List.getElem?_append_left (by omega), getElem?_held hjk (by omega), if_neg]
      rw [hcell, hend]
      split_ifs <;> omega
    · rw [List.getElem?_append_right (by omega), hheld, if_pos]
      · congr 1
        rw [hcell, hend]
        rw [hend] at hi
        split_ifs at hi ⊢ <;> omega
      · rw [hend] at hi ⊢
        rw [hcell]
        split_ifs at hi ⊢ <;> omega
  · rw [List.getElem?_eq_none, List.getElem?_eq_none]
    · rw [List.length_append, hheld]
      omega
    · rw [length_held (by omega)]
      exact hj

/-- One element behind the end of a queue. -/
theorem held_set (hh : h < buf.length) (hk : k < buf.length) :
    held (buf.set ((h + k) % buf.length) x) h (k + 1) = held buf h k ++ [x] := by
  have hlt : (h + k) % buf.length < buf.length := Nat.mod_lt _ (by omega)
  have hset : buf.set ((h + k) % buf.length) x = copyInto buf ((h + k) % buf.length) [x] := by
    rw [List.set_eq_take_append_cons_drop, if_pos hlt, copyInto, List.append_assoc]
    rfl
  have hone : k + [x].length ≤ buf.length := hk
  rw [hset]
  exact held_copy hh hone hlt

/-! ## The last elements -/

theorem rtake_eq_drop (xs : List α) (n : Nat) : xs.rtake n = xs.drop (xs.length - n) := rfl

/-- Nothing is dropped where there is room. -/
theorem rtake_of_length_le (hx : xs.length ≤ n) : xs.rtake n = xs := by
  rw [rtake_eq_drop, Nat.sub_eq_zero_of_le hx, List.drop_zero]

theorem rtake_suffix (xs : List α) (n : Nat) : xs.rtake n <:+ xs := List.drop_suffix _ _

/-- What is dropped early would be dropped late. -/
theorem rtake_append_rtake (xs ys : List α) (n : Nat) :
    (xs.rtake n ++ ys).rtake n = (xs ++ ys).rtake n := by
  simp only [rtake_eq_drop, List.length_append, List.length_drop, List.drop_append,
    List.drop_drop]
  congr 2 <;> omega

end Circular
