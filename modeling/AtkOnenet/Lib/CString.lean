import Mathlib.Logic.Function.Iterate
import Mathlib.Data.List.TakeWhile

/-!
# Terminated strings in a memory

`cstr` is the string at an offset of a memory, up to the terminator `z`, and `skip` the offset behind
it. In a memory with strings packed one behind the other (`packed`), `k` skips lead to the `k`-th
string (`iterate_skip`, `cstr_packed`).
-/

namespace CString

variable {α : Type} [DecidableEq α] (z : α)

/-- The string at an offset. -/
def cstr (buf : List α) (off : Nat) : List α := (buf.drop off).takeWhile (· ≠ z)

/-- The offset behind the string and its terminator. -/
def skip (buf : List α) (off : Nat) : Nat := off + (cstr z buf off).length + 1

/-- Strings with their terminators. -/
def packed (ss : List (List α)) : List α := ss.flatMap (· ++ [z])

variable {z} {s rest : List α} {ss : List (List α)}

/-- The string before the first terminator. -/
theorem takeWhile_terminated (hs : z ∉ s) : (s ++ z :: rest).takeWhile (· ≠ z) = s := by
  rw [List.takeWhile_append_of_pos, List.takeWhile_cons_of_neg (by simp), List.append_nil]
  intro c hc
  exact decide_eq_true fun h => hs (h ▸ hc)

omit [DecidableEq α] in
theorem packed_append (ss ts : List (List α)) : packed z (ss ++ ts) = packed z ss ++ packed z ts :=
  List.flatMap_append

/-- The `k`-th string stands behind the strings before it. -/
theorem cstr_packed (hss : ∀ s ∈ ss, z ∉ s) {k : Nat} (hk : k < ss.length) :
    cstr z (packed z ss ++ rest) (packed z (ss.take k)).length = ss[k] := by
  have hsplit : packed z ss ++ rest =
      packed z (ss.take k) ++ (ss[k] ++ z :: (packed z (ss.drop (k + 1)) ++ rest)) := by
    have hdrop : packed z (ss.drop k) = ss[k] ++ z :: packed z (ss.drop (k + 1)) := by
      rw [List.drop_eq_getElem_cons hk, packed, List.flatMap_cons, List.append_assoc]
      rfl
    calc packed z ss ++ rest = packed z (ss.take k ++ ss.drop k) ++ rest := by
          rw [List.take_append_drop]
      _ = _ := by rw [packed_append, hdrop]; simp
  rw [cstr, hsplit, List.drop_left]
  exact takeWhile_terminated (hss _ (List.getElem_mem hk))

/-- The strings before the `k`-th one are skipped. -/
theorem iterate_skip (rest : List α) (hss : ∀ s ∈ ss, z ∉ s) {k : Nat} (hk : k ≤ ss.length) :
    (skip z (packed z ss ++ rest))^[k] 0 = (packed z (ss.take k)).length := by
  induction k with
  | zero => rfl
  | succ k ih =>
    rw [Function.iterate_succ_apply', ih (by omega), skip, cstr_packed hss hk,
      List.take_succ_eq_append_getElem hk, packed_append, List.length_append]
    simp [packed, Nat.add_assoc]

end CString
