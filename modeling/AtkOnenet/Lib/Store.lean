import Mathlib.Logic.Function.Iterate
import Mathlib.Data.List.GetD

/-!
# Values stored along a path

`storeAlong mem path vs` stores the values `vs` one after the other, the `k`-th one in the cell
`path k`. A cell off the path keeps its value (`storeAlong_of_ne`); on a path that does not visit a
cell twice every value stays (`storeAlong_get`).

`storeStep` is one store with a cursor that an operation moves on after each store, as memories with
an auto-incremented address do.
-/

namespace Store

variable {α β γ : Type} [DecidableEq α]

/-- The memory after the values `vs` are stored in the cells `path 0`, `path 1`, … -/
def storeAlong (mem : α → β) (path : Nat → α) : List β → α → β
  | [] => mem
  | v :: vs => storeAlong (Function.update mem (path 0) v) (fun k => path (k + 1)) vs

theorem storeAlong_of_ne {mem : α → β} {path : Nat → α} {vs : List β} {a : α}
    (h : ∀ k < vs.length, a ≠ path k) : storeAlong mem path vs a = mem a := by
  induction vs generalizing mem path with
  | nil => rfl
  | cons v vs ih =>
    rw [storeAlong, ih fun k hk => h (k + 1) (by simpa using hk),
      Function.update_of_ne (h 0 (by simp))]

theorem storeAlong_get {mem : α → β} {path : Nat → α} {vs : List β}
    (hinj : ∀ i j, i < vs.length → j < vs.length → path i = path j → i = j) {k : Nat}
    (hk : k < vs.length) : storeAlong mem path vs (path k) = vs[k] := by
  induction vs generalizing mem path k with
  | nil => simp at hk
  | cons v vs ih =>
    rw [storeAlong]
    cases k with
    | zero =>
      rw [storeAlong_of_ne, Function.update_self, List.getElem_cons_zero]
      intro j hj e
      exact absurd (hinj 0 (j + 1) hk (by simpa using hj) e) (by omega)
    | succ k =>
      have h := @ih (Function.update mem (path 0) v) (fun k => path (k + 1))
        (fun i j hi hj e => by
          have := hinj (i + 1) (j + 1) (by simpa using hi) (by simpa using hj) e
          omega) (k := k) (by simpa using hk)
      rw [h, List.getElem_cons_succ]

/-- One store through a cursor: `cell` is where it points, `next` moves it on. -/
def storeStep (cell : γ → α) (next : γ → γ) (s : (α → β) × γ) (v : β) : (α → β) × γ :=
  (Function.update s.1 (cell s.2) v, next s.2)

/-- Stores through a cursor go along the path of the cursor. -/
theorem foldl_storeStep (cell : γ → α) (next : γ → γ) (mem : α → β) (c : γ) (vs : List β) :
    vs.foldl (storeStep cell next) (mem, c) =
      (storeAlong mem (fun k => cell (next^[k] c)) vs, next^[vs.length] c) := by
  induction vs generalizing mem c with
  | nil => rfl
  | cons v vs ih =>
    rw [List.foldl_cons, storeStep, ih, storeAlong]
    rfl

end Store
