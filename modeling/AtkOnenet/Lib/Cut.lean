import Mathlib.Data.List.Infix

/-!
# A stream cut into records

A reader collects elements until what it has collected is a complete record (`ended`), and begins the
next record. `cut` gives the records of a stream and the elements of the record begun last. Nothing of
the stream is lost (`cut_flatten`), and a record ends where it is complete for the first time
(`cut_spec`).
-/

namespace Cut

variable {α : Type} (ended : List α → Bool)

/-- One more element, behind the records `s.1` and the elements `s.2`. -/
def cutStep (s : List (List α) × List α) (x : α) : List (List α) × List α :=
  if ended (s.2 ++ [x]) then (s.1 ++ [s.2 ++ [x]], []) else (s.1, s.2 ++ [x])

/-- The records of a stream, and what is left behind them. -/
def cut (xs : List α) : List (List α) × List α := xs.foldl (cutStep ended) ([], [])

/-- No record ends in these elements. -/
def Unfinished (r : List α) : Prop := ∀ q, q <+: r → q ≠ [] → ended q = false

/-- The elements are a record, and no beginning of them is. -/
def Record (l : List α) : Prop :=
  ended l = true ∧ ∀ q, q <+: l → q ≠ [] → q ≠ l → ended q = false

variable {ended}

theorem cutStep_flatten (s : List (List α) × List α) (x : α) :
    (cutStep ended s x).1.flatten ++ (cutStep ended s x).2 = s.1.flatten ++ s.2 ++ [x] := by
  unfold cutStep
  split_ifs <;> simp

variable (ended) in
theorem cut_flatten (xs : List α) : (cut ended xs).1.flatten ++ (cut ended xs).2 = xs := by
  have h : ∀ s : List (List α) × List α, (xs.foldl (cutStep ended) s).1.flatten ++
      (xs.foldl (cutStep ended) s).2 = s.1.flatten ++ s.2 ++ xs := by
    induction xs with
    | nil =>
      intro s
      rw [List.append_nil]
      rfl
    | cons x xs ih =>
      intro s
      rw [List.foldl_cons, ih, cutStep_flatten, List.append_assoc]
      rfl
  exact h ([], [])

/-- The beginnings of a list with one more element. -/
theorem unfinished_snoc {r : List α} {x : α} (hr : Unfinished ended r) :
    ∀ q, q <+: r ++ [x] → q ≠ [] → q ≠ r ++ [x] → ended q = false := by
  intro q hq hne hlast
  rcases List.prefix_concat_iff.mp hq with h | h
  · exact absurd h hlast
  · exact hr q h hne

theorem foldl_cutStep (xs : List α) {s : List (List α) × List α}
    (hs : (∀ l ∈ s.1, Record ended l) ∧ Unfinished ended s.2) :
    (∀ l ∈ (xs.foldl (cutStep ended) s).1, Record ended l) ∧
      Unfinished ended (xs.foldl (cutStep ended) s).2 := by
  induction xs generalizing s with
  | nil => exact hs
  | cons x xs ih =>
    apply ih
    have hsnoc := unfinished_snoc (x := x) hs.2
    unfold cutStep
    split_ifs with h
    · constructor
      · intro l hl
        rcases List.mem_append.mp hl with hl | hl
        · exact hs.1 l hl
        · rw [List.mem_singleton.mp hl]
          exact ⟨h, hsnoc⟩
      · intro q hq hne
        exact absurd (List.prefix_nil.mp hq) hne
    · refine ⟨hs.1, ?_⟩
      intro q hq hne
      by_cases hlast : q = s.2 ++ [x]
      · rw [hlast]
        exact Bool.eq_false_iff.mpr h
      · exact hsnoc q hq hne hlast

variable (ended) in
theorem cut_spec (xs : List α) :
    (∀ l ∈ (cut ended xs).1, Record ended l) ∧ Unfinished ended (cut ended xs).2 := by
  apply foldl_cutStep
  constructor
  · intro l hl
    cases hl
  · intro q hq hne
    exact absurd (List.prefix_nil.mp hq) hne

end Cut
