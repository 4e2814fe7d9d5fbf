import Mathlib.Data.List.Infix
import Mathlib.Logic.Function.Iterate

/-!
# Runs of a step function

A run is a fold of a step function over the inputs. `Along` says that a property of the state and
the next input holds at every step of a run, `Sometime` that it holds at one of them, `Always` that a
property of the state holds in every state that the run reaches; `Path` is a run of a step relation.

* `along_iff`: two properties that agree wherever an invariant holds agree along every run.
* `along_iterate`: a property of a part of the state that moves on by itself.
* `always_iff_along`: the condition on the steps under which a property holds always.
* `simulate`: a good run of the step function and a run of a relation that matches its steps go in
  lockstep.
-/

namespace Run

variable {σ τ ι : Type}

/-- `ok` holds at every step of the run of the inputs from `s`. -/
def Along (step : σ → ι → σ) (ok : σ → ι → Prop) : σ → List ι → Prop
  | _, [] => True
  | s, i :: is => ok s i ∧ Along step ok (step s i) is

variable {step : σ → ι → σ} {ok ok' : σ → ι → Prop} {inv : σ → Prop}

/-- Two properties that agree under an invariant of the good steps agree along runs. -/
theorem along_iff (inv : σ → Prop) (hiff : ∀ s i, inv s → (ok s i ↔ ok' s i))
    (hstep : ∀ s i, inv s → ok' s i → inv (step s i)) {s : σ} {is : List ι} (hs : inv s) :
    Along step ok s is ↔ Along step ok' s is := by
  induction is generalizing s with
  | nil => exact Iff.rfl
  | cons i is ih =>
    simp only [Along]
    rw [hiff s i hs]
    exact and_congr_right fun h => ih (hstep s i hs h)

/-- Two properties that agree everywhere agree along runs. -/
theorem along_congr (h : ∀ s i, ok s i ↔ ok' s i) (s : σ) (is : List ι) :
    Along step ok s is ↔ Along step ok' s is :=
  along_iff (fun _ => True) (fun s i _ => h s i) (fun _ _ _ _ => trivial) trivial

/-- Where `p` holds, a step moves the part `f` of the state on by `next`, whatever the input is. -/
theorem along_iterate (f : σ → τ) (next : τ → τ) {p : τ → Prop}
    (hstep : ∀ s i, p (f s) → f (step s i) = next (f s)) {s : σ} {is : List ι} :
    Along step (fun s _ => p (f s)) s is ↔ ∀ k < is.length, p (next^[k] (f s)) := by
  induction is generalizing s with
  | nil => simp [Along]
  | cons i is ih =>
    rw [Along, ih]
    constructor
    · rintro ⟨hs, h⟩ k hk
      cases k with
      | zero => exact hs
      | succ k =>
        rw [Function.iterate_succ_apply, ← hstep s i hs]
        exact h k (Nat.lt_of_succ_lt_succ hk)
    · intro h
      have hs : p (f s) := h 0 (Nat.succ_pos _)
      refine ⟨hs, ?_⟩
      intro k hk
      have hk' := h (k + 1) (Nat.succ_lt_succ hk)
      rwa [Function.iterate_succ_apply, ← hstep s i hs] at hk'

/-- `ok` holds at some step of the run of the inputs from `s`. -/
def Sometime (step : σ → ι → σ) (ok : σ → ι → Prop) : σ → List ι → Prop
  | _, [] => False
  | s, i :: is => ok s i ∨ Sometime step ok (step s i) is

theorem not_sometime {s : σ} {is : List ι} :
    ¬ Sometime step ok s is ↔ Along step (fun s i => ¬ ok s i) s is := by
  induction is generalizing s with
  | nil => simp [Sometime, Along]
  | cons i is ih => rw [Sometime, Along, not_or, ih]

theorem sometime_congr (h : ∀ s i, ok s i ↔ ok' s i) (s : σ) (is : List ι) :
    Sometime step ok s is ↔ Sometime step ok' s is := by
  rw [← not_iff_not, not_sometime, not_sometime]
  exact along_congr (fun s i => not_congr (h s i)) s is

/-- A property of the inputs alone. -/
theorem along_forall (step : σ → ι → σ) {ok : ι → Prop} (s : σ) {is : List ι} :
    Along step (fun _ => ok) s is ↔ ∀ i ∈ is, ok i := by
  induction is generalizing s with
  | nil => simp [Along]
  | cons i is ih => simp only [Along, ih, List.forall_mem_cons]

/-- `P` holds in every state that the run of the inputs from `s` reaches. -/
def Always (step : σ → ι → σ) (P : σ → Prop) (s : σ) (is : List ι) : Prop :=
  ∀ pre, pre <+: is → P (pre.foldl step s)

theorem always_cons {P : σ → Prop} {s : σ} {i : ι} {is : List ι} :
    Always step P s (i :: is) ↔ P s ∧ Always step P (step s i) is := by
  constructor
  · intro h
    refine ⟨h [] List.nil_prefix, ?_⟩
    intro pre hpre
    exact h (i :: pre) (List.cons_prefix_cons.mpr ⟨rfl, hpre⟩)
  · rintro ⟨hs, h⟩ pre hpre
    cases pre with
    | nil => exact hs
    | cons j pre =>
      obtain ⟨rfl, hpre'⟩ := List.cons_prefix_cons.mp hpre
      exact h pre hpre'

/-- If under an invariant a step leads to a state with `P` exactly if it is good, and the good steps
keep the invariant, `P` holds always exactly if all steps are good. -/
theorem always_iff_along (inv : σ → Prop) {P : σ → Prop} (hP : ∀ s, inv s → P s)
    (hiff : ∀ s i, inv s → (P (step s i) ↔ ok s i))
    (hstep : ∀ s i, inv s → ok s i → inv (step s i)) {s : σ} {is : List ι} (hs : inv s) :
    Always step P s is ↔ Along step ok s is := by
  induction is generalizing s with
  | nil =>
    constructor
    · intro _
      trivial
    · intro _ pre hpre
      rw [List.prefix_nil.mp hpre]
      exact hP s hs
  | cons i is ih =>
    rw [always_cons, Along]
    constructor
    · rintro ⟨-, h⟩
      have hi := (hiff s i hs).mp (h [] List.nil_prefix)
      exact ⟨hi, (ih (hstep s i hs hi)).mp h⟩
    · rintro ⟨hi, h⟩
      exact ⟨hP s hs, (ih (hstep s i hs hi)).mpr h⟩

/-- A run of the step relation `R`. -/
inductive Path (R : τ → ι → τ → Prop) : τ → List ι → τ → Prop where
  | nil (t : τ) : Path R t [] t
  | cons {t t' t'' : τ} {i : ι} {is : List ι} : R t i t' → Path R t' is t'' → Path R t (i :: is) t''

/-- A run of the step function from `s` and one of the relation `R` from `t` to `t'`, on the same
inputs, with `rel` between their states all along. -/
inductive Lockstep (step : σ → ι → σ) (R : τ → ι → τ → Prop) (rel : σ → τ → Prop) :
    σ → τ → List ι → τ → Prop where
  | nil {s : σ} {t : τ} : rel s t → Lockstep step R rel s t [] t
  | cons {s : σ} {t t' t'' : τ} {i : ι} {is : List ι} : rel s t → R t i t' →
    Lockstep step R rel (step s i) t' is t'' → Lockstep step R rel s t (i :: is) t''

section Simulation

variable {R : τ → ι → τ → Prop} {rel : σ → τ → Prop} {s : σ} {t t' : τ} {is : List ι}

theorem Lockstep.path (h : Lockstep step R rel s t is t') : Path R t is t' := by
  induction h with
  | nil _ => exact .nil _
  | cons _ hR _ ih => exact .cons hR ih

theorem Lockstep.last (h : Lockstep step R rel s t is t') : rel (is.foldl step s) t' := by
  induction h with
  | nil hrel => exact hrel
  | cons _ _ _ ih => exact ih

/-- **Simulation.** If the relation `rel` matches every good step by a step of `R`, a good run and a
run of `R` go in lockstep. -/
theorem simulate
    (hstep : ∀ s t i, rel s t → ok s i → ∃ t', R t i t' ∧ rel (step s i) t')
    (hs : rel s t) (h : Along step ok s is) : ∃ t', Lockstep step R rel s t is t' := by
  induction is generalizing s t with
  | nil => exact ⟨t, .nil hs⟩
  | cons i is ih =>
    obtain ⟨t₁, h₁, hs₁⟩ := hstep s t i hs h.1
    obtain ⟨t₂, h₂⟩ := ih hs₁ h.2
    exact ⟨t₂, .cons hs h₁ h₂⟩

end Simulation

end Run
