import Mathlib.Data.Set.Basic
import Mathlib.Logic.Relation

/-!
# Retained pictures

A picture that is redrawn only where it may have changed. `scene` is what is to be seen, `shown` is
what the screen shows, and `dirty` are the points where the two may differ.

* `Step`: the scene changes, and the points where it does become dirty; or the dirty points are
  redrawn, with any others.
* `UpToDate.run`: in any order of steps the screen shows the scene wherever it is not dirty.
-/

namespace Retained

variable {P V : Type}

structure View (P V : Type) where
  scene : P → V
  shown : P → V
  dirty : Set P

/-- One step on a screen. -/
inductive Step (screen : Set P) : View P V → View P V → Prop where
  | change {v : View P V} (scene' : P → V) (dirty' : Set P)
    (hdirty : ∀ p ∈ screen, p ∈ v.dirty → p ∈ dirty')
    (hscene : ∀ p ∈ screen, p ∉ dirty' → scene' p = v.scene p) :
    Step screen v ⟨scene', v.shown, dirty'⟩
  | refresh {v : View P V} (shown' : P → V) (redrawn : Set P)
    (hdirty : ∀ p ∈ screen, p ∈ v.dirty → p ∈ redrawn)
    (hin : ∀ p ∈ screen, p ∈ redrawn → shown' p = v.scene p)
    (hout : ∀ p ∈ screen, p ∉ redrawn → shown' p = v.shown p) :
    Step screen v ⟨v.scene, shown', ∅⟩

/-- The screen shows the scene where it is not dirty. -/
def UpToDate (screen : Set P) (v : View P V) : Prop :=
  ∀ p ∈ screen, p ∉ v.dirty → v.shown p = v.scene p

variable {screen : Set P} {v v' : View P V}

theorem UpToDate.step (h : UpToDate screen v) (hstep : Step screen v v') : UpToDate screen v' := by
  intro p hp hclean
  cases hstep with
  | change scene' dirty' hdirty hscene =>
    have hold := h p hp fun hd => hclean (hdirty p hp hd)
    exact hold.trans (hscene p hp hclean).symm
  | refresh shown' redrawn hdirty hin hout =>
    by_cases hr : p ∈ redrawn
    · exact hin p hp hr
    · have hold := h p hp fun hd => hr (hdirty p hp hd)
      exact (hout p hp hr).trans hold

/-- In any order of steps, the screen stays up to date. -/
theorem UpToDate.run (h : UpToDate screen v) (hrun : Relation.ReflTransGen (Step screen) v v') :
    UpToDate screen v' := by
  induction hrun with
  | refl => exact h
  | tail _ hstep ih => exact ih.step hstep

/-- Where all is dirty, the screen is up to date whatever it shows. -/
theorem upToDate_of_dirty (h : ∀ p ∈ screen, p ∈ v.dirty) : UpToDate screen v :=
  fun p hp hclean => absurd (h p hp) hclean

end Retained
