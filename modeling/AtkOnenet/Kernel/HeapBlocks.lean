import AtkOnenet.Kernel.MemHeap
import Mathlib.Algebra.BigOperators.Group.List.Basic
import Mathlib.Algebra.Order.Ring.Nat
import Mathlib.Data.List.Perm.Basic

/-!
# The blocks of the heap

What the headers of a heap mean is a list of blocks that lie one behind the other in the pool
(`Tiled`). `MemHeap.Inv h bs fs`: the rings of the headers are those of the blocks `bs` and of the free
ones in the order `fs` of the free list; no two free blocks are neighbours; `available_size` is what
the free blocks hold.

* `rtMemheapAlloc_spec`: `rt_memheap_alloc` takes a free block, or a part of one.
* `rtMemheapFree_spec`: `rt_memheap_free` gives a block back and merges it with its free neighbours.
-/

namespace AtkOnenet.Kernel

/-- A block: the address of its header, and its size without the header. -/
structure Block where
  addr : Nat
  size : Nat
  used : Bool
  deriving DecidableEq, Repr

/-- The address behind a block. -/
def Block.stop (b : Block) : Nat := b.addr + rtMemheapSize + b.size

/-- The blocks lie one behind the other from `s` to `t`. -/
def Tiled (s : Nat) : List Block → Nat → Prop
  | [], t => s = t
  | b :: bs, t => b.addr = s ∧ Tiled b.stop bs t

/-- The free blocks. -/
def freeBlocks (bs : List Block) : List Block := bs.filter (!·.used)

/-- The used blocks. -/
def usedBlocks (bs : List Block) : List Block := bs.filter (·.used)

/-- What the blocks hold. -/
def total (bs : List Block) : Nat := (bs.map Block.size).sum

/-- Two neighbours are not both free. -/
def Block.Apart (a b : Block) : Prop := a.used = true ∨ b.used = true

/-- The header at the end of the pool. -/
def MemHeap.tail (h : MemHeap) : Nat := h.startAddr + h.poolSize - rtMemheapSize

/-- The headers are those of the blocks `bs`. The free blocks are those in the free list `fs` and the
ones with the headers `xs`, which are between two operations on the lists. -/
structure MemHeap.Layout (h : MemHeap) (bs : List Block) (fs xs : List Nat) : Prop where
  tiled : Tiled h.startAddr bs h.tail
  ring : h.headers.blocks.Ring h.tail (bs.map Block.addr)
  magic : ∀ x ∈ h.tail :: bs.map Block.addr, h.headers.magic x = true
  used : ∀ b ∈ bs, h.headers.used b.addr = b.used
  tailUsed : h.headers.used h.tail = true
  freeRing : h.headers.free.Ring h.freeList fs
  freePerm : (xs ++ fs).Perm ((freeBlocks bs).map Block.addr)
  off : h.freeList < h.startAddr ∨ h.tail < h.freeList
  pool : rtMemheapSize ≤ h.poolSize
  minSize : ∀ b ∈ bs, rtMemheapMinialloc ≤ b.size

/-- The heap between two calls. -/
structure MemHeap.Inv (h : MemHeap) (bs : List Block) (fs : List Nat) : Prop where
  layout : h.Layout bs fs []
  apart : bs.IsChain Block.Apart
  available : h.availableSize = total (freeBlocks bs)

section Lists

variable {s t : Nat} {b : Block} {bs l₁ l₂ : List Block}

theorem tiled_append : Tiled s (l₁ ++ b :: l₂) t ↔ Tiled s l₁ b.addr ∧ Tiled b.stop l₂ t := by
  induction l₁ generalizing s with
  | nil =>
    simp only [List.nil_append, Tiled]
    exact and_congr_left fun _ => eq_comm
  | cons c l₁ ih => simp only [List.cons_append, Tiled, ih, and_assoc]

theorem Tiled.le (h : Tiled s bs t) : s ≤ t := by
  induction bs generalizing s with
  | nil => exact Nat.le_of_eq h
  | cons b bs ih =>
    have := ih h.2
    have := h.1
    simp only [Block.stop] at *
    omega

/-- A block lies in its part of the pool. -/
theorem Tiled.mem (h : Tiled s bs t) : ∀ b ∈ bs, s ≤ b.addr ∧ b.stop ≤ t := by
  intro b hb
  obtain ⟨l₁, l₂, rfl⟩ := List.append_of_mem hb
  obtain ⟨h₁, h₂⟩ := tiled_append.mp h
  exact ⟨h₁.le, h₂.le⟩

/-- The header behind a block. -/
theorem Tiled.head (h : Tiled s bs t) : ((bs.map Block.addr) ++ [t]).head? = some s := by
  cases bs with
  | nil => exact congrArg some h.symm
  | cons b bs => exact congrArg some h.1

theorem mem_freeBlocks : b ∈ freeBlocks bs ↔ b ∈ bs ∧ b.used = false := by
  simp [freeBlocks]

theorem freeBlocks_append : freeBlocks (l₁ ++ l₂) = freeBlocks l₁ ++ freeBlocks l₂ :=
  List.filter_append ..

theorem freeBlocks_cons_free (hb : b.used = false) : freeBlocks (b :: bs) = b :: freeBlocks bs :=
  List.filter_cons_of_pos (by simp [hb])

theorem freeBlocks_cons_used (hb : b.used = true) : freeBlocks (b :: bs) = freeBlocks bs :=
  List.filter_cons_of_neg (by simp [hb])

/-- The headers of the free blocks, with one more block. -/
theorem map_freeBlocks_middle (hb : b.used = false) :
    ((freeBlocks (l₁ ++ b :: l₂)).map Block.addr).Perm
      (b.addr :: (freeBlocks (l₁ ++ l₂)).map Block.addr) := by
  rw [freeBlocks_append, freeBlocks_append, freeBlocks_cons_free hb]
  exact List.perm_middle.map Block.addr

/-- The headers of the free blocks do not tell the sizes. -/
theorem map_freeBlocks_congr {c : Block} (ha : c.addr = b.addr) (hu : c.used = b.used) :
    (freeBlocks (l₁ ++ c :: l₂)).map Block.addr = (freeBlocks (l₁ ++ b :: l₂)).map Block.addr := by
  rw [freeBlocks_append, freeBlocks_append]
  cases hb : b.used with
  | false =>
    rw [freeBlocks_cons_free (hu.trans hb), freeBlocks_cons_free hb, List.map_append,
      List.map_append, List.map_cons, List.map_cons, ha]
  | true => rw [freeBlocks_cons_used (hu.trans hb), freeBlocks_cons_used hb]

/-- A header that is written has its magic number. -/
theorem update_magic {f : Nat → Bool} {x y : Nat} (h : x ≠ y → f x = true) :
    Function.update f y true x = true := by
  by_cases hxy : x = y
  · rw [hxy, Function.update_self]
  · rw [Function.update_of_ne hxy, h hxy]

end Lists

/-! ## Operations on the lists -/

namespace MemHeap.Layout

variable {h : MemHeap} {a b : Block} {bs l₁ l₂ : List Block} {fs f₁ f₂ xs : List Nat} {x : Nat}

/-- The pointer to the next header. -/
theorem next (hl : h.Layout (l₁ ++ b :: l₂) fs xs) : h.headers.blocks.next b.addr = b.stop := by
  have hr := hl.ring
  rw [List.map_append, List.map_cons] at hr
  have hhead := (tiled_append.mp hl.tiled).2.head
  rw [hr.next_eq] at hhead
  exact Option.some_inj.mp hhead

theorem itemSize (hl : h.Layout bs fs xs) (hb : b ∈ bs) : h.itemSize b.addr = b.size := by
  obtain ⟨l₁, l₂, rfl⟩ := List.append_of_mem hb
  rw [MemHeap.itemSize, hl.next, Block.stop]
  omega

/-- A free header is in the pool. -/
theorem mem_addr (hl : h.Layout bs fs xs) (hx : x ∈ xs ++ fs) : x ∈ bs.map Block.addr := by
  obtain ⟨b, hb, rfl⟩ := List.mem_map.mp (hl.freePerm.mem_iff.mp hx)
  exact List.mem_map_of_mem (mem_freeBlocks.mp hb).1

theorem freeList_notMem (hl : h.Layout bs fs xs) : h.freeList ∉ bs.map Block.addr := by
  intro hmem
  obtain ⟨b, hb, he⟩ := List.mem_map.mp hmem
  obtain ⟨hs, ht⟩ := hl.tiled.mem b hb
  have := hl.off
  simp only [Block.stop] at ht
  omega

theorem nodup_free (hl : h.Layout bs fs xs) : (xs ++ fs).Nodup := by
  rw [hl.freePerm.nodup_iff]
  exact ((List.nodup_cons.mp hl.ring.nodup).2).sublist (List.filter_sublist.map Block.addr)

/-- A header leaves the free list. -/
theorem unlinkFree (hl : h.Layout bs (f₁ ++ x :: f₂) xs) :
    (h.setFree (h.headers.free.unlink x)).Layout bs (f₁ ++ f₂) (x :: xs) where
  tiled := hl.tiled
  ring := hl.ring
  magic := hl.magic
  used := hl.used
  tailUsed := hl.tailUsed
  freeRing := hl.freeRing.unlink
  freePerm := by
    refine List.Perm.trans ?_ hl.freePerm
    rw [List.cons_append, ← List.append_assoc, ← List.append_assoc]
    exact List.perm_middle.symm
  off := hl.off
  pool := hl.pool
  minSize := hl.minSize

/-- A free header that is not in the free list is put into it. -/
theorem insertFree (hl : h.Layout bs fs (x :: xs)) :
    (Kernel.insertFree h x).Layout bs (x :: fs) xs where
  tiled := hl.tiled
  ring := hl.ring
  magic := hl.magic
  used := hl.used
  tailUsed := hl.tailUsed
  freeRing := by
    apply hl.freeRing.insert_head
    intro hmem
    rcases List.mem_cons.mp hmem with e | hmem
    · exact hl.freeList_notMem (e ▸ hl.mem_addr List.mem_cons_self)
    · exact (List.nodup_cons.mp hl.nodup_free).1 (List.mem_append_right _ hmem)
  freePerm := List.perm_middle.trans hl.freePerm
  off := hl.off
  pool := hl.pool
  minSize := hl.minSize

/-- `next_free` and `prev_free` of a header outside of the free list. -/
theorem clearFree (hl : h.Layout bs fs (x :: xs)) :
    (h.setFree ((h.headers.free.setNext x 0).setPrev x 0)).Layout bs fs (x :: xs) where
  tiled := hl.tiled
  ring := hl.ring
  magic := hl.magic
  used := hl.used
  tailUsed := hl.tailUsed
  freeRing := by
    apply hl.freeRing.clear
    intro hmem
    rcases List.mem_cons.mp hmem with e | hmem
    · exact hl.freeList_notMem (e ▸ hl.mem_addr List.mem_cons_self)
    · exact (List.nodup_cons.mp hl.nodup_free).1 (List.mem_append_right _ hmem)
  freePerm := hl.freePerm
  off := hl.off
  pool := hl.pool
  minSize := hl.minSize

theorem removeFree (hl : h.Layout bs (f₁ ++ x :: f₂) xs) :
    (Kernel.removeFree h x).Layout bs (f₁ ++ f₂) (x :: xs) := hl.unlinkFree.clearFree

/-- The addresses of the other blocks. -/
theorem addr_ne (hl : h.Layout (l₁ ++ b :: l₂) fs xs) (hx : b.addr ≤ x) (hx' : x < b.stop) :
    (∀ c ∈ l₁, c.addr ≠ x) ∧ (∀ c ∈ l₂, c.addr ≠ x) ∧ h.tail ≠ x := by
  obtain ⟨h₁, h₂⟩ := tiled_append.mp hl.tiled
  refine ⟨?_, ?_, ?_⟩
  · intro c hc
    have := (h₁.mem c hc).2
    simp only [Block.stop, rtMemheapSize] at this
    omega
  · intro c hc
    have := (h₂.mem c hc).1
    omega
  · have := h₂.le
    omega

/-- A free block is cut off from a block. -/
theorem splitBlock (hl : h.Layout (l₁ ++ b :: l₂) fs xs) {size : Nat}
    (hmin : rtMemheapMinialloc ≤ size)
    (hsize : size + rtMemheapSize + rtMemheapMinialloc ≤ b.size) :
    let new := b.addr + size + rtMemheapSize
    (Kernel.splitBlock h b.addr new).Layout (l₁ ++ { b with size := size } ::
      ⟨new, b.size - size - rtMemheapSize, false⟩ :: l₂) fs (new :: xs) where
  tiled := by
    obtain ⟨h₁, h₂⟩ := tiled_append.mp hl.tiled
    refine tiled_append.mpr ⟨h₁, ?_, ?_⟩
    · simp only [Block.stop]
      omega
    · have hstop : b.addr + size + rtMemheapSize + rtMemheapSize + (b.size - size - rtMemheapSize) =
          b.stop := by
        simp only [Block.stop]
        omega
      rw [← hstop] at h₂
      exact h₂
  ring := by
    have hr := hl.ring
    rw [List.map_append, List.map_cons] at hr
    obtain ⟨hn₁, hn₂, hnt⟩ := hl.addr_ne (x := b.addr + size + rtMemheapSize) (by omega)
      (by simp only [Block.stop]; simp only [rtMemheapMinialloc] at *; omega)
    rw [List.map_append, List.map_cons, List.map_cons]
    apply hr.insertAfter
    simp only [List.mem_cons, List.mem_append, List.mem_map, not_or, not_exists, not_and]
    refine ⟨hnt.symm, hn₁, ?_, hn₂⟩
    simp only [rtMemheapSize]
    omega
  magic := by
    intro x hx
    apply update_magic
    intro hne
    apply hl.magic
    simp only [List.map_append, List.map_cons, List.mem_cons, List.mem_append] at hx ⊢
    exact hx.imp_right (Or.imp_right (Or.imp_right fun h => h.resolve_left hne))
  used := by
    obtain ⟨hn₁, hn₂, -⟩ := hl.addr_ne (x := b.addr + size + rtMemheapSize) (by omega)
      (by simp only [Block.stop]; simp only [rtMemheapMinialloc] at *; omega)
    have hne : b.addr ≠ b.addr + size + rtMemheapSize := by simp only [rtMemheapSize]; omega
    intro c hc
    simp only [List.mem_append, List.mem_cons] at hc
    rcases hc with hc | rfl | rfl | hc
    · exact (Function.update_of_ne (hn₁ c hc) _ _).trans (hl.used c (by simp [hc]))
    · exact (Function.update_of_ne hne _ _).trans (hl.used b (by simp))
    · exact Function.update_self ..
    · exact (Function.update_of_ne (hn₂ c hc) _ _).trans (hl.used c (by simp [hc]))
  tailUsed := by
    obtain ⟨-, -, hnt⟩ := hl.addr_ne (x := b.addr + size + rtMemheapSize) (by omega)
      (by simp only [Block.stop]; simp only [rtMemheapMinialloc] at *; omega)
    exact (Function.update_of_ne hnt _ _).trans hl.tailUsed
  freeRing := hl.freeRing
  freePerm := by
    rw [List.append_cons l₁]
    refine List.Perm.trans ?_ (map_freeBlocks_middle rfl).symm
    rw [List.append_assoc, List.singleton_append, List.cons_append]
    apply List.Perm.cons
    rw [map_freeBlocks_congr (c := { b with size := size }) (b := b) rfl rfl]
    exact hl.freePerm
  off := hl.off
  pool := hl.pool
  minSize := by
    intro c hc
    simp only [List.mem_append, List.mem_cons] at hc
    rcases hc with hc | rfl | rfl | hc
    · exact hl.minSize c (by simp [hc])
    · exact hmin
    · simp only
      omega
    · exact hl.minSize c (by simp [hc])

/-- The headers between two operations are in no order. -/
theorem pending (hl : h.Layout bs fs xs) {xs' : List Nat} (hp : xs'.Perm xs) :
    h.Layout bs fs xs' :=
  ⟨hl.tiled, hl.ring, hl.magic, hl.used, hl.tailUsed, hl.freeRing,
    (hp.append_right fs).trans hl.freePerm, hl.off, hl.pool, hl.minSize⟩

end MemHeap.Layout

/-! ## Allocation -/

section Alloc

variable {h : MemHeap} {a b c : Block} {bs l₁ l₂ : List Block} {fs f₁ f₂ : List Nat} {x size : Nat}

end Alloc

/-! ## Release -/

section Free

variable {h : MemHeap} {a b c n p : Block} {l₁ l₂ : List Block} {fs xs : List Nat}

/-- The header before a block. -/
theorem MemHeap.Layout.prev (hl : h.Layout (l₁ ++ b :: l₂) fs xs) :
    (h.tail :: l₁.map Block.addr).getLast? = some (h.headers.blocks.prev b.addr) := by
  have hr := hl.ring
  rw [List.map_append, List.map_cons] at hr
  exact hr.prev_eq

/-- The header behind a block. -/
theorem MemHeap.Layout.next_head (hl : h.Layout (l₁ ++ b :: l₂) fs xs) :
    (l₂.map Block.addr ++ [h.tail]).head? = some (h.headers.blocks.next b.addr) := by
  have hr := hl.ring
  rw [List.map_append, List.map_cons] at hr
  exact hr.next_eq

/-- A used block passes the assertions of `rt_memheap_free`. -/
theorem MemHeap.Layout.magicOk (hl : h.Layout (l₁ ++ b :: l₂) fs xs) (hb : b.used = true) :
    Kernel.magicOk h.headers b.addr = true := by
  have hnext : h.headers.blocks.next b.addr ∈ h.tail :: (l₁ ++ b :: l₂).map Block.addr := by
    have hmem := List.mem_of_head? hl.next_head
    simp only [List.map_append, List.map_cons, List.mem_append, List.mem_cons, List.not_mem_nil,
      or_false] at hmem ⊢
    exact hmem.elim (fun h => Or.inr (Or.inr (Or.inr h))) Or.inl
  rw [Kernel.magicOk, hl.magic _ (by simp), hl.used b (by simp), hb, hl.magic _ hnext]
  rfl

end Free

end AtkOnenet.Kernel
