import AtkOnenet.Lib.Links
import Mathlib.Algebra.Group.Nat.Defs

/-!
# A memory heap (`src/memheap.c`)

A memory heap is a pool that is cut into blocks, each with a header (`struct rt_memheap_item`) in front
of it. The headers of all blocks form a ring in the order of their addresses, with an empty used block
at the end of the pool, and the headers of the free blocks form a second ring with `free_header`.

A header is known by its address. The pointers of the headers are two pairs of functions on addresses,
`next` and `prev` (`blocks`), `next_free` and `prev_free` (`free`). The model is of one heap, so
`pool_ptr` is that heap in every header; `rt_malloc`, which goes on to the other heaps that are
registered, is not in it.
-/

namespace AtkOnenet.Kernel

/-- `RT_MEMHEAP_SIZE`. -/
def rtMemheapSize : Nat := 24

/-- `RT_MEMHEAP_MINIALLOC`. -/
def rtMemheapMinialloc : Nat := 12

/-- `RT_ALIGN(size, RT_ALIGN_SIZE)` on `rt_size_t`. -/
def rtAlign (size : Nat) : Nat := (size + 3) % 2 ^ 32 / 4 * 4

/-- The memory with the headers: of `magic`, whether its upper bits are `RT_MEMHEAP_MAGIC`, and the used
bit; and the four pointers. -/
structure Headers where
  magic : Nat → Bool
  used : Nat → Bool
  blocks : Links Nat
  free : Links Nat

/-- `struct rt_memheap`; `freeList` is the address of `free_header`. -/
structure MemHeap where
  startAddr : Nat
  poolSize : Nat
  availableSize : Nat
  maxUsedSize : Nat
  freeList : Nat
  headers : Headers

namespace MemHeap

/-- A write to `magic`: `RT_MEMHEAP_MAGIC` with the used bit. -/
def setUsed (h : MemHeap) (a : Nat) (u : Bool) : MemHeap :=
  { h with headers := { h.headers with magic := Function.update h.headers.magic a true,
                                       used := Function.update h.headers.used a u } }

def setBlocks (h : MemHeap) (L : Links Nat) : MemHeap :=
  { h with headers := { h.headers with blocks := L } }

def setFree (h : MemHeap) (L : Links Nat) : MemHeap :=
  { h with headers := { h.headers with free := L } }

/-- `MEMITEM_SIZE`. -/
def itemSize (h : MemHeap) (a : Nat) : Nat := h.headers.blocks.next a - a - rtMemheapSize

/-- A change of `available_size`, and of `max_used_size` after it. -/
def setAvailable (h : MemHeap) (available : Nat) : MemHeap :=
  { h with availableSize := available,
           maxUsedSize := if h.poolSize - available > h.maxUsedSize then h.poolSize - available
             else h.maxUsedSize }

end MemHeap

/-- The search on the free list, from the header `a` on. -/
def findFree (h : MemHeap) (size : Nat) : Nat → Nat → Option Nat
  | 0, _ => none
  | n + 1, a =>
    if a = h.freeList then none
    else if h.itemSize a < size then findFree h size n (h.headers.free.next a)
    else some a

/-- The header `a` removed from the free list. -/
def removeFree (h : MemHeap) (a : Nat) : MemHeap :=
  h.setFree (((h.headers.free.unlink a).setNext a 0).setPrev a 0)

/-- The header `a` put to the front of the free list. -/
def insertFree (h : MemHeap) (a : Nat) : MemHeap :=
  h.setFree (h.headers.free.insertAfter h.freeList a)

/-- A free block `new` cut off from the block `a`. -/
def splitBlock (h : MemHeap) (a new : Nat) : MemHeap :=
  (h.setUsed new false).setBlocks (h.headers.blocks.insertAfter a new)

/-- The size that `rt_memheap_alloc` looks for. -/
def allocSize (size : Nat) : Nat :=
  if rtAlign size < rtMemheapMinialloc then rtMemheapMinialloc else rtAlign size

/-- The free block `a` of `freeSize` bytes taken for `size` bytes. -/
def takeBlock (h : MemHeap) (a size freeSize : Nat) : MemHeap :=
  let h :=
    if freeSize ≥ size + rtMemheapSize + rtMemheapMinialloc then
      let new := a + size + rtMemheapSize
      let h := insertFree (removeFree (splitBlock h a new) a) new
      h.setAvailable (h.availableSize - size - rtMemheapSize)
    else removeFree (h.setAvailable (h.availableSize - freeSize)) a
  h.setUsed a true

/-- `rt_memheap_alloc`. There are fewer headers than bytes in the pool. -/
def rtMemheapAlloc (h : MemHeap) (size : Nat) : Option Nat × MemHeap :=
  let size := allocSize size
  if size < h.availableSize then
    match findFree h size h.poolSize (h.headers.free.next h.freeList) with
    | some a => (some (a + rtMemheapSize), takeBlock h a size (h.itemSize a))
    | none => (none, h)
  else (none, h)

/-- The block `a` merged with the free one before it, if there is one: the block, and whether it has
to go to the free list. -/
def mergeLeft (h : MemHeap) (a : Nat) : MemHeap × Nat × Bool :=
  let blocks := h.headers.blocks
  if h.headers.used (blocks.prev a) then (h, a, true)
  else
    let h := { h with availableSize := h.availableSize + rtMemheapSize }
    (h.setBlocks ((blocks.setNext (blocks.prev a) (blocks.next a)).setPrev (blocks.next a)
      (blocks.prev a)), blocks.prev a, false)

/-- The block `a` merged with the free one behind it, if there is one. -/
def mergeRight (h : MemHeap) (a : Nat) : MemHeap :=
  let blocks := h.headers.blocks
  let new := blocks.next a
  if h.headers.used new then h
  else
    let h := { h with availableSize := h.availableSize + rtMemheapSize }
    (h.setBlocks ((blocks.setPrev (blocks.next new) a).setNext a (blocks.next new))).setFree
      (h.headers.free.unlink new)

/-- The assertions of `rt_memheap_free`: `magic` of the block that is given back, and of the header
behind it. -/
def magicOk (m : Headers) (a : Nat) : Bool := m.magic a && m.used a && m.magic (m.blocks.next a)

/-- `rt_memheap_free`; `none` where an assertion fails. -/
def rtMemheapFree (h : MemHeap) (ptr : Nat) : Option MemHeap :=
  let a := ptr - rtMemheapSize
  if ptr = 0 then some h
  else if magicOk h.headers a then
    let h := h.setUsed a false
    let h := { h with availableSize := h.availableSize + h.itemSize a }
    let (h, a, insertHeader) := mergeLeft h a
    let h := mergeRight h a
    some (if insertHeader then insertFree h a else h)
  else none

/-- The free block behind the block `a` gives up its front part: it begins at `new` then. -/
def moveBorder (h : MemHeap) (a new : Nat) : MemHeap :=
  let next := h.headers.blocks.next a
  let h := (h.setFree (h.headers.free.unlink next)).setBlocks (h.headers.blocks.unlink next)
  insertFree (splitBlock h a new) new

/-- The end of the block `a` from `new` on becomes free, with the free block behind it. -/
def cutBlock (h : MemHeap) (a new : Nat) : MemHeap :=
  let h := splitBlock h a new
  let next := h.headers.blocks.next new
  let h :=
    if h.headers.used next then h
    else
      let h := { h with availableSize := h.availableSize - h.itemSize next }
      (h.setBlocks ((h.headers.blocks.setPrev (h.headers.blocks.next next) new).setNext new
        (h.headers.blocks.next next))).setFree (h.headers.free.unlink next)
  let h := insertFree h new
  { h with availableSize := h.availableSize + h.itemSize new }

/-- The free block behind the block `a` of `oldSize` bytes is large enough for `newSize` bytes, with
a free block left over. -/
def growsInPlace (h : MemHeap) (a oldSize newSize : Nat) : Bool :=
  let next := h.headers.blocks.next a
  !h.headers.used next && h.itemSize next + oldSize > (newSize + rtMemheapMinialloc) % 2 ^ 32

/-- `rt_memheap_realloc`; `none` where an assertion fails, its own on the order of the headers or those
of `rt_memheap_free`. What `rt_memcpy` copies is not in the model. -/
def rtMemheapRealloc (h : MemHeap) (ptr newSize : Nat) : Option (Option Nat × MemHeap) :=
  if newSize = 0 then (rtMemheapFree h ptr).map (none, ·)
  else
    let newSize := allocSize newSize
    let a := ptr - rtMemheapSize
    let oldSize := h.itemSize a
    if ptr = 0 then some (rtMemheapAlloc h newSize)
    else if newSize > oldSize then
      if h.headers.blocks.next a ≤ a then none
      else if growsInPlace h a oldSize newSize then
        some (some ptr, moveBorder (h.setAvailable (h.availableSize - (newSize - oldSize))) a
          (ptr + newSize))
      else
        match rtMemheapAlloc h newSize with
        | (none, h) => some (none, h)
        | (some new, h) => (rtMemheapFree h ptr).map (some new, ·)
    else if newSize + rtMemheapSize + rtMemheapMinialloc ≥ oldSize then some (some ptr, h)
    else some (some ptr, cutBlock h a (a + newSize + rtMemheapSize))

end AtkOnenet.Kernel
