import Hydra.Lib.ByteMem
import Hydra.Lib.Linked

/-!
# The kernel heap

The allocator of `kernal/mm.c` over a byte memory. Block headers (`struct mem_block`) live in the
memory itself, in front of their payloads, at the offsets the C compiler gives their fields, and
the functions read and write them with loads and stores in the order of the source. Addresses are
natural numbers and `0` is the null pointer; `unsigned int` values are reduced modulo `2 ^ 32` where
the C code stores or computes them in 32 bits, while expressions that contain a `sizeof` are
computed in 64 bits, as C promotes them.

The walks over the block list are the bounded loop `Linked.walk`. The bound is the number of bytes
of the heap, and a function whose walk exceeds it returns `none`; in a well-formed heap no walk
does.
-/

namespace Hydra.Mm
open ByteMem Linked

/-! ## Block headers -/

/-- `sizeof(struct mem_block)`. -/
def sizeofMemBlock : Nat := 16

/-- `block->size`, at offset 0. -/
def blkSize (m : Mem) (block : Nat) : Nat := load m block 4

/-- `block->free`, at offset 4. -/
def blkFree (m : Mem) (block : Nat) : Nat := load m (block + 4) 4

/-- `block->next`, at offset 8. -/
def blkNext (m : Mem) (block : Nat) : Nat := load m (block + 8) 8

/-- `block->size = v`. -/
def setSize (m : Mem) (block v : Nat) : Mem := store m block 4 v

/-- `block->free = v`. -/
def setFree (m : Mem) (block v : Nat) : Mem := store m (block + 4) 4 v

/-- `block->next = v`. -/
def setNext (m : Mem) (block v : Nat) : Mem := store m (block + 8) 8 v

/-! ## The allocator -/

/-- The memory and the static variables of `mm.c`. -/
structure Heap where
  mem : Mem
  heapHead : Nat
  heapStart : Nat
  heapEnd : Nat
  totalAllocated : Nat

/-- The number of loop tests allowed to a walk of the block list. -/
def Heap.fuel (h : Heap) : Nat := h.heapEnd - h.heapStart

/-- Set up the heap between two linker symbols (C `mm_init`). -/
def mmInit (h : Heap) (linkStart linkEnd : Nat) : Heap :=
  -- align heap start to 8 bytes
  let heapStart := (linkStart + 7) / 8 * 8
  let m := setSize h.mem heapStart (linkEnd - heapStart - sizeofMemBlock)
  let m := setFree m heapStart 1
  let m := setNext m heapStart 0
  { h with mem := m, heapHead := heapStart, heapStart := heapStart, heapEnd := linkEnd }

/-- `(size + 7) & ~7`, in 32-bit unsigned arithmetic. -/
def alignSize (size : UInt32) : UInt32 := (size + 7) &&& ~~~7

/-- `current->free && current->size >= size`. -/
def fits (m : Mem) (size current : Nat) : Bool :=
  blkFree m current ≠ 0 ∧ size ≤ blkSize m current

/-- Split `bestFit` if it is significantly larger than `size`. -/
def split (m : Mem) (bestFit size : Nat) : Mem :=
  if size + sizeofMemBlock + 32 < blkSize m bestFit then
    let newBlock := bestFit + sizeofMemBlock + size
    let m := setSize m newBlock (blkSize m bestFit - size - sizeofMemBlock)
    let m := setFree m newBlock 1
    let m := setNext m newBlock (blkNext m bestFit)
    let m := setSize m bestFit size
    setNext m bestFit newBlock
  else m

/-- Take the block that was found: split it, mark it used and count its bytes. -/
def take (h : Heap) (bestFit size : Nat) : Heap :=
  let m := split h.mem bestFit size
  let m := setFree m bestFit 0
  { h with mem := m, totalAllocated := (h.totalAllocated + blkSize m bestFit) % 2 ^ 32 }

/-- First-fit allocation (C `kmalloc`): the returned pointer and the heap after the call. -/
def kmalloc (h : Heap) (size : UInt32) : Option (Nat × Heap) :=
  if h.heapHead = 0 then some (0, h)
  else
    let size := (alignSize size).toNat
    match walk (blkNext h.mem) (fits h.mem size) h.fuel h.heapHead with
    | none => none
    | some bestFit =>
      if bestFit = 0 then some (0, h)
      else some (bestFit + sizeofMemBlock, take h bestFit size)

/-- Coalesce `block` with its successor if that is free. -/
def mergeNext (m : Mem) (block : Nat) : Mem :=
  let next := blkNext m block
  if next ≠ 0 ∧ blkFree m next ≠ 0 then
    let m := setSize m block (blkSize m block + (blkSize m next + sizeofMemBlock))
    setNext m block (blkNext m (blkNext m block))
  else m

/-- Coalesce `current`, the block in front of `block`, with `block` if `current` is free. -/
def mergePrev (m : Mem) (current block : Nat) : Mem :=
  if current ≠ 0 ∧ blkFree m current ≠ 0 then
    let m := setSize m current (blkSize m current + (blkSize m block + sizeofMemBlock))
    setNext m current (blkNext m block)
  else m

/-- Release a block (C `kfree`). -/
def kfree (h : Heap) (ptr : Nat) : Option Heap :=
  if ptr = 0 then some h
  else
    let block := ptr - sizeofMemBlock
    -- double free: only a warning is printed
    if blkFree h.mem block ≠ 0 then some h
    else
      let m := setFree h.mem block 1
      let total := (h.totalAllocated + (2 ^ 32 - blkSize m block)) % 2 ^ 32
      let m := mergeNext m block
      match walk (blkNext m) (fun current => blkNext m current = block) h.fuel h.heapHead with
      | none => none
      | some current =>
        some { h with mem := mergePrev m current block, totalAllocated := total }

end Hydra.Mm
