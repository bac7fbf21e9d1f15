import CpuScheduler.Core.Extents
import CpuScheduler.Core.LTS
import CpuScheduler.L4Task.Syscalls

/-!
# The memory manager

The free blocks are a singly linked list in the memory they manage, sorted by
address. A block begins with a header of 8 bytes, its size and the next block;
a block that is in use has null as its next block, and zeros up to the pointer
that was handed out, so that `free` finds the header by going back to the first
byte that is not zero.

Addresses and sizes are 32-bit and wrap. A loop that would not end is `none`:
no loop passes an address twice unless it goes round for ever.
-/
namespace CpuScheduler.L7

open L3 L4

/-- Size of a header: `size` at 0, `next` at 4. -/
def HEADER_SIZE : UInt32 := 8

/-- Bound for the rounds of a loop. -/
def numAddresses : Nat := 2 ^ 32

section
variable (mem : Mem) (p v : UInt32)

def size : UInt32 := readWord mem p

def next : UInt32 := readWord mem (p + 4)

def setSize : Mem := writeWord mem p v

def setNext : Mem := writeWord mem (p + 4) v

end

structure MemoryManager where
  freeList : UInt32
  mem : Mem

/-- From `pCurrentBlock` to the first block that satisfies `stop`, or to the end;
also the block in front of it (null at the beginning of the list).
mirrors the loops of memory_manager.cpp:20-27, 54-95, 115-122 -/
def walk (mem : Mem) (stop : UInt32 → Bool) : Nat → UInt32 → UInt32 → Option (UInt32 × UInt32)
  | 0, _, _ => none
  | fuel + 1, pPreviousBlock, pCurrentBlock =>
    if pCurrentBlock = 0 then some (pPreviousBlock, pCurrentBlock)
    else if stop pCurrentBlock then some (pPreviousBlock, pCurrentBlock)
    else walk mem stop fuel pCurrentBlock (next mem pCurrentBlock)

/-- The next block becomes part of this one. mirrors memory_manager.cpp:148-149 -/
def joinNext (mem : Mem) (pCurrentBlock : UInt32) : Mem :=
  let pNextBlock := next mem pCurrentBlock
  let mem := setSize mem pCurrentBlock (size mem pCurrentBlock + (HEADER_SIZE + size mem pNextBlock))
  setNext mem pCurrentBlock (next mem pNextBlock)

/-- mirrors memory_manager.cpp:138-155 -/
def mergeLoop : Nat → Mem → UInt32 → Option Mem
  | 0, _, _ => none
  | fuel + 1, mem, pCurrentBlock =>
    if pCurrentBlock = 0 then some mem
    else
      let pNextBlock := next mem pCurrentBlock
      if pNextBlock = 0 then some mem
      else if pCurrentBlock + HEADER_SIZE + size mem pCurrentBlock = pNextBlock then
        mergeLoop fuel (joinNext mem pCurrentBlock) pCurrentBlock
      else mergeLoop fuel mem pNextBlock

/-- Backwards over zeros. mirrors memory_manager.cpp:106-109 -/
def scanBack (mem : Mem) : Nat → UInt32 → Option UInt32
  | 0, _ => none
  | fuel + 1, pMemory2 => if mem pMemory2 = 0 then scanBack mem fuel (pMemory2 - 1) else some pMemory2

namespace MemoryManager

/-- mirrors memory_manager.cpp:138-155 -/
def mergeFreeBlocks (s : MemoryManager) : Option MemoryManager :=
  (mergeLoop numAddresses s.mem s.freeList).map fun mem => { s with mem := mem }

/-- A block comes into the list, in front of the first one behind it.
mirrors memory_manager.cpp:18-40, 113-135 -/
def insertBlock (s : MemoryManager) (pBlock : UInt32) : Option MemoryManager := do
  let (pPreviousBlock, _) ← walk s.mem (fun pCurrentBlock => pCurrentBlock > pBlock) numAddresses 0 s.freeList
  let s :=
    if pPreviousBlock = 0 then { freeList := pBlock, mem := setNext s.mem pBlock s.freeList }
    else
      let mem := setNext s.mem pBlock (next s.mem pPreviousBlock)
      { s with mem := setNext mem pPreviousBlock pBlock }
  s.mergeFreeBlocks

/-- mirrors memory_manager.cpp:7-41 -/
def addContiguousMemoryRegion (s : MemoryManager) (pRegion regionSize : UInt32) : Option MemoryManager :=
  if pRegion % 4 ≠ 0 ∨ regionSize % 4 ≠ 0 then some s
  else if regionSize ≤ HEADER_SIZE then some s
  else { s with mem := setSize s.mem pRegion (regionSize - HEADER_SIZE) }.insertBlock pRegion

/-- mirrors memory_manager.cpp:56-57 -/
def alignedAddr (alignment pBlock : UInt32) : UInt32 :=
  (pBlock + HEADER_SIZE + alignment - 1) &&& ~~~(alignment - 1)

/-- The bytes that alignment costs in a block. -/
def padding (alignment pBlock : UInt32) : UInt32 := alignedAddr alignment pBlock - (pBlock + HEADER_SIZE)

/-- mirrors memory_manager.cpp:44-51 -/
def validRequest (alignment numBytes : UInt32) : Bool :=
  numBytes ≠ 0 && alignment &&& (alignment - 1) = 0 && alignment ≠ 0

/-- The block a request is served from, with the one in front of it.
mirrors memory_manager.cpp:53-60, 93-94 -/
def findBlock (s : MemoryManager) (alignment numBytes : UInt32) : Option (UInt32 × UInt32) :=
  walk s.mem (fun pBlock => size s.mem pBlock - padding alignment pBlock ≥ numBytes) numAddresses 0 s.freeList

/-- The link to `pCurrentBlock` now leads to `p`. -/
def relink (s : MemoryManager) (pPreviousBlock p : UInt32) : MemoryManager :=
  if pPreviousBlock = 0 then { s with freeList := p } else { s with mem := setNext s.mem pPreviousBlock p }

/-- mirrors memory_manager.cpp:61 -/
def possibleNextHeader (alignment numBytes pBlock : UInt32) : UInt32 :=
  (alignedAddr alignment pBlock + numBytes + 3) &&& 0xFFFFFFFC

/-- A header for the rest of a block. mirrors memory_manager.cpp:64-65 -/
def writeHeader (mem : Mem) (pRest restSize pCurrentBlock : UInt32) : Mem :=
  let mem := setSize mem pRest restSize
  setNext mem pRest (next mem pCurrentBlock)

/-- The rest of the block becomes a block of its own, if it is large enough.
mirrors memory_manager.cpp:63-81 -/
def split (s : MemoryManager) (alignment numBytes pPreviousBlock pCurrentBlock : UInt32) : MemoryManager :=
  let pRest := possibleNextHeader alignment numBytes pCurrentBlock
  let used := pRest + HEADER_SIZE - (pCurrentBlock + HEADER_SIZE)
  if used < size s.mem pCurrentBlock then
    let mem := writeHeader s.mem pRest (size s.mem pCurrentBlock - used) pCurrentBlock
    let s := { s with mem := mem }.relink pPreviousBlock pRest
    { s with mem := setSize s.mem pCurrentBlock (pRest - (pCurrentBlock + HEADER_SIZE)) }
  else s.relink pPreviousBlock (next s.mem pCurrentBlock)

/-- mirrors memory_manager.cpp:83-88 -/
def clearPadding (mem : Mem) (alignment pBlock : UInt32) : Mem :=
  writeBytes (setNext mem pBlock 0) (pBlock + HEADER_SIZE) (fun _ => 0)
    ((alignedAddr alignment pBlock).toNat - (pBlock + HEADER_SIZE).toNat)

/-- mirrors memory_manager.cpp:43-98 -/
def allocate (s : MemoryManager) (alignment numBytes : UInt32) : Option (UInt32 × MemoryManager) :=
  if validRequest alignment numBytes then do
    let (pPreviousBlock, pCurrentBlock) ← s.findBlock alignment numBytes
    if pCurrentBlock = 0 then return (0, s)
    let s := s.split alignment numBytes pPreviousBlock pCurrentBlock
    return (alignedAddr alignment pCurrentBlock, { s with mem := clearPadding s.mem alignment pCurrentBlock })
  else some (0, s)

/-- The header that `free` finds. mirrors memory_manager.cpp:105-112 -/
def headerOf (s : MemoryManager) (pMemory : UInt32) : Option UInt32 :=
  (scanBack s.mem numAddresses (pMemory - 1)).map fun pMemory2 => pMemory2 &&& 0xFFFFFFFC

/-- mirrors memory_manager.cpp:100-136 -/
def free (s : MemoryManager) (pMemory : UInt32) : Option MemoryManager :=
  if pMemory = 0 then some s
  else do
    let pMemoryHeader ← s.headerOf pMemory
    s.insertBlock pMemoryHeader

end MemoryManager

end CpuScheduler.L7
