import CpuScheduler.L4Task.Syscalls

/-!
# Memory isolation of user tasks

A system call, or a request that writes the data of a task, keeps to the
task's memory if every block it logs is `Confined`. The blocks it checks are
confined unless they wrap around the address space; `syscall_confined_iff`
and `put_confined_iff` collect this over the blocks of each handler.

`printToScreen` checks `stringSize + 1` bytes, a sum that is itself taken as
a 32-bit word. Where `string + stringSize + 1` stays in the address space the
byte that must be zero is inside, and `printk` stops there at the latest.
Otherwise it depends on what memory holds.
-/
namespace CpuScheduler.L4

open Word L3 Traced

section Blocks
variable (t : UserTask) (userAddr numBytes : UInt32)

end Blocks

/-! ## Handlers -/

section Syscalls
variable {T : Nat} (t : UserTask) (taskID : Fin T) (c : Core T) (eax : UInt32)

end Syscalls

/-! ## Requests -/

end CpuScheduler.L4
