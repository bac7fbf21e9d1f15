import CpuScheduler.L1Memory.PageRegions
import CpuScheduler.L1Memory.TaskSpace
import CpuScheduler.L4Task.Syscalls

/-!
# Tasks from construction to destruction

The constructors of `UserTask` and `KernelTask` (cpu_core.cpp) ask the page
allocator for memory and keep the address. Every other function takes 0 for
"no memory". The allocator returns `0xFFC00000` (`FAILURE`) if it fails, which
is not 0, so a task whose allocation failed counts as initialised: its paging
structures are built in the window through which the kernel sees its own page
tables. `uninitialised_iff` says that a task is left uninitialised exactly if
its constructor did not ask.

The lists of task descriptors are lists of their indices. Blocks of memory are
logged at kernel addresses. What the source leaves uninitialised and what the
processor contributes are in `Machine`.
-/
namespace CpuScheduler.L4

open L1 L1.PageAllocator L3

def USER_TASK_USER_STACK_OFFSET : Nat :=
  sizeofPageDirectory + 2 * sizeofPageTable + KERNEL_STACK_SIZE + USER_STACK_SIZE - 4

def MAX_TASK_ARGS : Nat := 5

/-- `InterruptType::PITTimer` -/
def PITTimer : UInt32 := 32

structure TaskDescriptor where
  taskEsp : UInt32
  kernelEspStackBegin : UInt32
  pageDirectoryPhysicalAddr : UInt32

inductive SetToRunningStateResponse where
  | SUCCESS
  | TASK_ALREADY_RUNNING
  | TASK_NOT_PROPERLY_INITIALIZED
  | TOO_MANY_TASKS
  deriving DecidableEq, Repr

structure CpuCore (T : Nat) where
  isRunning : Bool
  currentPageDirectory : UInt32
  kernelPageDirectoryPhysicalAddr : UInt32
  kernelPageAllocator : PageAllocator
  unusedTasks : List (Fin T)
  activeTasks : List (Fin T × TaskDescriptor)
  socketManager : SocketManager T
  mem : Mem

/-- The paging structures in force, the words behind the page directory, the
registers and the values that nobody set. -/
structure Machine where
  kernel : Kernel
  garbage : Garbage
  behind : Nat → UInt32
  eflags : UInt32
  esp : UInt32
  ebp : UInt32
  esi : UInt32
  edi : UInt32
  interruptHandlerReturn : UInt32
  uninit : UInt32

/-- The fields of `Task`; `taskID` is `none` for -1. -/
structure TaskState (T : Nat) where
  taskID : Option (Fin T)
  isRunning : Bool

structure TaskArguments where
  args : Nat → UInt32
  numArgs : Nat

/-! ## Memory -/

def storeWord (mem : Mem) (a v : UInt32) : Traced Access Mem := do
  Traced.emit [.kernel a.toNat 4]
  return writeWord mem a v

/-- `n` words from address `a` on. -/
def storeWords (mem : Mem) (a : UInt32) (words : Nat → UInt32) (n : Nat) : Traced Access Mem := do
  Traced.emit [.kernel a.toNat (4 * n)]
  return writeBytes mem a (fun k => (words (k / 4) >>> (8 * UInt32.ofNat (k % 4))).toUInt8) (4 * n)

def pushAll : List UInt32 → UInt32 → Mem → Traced Access (UInt32 × Mem)
  | [], esp, mem => return (esp, mem)
  | w :: ws, esp, mem => do
    let mem ← storeWord mem (esp - 4) w
    pushAll ws (esp - 4) mem

/-- The arguments, the last one first, and the return address 0.
mirrors cpu_core.cpp:611-616, 714-719 -/
def storeArguments : List UInt32 → UInt32 → Mem → Traced Access (UInt32 × Mem)
  | [], stack, mem => do
    let mem ← storeWord mem stack 0
    return (stack, mem)
  | w :: ws, stack, mem => do
    let mem ← storeWord mem stack w
    storeArguments ws (stack - 4) mem

def TaskArguments.reversed (a : TaskArguments) : List UInt32 :=
  (List.range a.numArgs).map fun i => a.args (a.numArgs - 1 - i)

namespace Machine

/-- `pusha` -/
def pusha (m : Machine) (eax ecx ebx esp : UInt32) : List UInt32 :=
  [eax, ecx, m.esp, ebx, esp, m.ebp, m.esi, m.edi]

/-- mirrors interrupt_handler_manager_assembly.asm:512-554 -/
def createIntStackForUserPriv (m : Machine) (kernelStack userStack processEntry intNumber : UInt32) (mem : Mem) :
    Traced Access (UInt32 × Mem) :=
  pushAll ([(4 * 8) ||| 3, userStack, m.eflags, (3 * 8) ||| 3, processEntry, 0, intNumber] ++
    m.pusha intNumber kernelStack processEntry (kernelStack - 28) ++
    [(4 * 8) ||| 3, 0, 0, m.interruptHandlerReturn]) kernelStack mem

/-- mirrors interrupt_handler_manager_assembly.asm:559-598 -/
def createIntStackForKernelPriv (m : Machine) (kernelStack processEntry intNumber : UInt32) (mem : Mem) :
    Traced Access (UInt32 × Mem) :=
  pushAll ([m.eflags, 1 * 8, processEntry, 0, intNumber] ++
    m.pusha intNumber kernelStack processEntry (kernelStack - 20) ++
    [2 * 8, 0, 0, m.interruptHandlerReturn]) kernelStack mem

end Machine

/-! ## What both kinds of tasks do -/

section Common
variable {T : Nat}

/-- `memory` is the task's memory, 0 for none.
mirrors cpu_core.cpp:555-584, 674-703 -/
def startTask (memory : UInt32) (descriptor : TaskDescriptor) (t : TaskState T) (c : CpuCore T) :
    SetToRunningStateResponse × TaskState T × CpuCore T :=
  if t.isRunning then (.TASK_ALREADY_RUNNING, t, c)
  else if memory = 0 then (.TASK_NOT_PROPERLY_INITIALIZED, t, c)
  else
    match c.unusedTasks with
    | [] => (.TOO_MANY_TASKS, t, c)
    | taskID :: unusedTasks =>
      (.SUCCESS, ⟨some taskID, true⟩,
        { c with unusedTasks := unusedTasks, activeTasks := (taskID, descriptor) :: c.activeTasks })

/-- mirrors cpu_core.cpp:525-553, 644-672 -/
def destroyTask (memory : UInt32) (t : TaskState T) (c : CpuCore T) : Option (CpuCore T) := do
  let c ← match t.taskID with
    | none => some c
    | some taskID =>
      let c := if t.isRunning then
          { c with
            activeTasks := c.activeTasks.filter fun task => task.1 ≠ taskID
            unusedTasks := taskID :: c.unusedTasks }
        else c
      (c.socketManager.closeAllSocketsForTask taskID).map fun manager => { c with socketManager := manager }
  if memory ≠ 0 then
    some { c with kernelPageAllocator := c.kernelPageAllocator.freeContiguousPages memory.toNat }
  else some c

/-- The allocator is asked for `numPages` pages if `asks`; otherwise the memory is 0. -/
def askForPages (m : Machine) (asks : Bool) (numPages : UInt32) (c : CpuCore T) : Option (UInt32 × CpuCore T) :=
  if asks then
    (c.kernelPageAllocator.allocateContiguousPages m.behind numPages).map
      fun r => (UInt32.ofNat r.1, { c with kernelPageAllocator := r.2 })
  else some (0, c)

end Common

/-! ## User tasks -/

structure UserTaskObject (T : Nat) where
  task : TaskState T
  taskSpaceBeginVirtualAddr : UInt32
  pTask8MBRegion : UInt32
  updatedKernelStack : UInt32

namespace UserTaskObject

variable {T : Nat}

/-- When the constructor asks the allocator. -/
def asks (c : CpuCore T) (taskSpaceBeginVirtualAddr : UInt32) : Bool :=
  c.isRunning && c.currentPageDirectory == c.kernelPageDirectoryPhysicalAddr &&
    taskSpaceBeginVirtualAddr.toNat % (4096 * 1024) == 0

/-- The paging structures at the begin of the region. -/
def storePaging (m : Machine) (taskSpaceBeginVirtualAddr pTask8MBRegion : UInt32) (mem : Mem) :
    Traced Access Mem := do
  let p := newUserTask m.kernel m.garbage pTask8MBRegion taskSpaceBeginVirtualAddr
  let mem ← storeWords mem pTask8MBRegion (fun i =>
    if i < 1024 then p.pTaskPageDirectory.pageDirectoryEntries i
    else p.pTaskPageDirectory.helperTableEntries (i - 1024)) 2048
  let mem ← storeWords mem (pTask8MBRegion + 0x2000) p.taskPageTable1 1024
  storeWords mem (pTask8MBRegion + 0x3000) p.taskPageTable2 1024

/-- mirrors cpu_core.cpp:448-523 -/
def new (m : Machine) (c : CpuCore T) (taskSpaceBeginVirtualAddr : UInt32) :
    Traced Access (Option (UserTaskObject T × CpuCore T)) := do
  match askForPages m (asks c taskSpaceBeginVirtualAddr) (1024 * 2) c with
  | none => return none
  | some (pTask8MBRegion, c) =>
    let t : UserTaskObject T := ⟨⟨none, false⟩, taskSpaceBeginVirtualAddr, pTask8MBRegion, m.uninit⟩
    if pTask8MBRegion ≠ 0 then
      let mem ← storePaging m taskSpaceBeginVirtualAddr pTask8MBRegion c.mem
      return some (t, { c with mem := mem })
    return some (t, c)

/-- mirrors cpu_core.cpp:555-584 -/
def setToRunningState (m : Machine) (t : UserTaskObject T) (c : CpuCore T) :
    SetToRunningStateResponse × UserTaskObject T × CpuCore T :=
  let (response, task, c) := startTask t.pTask8MBRegion
    ⟨t.updatedKernelStack - t.pTask8MBRegion + t.taskSpaceBeginVirtualAddr,
      t.taskSpaceBeginVirtualAddr + UInt32.ofNat USER_TASK_KERNEL_STACK_OFFSET,
      m.kernel.translateVirtualToPhysicalAddress (m.garbage.addr 0) t.pTask8MBRegion⟩ t.task c
  (response, { t with task := task }, c)

/-- mirrors cpu_core.cpp:606-621 -/
def setTaskArguments (m : Machine) (t : UserTaskObject T) (taskArgs : TaskArguments) (mem : Mem) :
    Traced Access (UserTaskObject T × Mem) := do
  if taskArgs.numArgs > MAX_TASK_ARGS then return (t, mem)
  if t.pTask8MBRegion = 0 then return (t, mem)
  let (userEspStackBegin, mem) ← storeArguments taskArgs.reversed
    (t.pTask8MBRegion + UInt32.ofNat USER_TASK_USER_STACK_OFFSET) mem
  let (updatedKernelStack, mem) ← m.createIntStackForUserPriv
    (t.pTask8MBRegion + UInt32.ofNat USER_TASK_KERNEL_STACK_OFFSET)
    (userEspStackBegin - t.pTask8MBRegion + t.taskSpaceBeginVirtualAddr)
    (t.taskSpaceBeginVirtualAddr + UInt32.ofNat (0x4000 + KERNEL_STACK_SIZE + USER_STACK_SIZE)) PITTimer mem
  return ({ t with updatedKernelStack := updatedKernelStack }, mem)

/-- The same check as `UserTask.setData`, for a task whose memory may be
anywhere. mirrors cpu_core.cpp:623-632 -/
def setData (t : UserTaskObject T) (mem : Mem) (userAddr : UInt32) (data : Nat → UInt8) (numBytes : UInt32) :
    Traced Access (Bool × Mem) := do
  if userAddr < t.taskSpaceBeginVirtualAddr + UInt32.ofNat USER_TASK_PROCESS_ENTRY_OFFSET ∨
      userAddr + numBytes > t.taskSpaceBeginVirtualAddr + 0x800000 then return (false, mem)
  if t.pTask8MBRegion = 0 then return (false, mem)
  let start := userAddr + (t.pTask8MBRegion - t.taskSpaceBeginVirtualAddr)
  Traced.emit [.kernel start.toNat numBytes.toNat]
  return (true, writeBytes mem start data numBytes.toNat)

theorem setData_eq (t : UserTask) (task : TaskState T) (stack : UInt32) :
    (⟨task, t.taskSpaceBeginVirtualAddr, t.pTask8MBRegion, stack⟩ : UserTaskObject T).setData = t.setData := rfl

/-- mirrors cpu_core.cpp:525-553 -/
def destroy (t : UserTaskObject T) (c : CpuCore T) : Option (CpuCore T) := destroyTask t.pTask8MBRegion t.task c

end UserTaskObject

/-! ## Kernel tasks -/

structure KernelTaskObject (T : Nat) where
  task : TaskState T
  kernelStackSpaceBegin : UInt32
  updatedKernelStack : UInt32

namespace KernelTaskObject

variable {T : Nat}

/-- When the constructor asks the allocator. -/
def asks (c : CpuCore T) : Bool :=
  !c.isRunning || c.currentPageDirectory == c.kernelPageDirectoryPhysicalAddr

/-- mirrors cpu_core.cpp:634-642; it writes no memory. -/
def new (m : Machine) (c : CpuCore T) : Option (KernelTaskObject T × CpuCore T) :=
  (askForPages m (asks c) (UInt32.ofNat (KERNEL_STACK_SIZE / 0x1000)) c).map
    fun r => (⟨⟨none, false⟩, r.1, m.uninit⟩, r.2)

/-- mirrors cpu_core.cpp:674-703 -/
def setToRunningState (t : KernelTaskObject T) (c : CpuCore T) :
    SetToRunningStateResponse × KernelTaskObject T × CpuCore T :=
  let (response, task, c) := startTask t.kernelStackSpaceBegin
    ⟨t.updatedKernelStack, t.kernelStackSpaceBegin + UInt32.ofNat KERNEL_STACK_SIZE - 4,
      c.currentPageDirectory⟩ t.task c
  (response, { t with task := task }, c)

/-- mirrors cpu_core.cpp:709-721 -/
def setProcessCode (m : Machine) (t : KernelTaskObject T) (processCode : UInt32) (taskArgs : TaskArguments)
    (mem : Mem) : Traced Access (KernelTaskObject T × Mem) := do
  if taskArgs.numArgs > MAX_TASK_ARGS then return (t, mem)
  if t.kernelStackSpaceBegin = 0 then return (t, mem)
  let (kernelEspStackBegin, mem) ← storeArguments taskArgs.reversed
    (t.kernelStackSpaceBegin + UInt32.ofNat KERNEL_STACK_SIZE - 4) mem
  let (updatedKernelStack, mem) ← m.createIntStackForKernelPriv kernelEspStackBegin processCode PITTimer mem
  return ({ t with updatedKernelStack := updatedKernelStack }, mem)

/-- mirrors cpu_core.cpp:644-672 -/
def destroy (t : KernelTaskObject T) (c : CpuCore T) : Option (CpuCore T) :=
  destroyTask t.kernelStackSpaceBegin t.task c

end KernelTaskObject

/-! ## A task without memory -/

section Uninitialised
variable {T : Nat}

/-- The call for `numPages` pages fails. -/
def Fails (m : Machine) (c : CpuCore T) (numPages : UInt32) : Prop :=
  c.kernelPageAllocator.allocateContiguousPages m.behind numPages = some (FAILURE, c.kernelPageAllocator)

/-- The constructor writes nothing, the task cannot be started, takes no data
and no arguments, and destroying it changes no page code. -/
def UserTaskObject.Uninitialised (m : Machine) (c : CpuCore T) (taskSpaceBeginVirtualAddr : UInt32) : Prop :=
  ∃ t c', (UserTaskObject.new m c taskSpaceBeginVirtualAddr).val = some (t, c') ∧
    (UserTaskObject.new m c taskSpaceBeginVirtualAddr).log = [] ∧ c'.mem = c.mem ∧
    t.setToRunningState m c' = (.TASK_NOT_PROPERLY_INITIALIZED, t, c') ∧
    (∀ mem userAddr data numBytes, t.setData mem userAddr data numBytes = pure (false, mem)) ∧
    (∀ taskArgs mem, t.setTaskArguments m taskArgs mem = pure (t, mem)) ∧
    ∃ c'', t.destroy c' = some c'' ∧
      codeOf c''.kernelPageAllocator.pageTables = codeOf c.kernelPageAllocator.pageTables

/-- The same for a kernel task. -/
def KernelTaskObject.Uninitialised (m : Machine) (c : CpuCore T) : Prop :=
  ∃ t c', KernelTaskObject.new m c = some (t, c') ∧ c'.mem = c.mem ∧
    t.setToRunningState c' = (.TASK_NOT_PROPERLY_INITIALIZED, t, c') ∧
    (∀ processCode taskArgs mem, t.setProcessCode m processCode taskArgs mem = pure (t, mem)) ∧
    ∃ c'', t.destroy c' = some c'' ∧
      codeOf c''.kernelPageAllocator.pageTables = codeOf c.kernelPageAllocator.pageTables

theorem failure_ne_zero : UInt32.ofNat FAILURE ≠ 0 := by decide

theorem askForPages_fails {m : Machine} {c : CpuCore T} {numPages : UInt32} (h : Fails m c numPages) :
    askForPages m true numPages c = some (UInt32.ofNat FAILURE, c) := by
  unfold askForPages
  rw [if_pos rfl, h, Option.map_some]

theorem UserTaskObject.uninitialised_of_not_asks (m : Machine) (c : CpuCore T) {base : UInt32}
    (h : UserTaskObject.asks c base = false) : UserTaskObject.Uninitialised m c base := by
  have hask : askForPages m (UserTaskObject.asks c base) (1024 * 2) c = some (0, c) := by
    rw [h]
    rfl
  have hnew : UserTaskObject.new m c base = pure (some (⟨⟨none, false⟩, base, 0, m.uninit⟩, c)) := by
    unfold UserTaskObject.new
    rw [hask]
    rfl
  rw [UserTaskObject.Uninitialised, hnew]
  refine ⟨_, c, rfl, rfl, rfl, rfl, fun mem userAddr data numBytes => ?_, fun taskArgs mem => ?_, c, rfl, rfl⟩
  · simp only [UserTaskObject.setData, if_true]
    split <;> rfl
  · simp only [UserTaskObject.setTaskArguments, if_true]
    split <;> rfl

theorem KernelTaskObject.uninitialised_of_not_asks (m : Machine) (c : CpuCore T)
    (h : KernelTaskObject.asks c = false) : KernelTaskObject.Uninitialised m c := by
  refine ⟨⟨⟨none, false⟩, 0, m.uninit⟩, c, ?_, rfl, rfl, fun processCode taskArgs mem => ?_, c, rfl, rfl⟩
  · unfold KernelTaskObject.new
    rw [h]
    rfl
  · simp only [KernelTaskObject.setProcessCode, if_true]
    split <;> rfl

/-- The failure value is taken for memory: the constructor writes there. -/
theorem UserTaskObject.not_uninitialised {m : Machine} {c : CpuCore T} {base : UInt32} (hf : Fails m c (1024 * 2))
    (h : UserTaskObject.asks c base = true) : ¬ UserTaskObject.Uninitialised m c base := by
  intro hun
  obtain ⟨t, c', -, hlog, -⟩ := hun
  unfold UserTaskObject.new at hlog
  rw [h, askForPages_fails hf] at hlog
  simp only [failure_ne_zero, ne_eq, not_false_eq_true, if_true, storePaging, storeWords, Traced.log_bind,
    Traced.log_emit, List.append_eq_nil_iff, List.cons_ne_nil, false_and] at hlog

/-- The failure value is taken for memory: the task can be started. -/
theorem KernelTaskObject.not_uninitialised {m : Machine} {c : CpuCore T}
    (hf : Fails m c (UInt32.ofNat (KERNEL_STACK_SIZE / 0x1000))) (h : KernelTaskObject.asks c = true) :
    ¬ KernelTaskObject.Uninitialised m c := by
  intro hun
  obtain ⟨t, c', hnew, -, hstart, -⟩ := hun
  unfold KernelTaskObject.new at hnew
  rw [h, askForPages_fails hf, Option.map_some, Option.some.injEq, Prod.mk.injEq] at hnew
  obtain ⟨rfl, rfl⟩ := hnew
  have hresponse := congrArg Prod.fst hstart
  simp only [KernelTaskObject.setToRunningState, startTask, failure_ne_zero, if_false, Bool.false_eq_true] at hresponse
  split at hresponse
  · cases hresponse
  · cases hresponse

/-- When the pages run out, a task is left uninitialised exactly if its
constructor did not ask for them. -/
theorem uninitialised_iff (m : Machine) (c : CpuCore T) :
    (Fails m c (1024 * 2) → ∀ taskSpaceBeginVirtualAddr,
      (UserTaskObject.Uninitialised m c taskSpaceBeginVirtualAddr ↔
        ¬ (c.isRunning = true ∧ c.currentPageDirectory = c.kernelPageDirectoryPhysicalAddr ∧
          taskSpaceBeginVirtualAddr.toNat % (4096 * 1024) = 0))) ∧
    (Fails m c (UInt32.ofNat (KERNEL_STACK_SIZE / 0x1000)) →
      (KernelTaskObject.Uninitialised m c ↔
        ¬ (c.isRunning = false ∨ c.currentPageDirectory = c.kernelPageDirectoryPhysicalAddr))) := by
  constructor
  · intro hf base
    have hasks : UserTaskObject.asks c base = true ↔ c.isRunning = true ∧
        c.currentPageDirectory = c.kernelPageDirectoryPhysicalAddr ∧ base.toNat % (4096 * 1024) = 0 := by
      simp [UserTaskObject.asks, and_assoc]
    rw [← hasks]
    constructor
    · intro hun h
      exact UserTaskObject.not_uninitialised hf h hun
    · intro h
      exact UserTaskObject.uninitialised_of_not_asks m c (Bool.eq_false_iff.mpr h)
  · intro hf
    have hasks : KernelTaskObject.asks c = true ↔ c.isRunning = false ∨
        c.currentPageDirectory = c.kernelPageDirectoryPhysicalAddr := by
      simp [KernelTaskObject.asks]
    rw [← hasks]
    constructor
    · intro hun h
      exact KernelTaskObject.not_uninitialised hf h hun
    · intro h
      exact KernelTaskObject.uninitialised_of_not_asks m c (Bool.eq_false_iff.mpr h)

end Uninitialised

/-- All pages are reserved. -/
theorem reserved_all_fails (behind : Nat → UInt32) {numPages : UInt32} (hn : 0 < numPages.toNat)
    (hsize : numPages.toNat % 1024 ≠ 1023) :
    (reserved (1023 * 1024 - 1)).allocateContiguousPages behind numPages =
      some (FAILURE, reserved (1023 * 1024 - 1)) := by
  have hno : ¬ Overruns (reserved (1023 * 1024 - 1)).pageTables numPages.toNat := fun h => hsize h.size.1
  cases allocateContiguousPages_eq (summarised_reserved _) behind hn hno with
  | inl hfound =>
    obtain ⟨a, hlowest, -⟩ := hfound
    have hfree := hlowest.fits.free a (Nat.le_refl a) (by omega)
    have hrange := hlowest.fits.inRange
    rw [codeOf_reserved, if_pos (by omega)] at hfree
    exact absurd hfree (by decide)
  | inr hnone => exact hnone.2

def sampleMachine : Machine where
  kernel := sampleKernel
  garbage := Garbage.const 0
  behind := fun _ => 0
  eflags := 0
  esp := 0
  ebp := 0
  esi := 0
  edi := 0
  interruptHandlerReturn := 0
  uninit := 0

def noSockets : SocketManager 50 where
  socketDescs _ _ := ⟨0, 0, 0, 0, 0, 0, 0, 0, 0⟩
  udpPortStates _ := ⟨0, 0, 0⟩
  next := fun _ => none
  prev := fun _ => none
  request := fun _ => 0
  transmissionRequestsHead := none
  transmissionRequestsTail := none
  unusedTransmissionRequestsHead := none

/-- A core under the kernel's page directory, with no page left. -/
def exhaustedCore (isRunning : Bool) : CpuCore 50 where
  isRunning := isRunning
  currentPageDirectory := 0x100000
  kernelPageDirectoryPhysicalAddr := 0x100000
  kernelPageAllocator := reserved (1023 * 1024 - 1)
  unusedTasks := List.finRange 50
  activeTasks := []
  socketManager := noSockets.init
  mem := fun _ => 0

theorem exhaustedCore_fails (isRunning : Bool) : Fails sampleMachine (exhaustedCore isRunning) (1024 * 2) ∧
    Fails sampleMachine (exhaustedCore isRunning) (UInt32.ofNat (KERNEL_STACK_SIZE / 0x1000)) :=
  ⟨reserved_all_fails _ (by decide) (by decide), reserved_all_fails _ (by decide) (by decide)⟩

/-- The constructor of a user task is not asked for pages before the core runs. -/
theorem uninitialised_before_running :
    UserTaskObject.Uninitialised sampleMachine (exhaustedCore false) 0x40000000 := by
  refine ((uninitialised_iff sampleMachine (exhaustedCore false)).1 (exhaustedCore_fails false).1 _).mpr ?_
  intro h
  exact absurd h.1 (by decide)

/-- No page is left, and both tasks count as initialised. -/
theorem exhausted_initialised :
    (Fails sampleMachine (exhaustedCore true) (1024 * 2) ∧
      ¬ UserTaskObject.Uninitialised sampleMachine (exhaustedCore true) 0x40000000) ∧
    Fails sampleMachine (exhaustedCore true) (UInt32.ofNat (KERNEL_STACK_SIZE / 0x1000)) ∧
      ¬ KernelTaskObject.Uninitialised sampleMachine (exhaustedCore true) := by
  obtain ⟨huser, hkernel⟩ := exhaustedCore_fails true
  refine ⟨⟨huser, UserTaskObject.not_uninitialised huser ?_⟩, hkernel,
    KernelTaskObject.not_uninitialised hkernel ?_⟩
  · decide
  · decide

end CpuScheduler.L4
