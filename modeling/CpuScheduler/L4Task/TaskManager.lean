import CpuScheduler.L3Sockets.SocketTables
import CpuScheduler.L4Task.TaskLifetime

/-!
# TaskManager

`task_manager.cpp`: the user tasks by their ids. An element of its lists has a
fixed slot, the index of the buffer its task is constructed in; an element of
the source's array is that slot here. The lists are Lean lists.

`OsState` is what the management task works on: the manager, the kernel tasks
and the core. Tasks are known by three numbers: the id, the slot, and while they
run the index of their descriptor.
-/
namespace CpuScheduler.L4

open L1 L1.PageAllocator L3

def VIRTUAL_TASK_SPACE_BEGIN_ADDR : UInt32 := 0x2000000

/-- For `T` task descriptors. -/
def TASK_MANAGER_MAX_TASKS (T : Nat) : Nat := 2 * T

abbrev Slot (T : Nat) := Fin (TASK_MANAGER_MAX_TASKS T)

inductive CreateUserTaskResult where
  | SUCCESS
  | ID_IS_NULL
  | ID_ALREADY_EXISTS
  | TOO_MANY_TASKS
  deriving DecidableEq, Repr

inductive RemoveUserTaskResult where
  | SUCCESS
  | ID_IS_NULL
  | ID_DOES_NOT_EXIST
  deriving DecidableEq, Repr

/-- An active element is its slot and the id. -/
structure TaskManager (T : Nat) where
  userTaskBuffers : Slot T → UserTaskObject T
  activeTasks : List (Slot T × UInt32)
  unusedTasks : List (Slot T)

structure OsState (T : Nat) where
  manager : TaskManager T
  kernelTasks : List (KernelTaskObject T)
  core : CpuCore T

namespace OsState

variable {T : Nat}

/-- The task of an active element. -/
def taskOf (s : OsState T) (e : Slot T × UInt32) : UserTaskObject T := s.manager.userTaskBuffers e.1

/-- The first element with the id. -/
def findTask (s : OsState T) (id : UInt32) : Option (Slot T × UInt32) := s.manager.activeTasks.find? fun e => e.2 == id

/-- mirrors task_manager.cpp:34-64 -/
def createUserTask (m : Machine) (s : OsState T) (id : UInt32) : Option (CreateUserTaskResult × OsState T) :=
  if id = 0 then some (.ID_IS_NULL, s)
  else if (s.findTask id).isSome then some (.ID_ALREADY_EXISTS, s)
  else
    match s.manager.unusedTasks with
    | [] => some (.TOO_MANY_TASKS, s)
    | slot :: unusedTasks =>
      (UserTaskObject.new m s.core VIRTUAL_TASK_SPACE_BEGIN_ADDR).val.map fun r =>
        (.SUCCESS, { s with
          manager := ⟨Function.update s.manager.userTaskBuffers slot r.1, (slot, id) :: s.manager.activeTasks, unusedTasks⟩
          core := r.2 })

/-- mirrors task_manager.cpp:66-76 -/
def getUserTask (s : OsState T) (id : UInt32) : Option (Slot T) := (s.findTask id).map Prod.fst

/-- The element is moved to the unused ones, then its task is destroyed.
mirrors task_manager.cpp:78-106 -/
def removeUserTask (s : OsState T) (id : UInt32) : Option (RemoveUserTaskResult × OsState T) :=
  if id = 0 then some (.ID_IS_NULL, s)
  else
    match s.findTask id with
    | none => some (.ID_DOES_NOT_EXIST, s)
    | some e => ((s.taskOf e).destroy s.core).map fun core =>
      (.SUCCESS, { s with
        manager := { s.manager with
          activeTasks := s.manager.activeTasks.eraseP fun e => e.2 == id
          unusedTasks := e.1 :: s.manager.unusedTasks }
        core := core })

/-- The task gets no arguments and is started.
mirrors api_handlers.cpp:307-311 -/
def setToRunningState (m : Machine) (s : OsState T) (slot : Slot T) : SetToRunningStateResponse × OsState T :=
  let r := ((s.manager.userTaskBuffers slot).setTaskArguments m ⟨fun _ => m.uninit, 0⟩ s.core.mem).val
  let (response, t, core) := r.1.setToRunningState m { s.core with mem := r.2 }
  (response, { s with
    manager := { s.manager with userTaskBuffers := Function.update s.manager.userTaskBuffers slot t }
    core := core })

/-! ## Kernel tasks -/

def createKernelTask (m : Machine) (s : OsState T) : Option (OsState T) :=
  (KernelTaskObject.new m s.core).map fun r => { s with kernelTasks := r.1 :: s.kernelTasks, core := r.2 }

/-- The task gets its code and is started; it is the first behind `before`.
mirrors main.cpp:147-166 -/
def startKernelTask (m : Machine) (s : OsState T) (processCode : UInt32) (taskArgs : TaskArguments)
    (before : Nat) : OsState T :=
  match s.kernelTasks.drop before with
  | [] => s
  | k :: behind =>
    let r := (k.setProcessCode m processCode taskArgs s.core.mem).val
    let (_, k, core) := r.1.setToRunningState { s.core with mem := r.2 }
    { s with kernelTasks := s.kernelTasks.take before ++ k :: behind, core := core }

end OsState

/-! ## Calls -/

/-- The allocator finds `numPages` pages that it manages. -/
def Allocates {T : Nat} (m : Machine) (c : CpuCore T) (numPages : UInt32) : Prop :=
  ∃ r : Region, r.size = numPages.toNat ∧ r.first + r.size ≤ 1023 * 1024 ∧
    ∃ t, c.kernelPageAllocator.allocateContiguousPages m.behind numPages = some (0x1000 * r.first, t)

/-- What can happen: calls of the management task, calls for the sockets, and
switches between the tasks. -/
inductive OsCall (T : Nat) where
  | createUserTask (m : Machine) (id : UInt32)
  | setToRunningState (m : Machine) (slot : Slot T)
  | removeUserTask (id : UInt32)
  | createKernelTask (m : Machine)
  | startKernelTask (m : Machine) (processCode : UInt32) (taskArgs : TaskArguments) (before : Nat)
  | socketCall (call : SocketCall T)
  | taskSwitch (activeTasks : List (Fin T × TaskDescriptor))

namespace OsState

variable {T : Nat}

/-- The descriptors in use. -/
def activeIDs (s : OsState T) : List (Fin T) := s.core.activeTasks.map Prod.fst

/-- Page allocation succeeds, only existing tasks are started, and a socket
call is made by a running task. A switch saves a stack pointer. -/
def step (s : OsState T) : OsCall T → OsState T → Prop
  | .createUserTask m id, t => ∃ result, s.createUserTask m id = some (result, t) ∧
    (result = .SUCCESS → Allocates m s.core (1024 * 2))
  | .setToRunningState m slot, t => slot ∈ s.manager.activeTasks.map Prod.fst ∧ t = (s.setToRunningState m slot).2
  | .removeUserTask id, t => ∃ result, s.removeUserTask id = some (result, t)
  | .createKernelTask m, t => s.createKernelTask m = some t ∧ Allocates m s.core (UInt32.ofNat (KERNEL_STACK_SIZE / 0x1000))
  | .startKernelTask m processCode taskArgs before, t => t = s.startKernelTask m processCode taskArgs before
  | .socketCall call, t => (∀ taskID, call.caller = some taskID → taskID ∈ s.activeIDs) ∧
    ∃ cursor r, (⟨s.core.socketManager, s.core.mem, cursor⟩ : Sockets T).call call = some r ∧
      t = { s with core := { s.core with socketManager := r.manager, mem := r.mem } }
  | .taskSwitch activeTasks, t => activeTasks.map Prod.fst = s.activeIDs ∧
    t = { s with core := { s.core with activeTasks := activeTasks } }

/-- The core runs under the kernel's page directory, no task exists, and the
pages of `reserved` are reserved. mirrors main.cpp:60-118, task_manager.cpp:6-22 -/
structure Constructed (reserved : Set Nat) (s : OsState T) : Prop where
  activeTasks : s.manager.activeTasks = []
  unusedSlots : s.manager.unusedTasks = List.finRange (TASK_MANAGER_MAX_TASKS T)
  kernelTasks : s.kernelTasks = []
  isRunning : s.core.isRunning = true
  pageDirectory : s.core.currentPageDirectory = s.core.kernelPageDirectoryPhysicalAddr
  activeDescriptors : s.core.activeTasks = []
  unusedDescriptors : s.core.unusedTasks = List.finRange T
  sockets : ∃ old, s.core.socketManager = SocketManager.init old
  pages : ∃ (s0 : PageAllocator) (ranges : List PageRange), reserveAll s0.construct ranges = some s.core.kernelPageAllocator ∧
    reserved = {p | ∃ r ∈ ranges, r.Mem p}
  firstPage : 0 ∈ reserved

end OsState

def osLTS (T : Nat) (reserved : Set Nat) : LTS (OsState T) (OsCall T) where
  init := OsState.Constructed reserved
  step := OsState.step

/-- Pages 0 to 1024 are reserved, and there are 50 descriptors. -/
def bootedState : OsState 50 where
  manager := ⟨fun _ => ⟨⟨none, false⟩, 0, 0, 0⟩, [], List.finRange (TASK_MANAGER_MAX_TASKS 50)⟩
  kernelTasks := []
  core := { exhaustedCore true with kernelPageAllocator := reserved 1024 }

def bootedRange : PageRange := ⟨0, 1024, Nat.zero_le _, by decide⟩

def bootedPages : Set Nat := {p | ∃ r ∈ [bootedRange], r.Mem p}

theorem bootedState_constructed : OsState.Constructed bootedPages bootedState where
  activeTasks := rfl
  unusedSlots := rfl
  kernelTasks := rfl
  isRunning := rfl
  pageDirectory := rfl
  activeDescriptors := rfl
  unusedDescriptors := rfl
  sockets := ⟨noSockets, rfl⟩
  pages := by
    refine ⟨blank, [bootedRange], ?_, rfl⟩
    rw [reserveAll, List.foldlM_cons, allocatePageRange_eq (summarised_construct _) bootedRange.le bootedRange.managed]
    rfl
  firstPage := ⟨bootedRange, List.mem_singleton_self _, Nat.zero_le _, Nat.zero_le _⟩

theorem bootedState_reachable : (osLTS 50 bootedPages).Reachable bootedState :=
  ⟨bootedState, [], bootedState_constructed, .nil _⟩

theorem bootedState_allocates : Allocates sampleMachine bootedState.core (1024 * 2) := by
  obtain ⟨t, ht⟩ := reserved_allocates 1024 (1024 * 2) (by decide) (by decide) sampleMachine.behind
  exact ⟨⟨1025, 2048, by decide⟩, by decide, by decide, t, ht⟩

/-! ## What a call does -/

section
variable {T : Nat} {s : OsState T} {m : Machine} {id : UInt32}

theorem findTask_none (h : s.findTask id = none) : ∀ e ∈ s.manager.activeTasks, e.2 ≠ id := by
  intro e he hid
  have hno := List.find?_eq_none.mp h e he
  simp [hid] at hno

theorem findTask_some {e : Slot T × UInt32} (h : s.findTask id = some e) : e.2 = id ∧ ∃ as bs,
    s.manager.activeTasks = as ++ e :: bs ∧ (s.manager.activeTasks.eraseP fun e => e.2 == id) = as ++ bs := by
  obtain ⟨hid, as, bs, hsplit, has⟩ := List.find?_eq_some_iff_append.mp h
  refine ⟨by simpa using hid, as, bs, hsplit, ?_⟩
  rw [hsplit, List.eraseP_append_right _ fun a ha => by simpa using has a ha]
  simp [hid]

/-- A constructor that asks for memory gets it. -/
theorem askForPages_allocates {c : CpuCore T} {numPages : UInt32} (h : Allocates m c numPages) :
    ∃ (r : Region) (allocator : PageAllocator), r.size = numPages.toNat ∧ r.first + r.size ≤ 1023 * 1024 ∧
      c.kernelPageAllocator.allocateContiguousPages m.behind numPages = some (0x1000 * r.first, allocator) ∧
      askForPages m true numPages c =
        some (UInt32.ofNat (0x1000 * r.first), { c with kernelPageAllocator := allocator }) := by
  obtain ⟨r, hsize, hbelow, allocator, hcall⟩ := h
  refine ⟨r, allocator, hsize, hbelow, hcall, ?_⟩
  unfold askForPages
  rw [if_pos rfl, hcall, Option.map_some]

/-- A new user task has the memory, is not running, and has written to memory. -/
theorem UserTaskObject.new_spec {c : CpuCore T} (hrun : c.isRunning = true)
    (hdirectory : c.currentPageDirectory = c.kernelPageDirectoryPhysicalAddr) (h : Allocates m c (1024 * 2)) :
    ∃ (r : Region) (allocator : PageAllocator) (t : UserTaskObject T) (mem : Mem), r.size = 2048 ∧
      r.first + r.size ≤ 1023 * 1024 ∧
      c.kernelPageAllocator.allocateContiguousPages m.behind (1024 * 2) = some (0x1000 * r.first, allocator) ∧
      t.task = ⟨none, false⟩ ∧ t.pTask8MBRegion = UInt32.ofNat (0x1000 * r.first) ∧
      (UserTaskObject.new m c VIRTUAL_TASK_SPACE_BEGIN_ADDR).val =
        some (t, { c with kernelPageAllocator := allocator, mem := mem }) := by
  obtain ⟨r, allocator, hsize, hbelow, hcall, hask⟩ := askForPages_allocates h
  have hasks : UserTaskObject.asks c VIRTUAL_TASK_SPACE_BEGIN_ADDR = true := by
    simp [UserTaskObject.asks, hrun, hdirectory, VIRTUAL_TASK_SPACE_BEGIN_ADDR]
  unfold UserTaskObject.new
  rw [hasks, hask]
  dsimp only
  simp only [Traced.val_bind, Traced.val_ite, Traced.val_pure]
  split
  · exact ⟨r, allocator, _, _, hsize, hbelow, hcall, rfl, rfl, rfl⟩
  · exact ⟨r, allocator, _, c.mem, hsize, hbelow, hcall, rfl, rfl, rfl⟩

theorem KernelTaskObject.new_spec {c : CpuCore T} (hdirectory : c.currentPageDirectory = c.kernelPageDirectoryPhysicalAddr)
    (h : Allocates m c (UInt32.ofNat (KERNEL_STACK_SIZE / 0x1000))) :
    ∃ (r : Region) (allocator : PageAllocator) (k : KernelTaskObject T), r.size = KERNEL_STACK_SIZE / 0x1000 ∧
      r.first + r.size ≤ 1023 * 1024 ∧
      c.kernelPageAllocator.allocateContiguousPages m.behind (UInt32.ofNat (KERNEL_STACK_SIZE / 0x1000)) =
        some (0x1000 * r.first, allocator) ∧
      k.task = ⟨none, false⟩ ∧ k.kernelStackSpaceBegin = UInt32.ofNat (0x1000 * r.first) ∧
      KernelTaskObject.new m c = some (k, { c with kernelPageAllocator := allocator }) := by
  obtain ⟨r, allocator, hsize, hbelow, hcall, hask⟩ := askForPages_allocates h
  have hasks : KernelTaskObject.asks c = true := by simp [KernelTaskObject.asks, hdirectory]
  unfold KernelTaskObject.new
  rw [hasks, hask, Option.map_some]
  exact ⟨r, allocator, _, hsize, hbelow, hcall, rfl, rfl, rfl⟩

/-- What it takes to be started: not to run, memory, and a descriptor. -/
inductive Starts (memory : UInt32) (t : TaskState T) (c : CpuCore T) :
    SetToRunningStateResponse → TaskState T → CpuCore T → Prop
  | running : t.isRunning = true → Starts memory t c .TASK_ALREADY_RUNNING t c
  | uninitialised : t.isRunning = false → memory = 0 → Starts memory t c .TASK_NOT_PROPERLY_INITIALIZED t c
  | full : t.isRunning = false → memory ≠ 0 → c.unusedTasks = [] → Starts memory t c .TOO_MANY_TASKS t c
  | started (taskID : Fin T) (unusedTasks : List (Fin T)) (descriptor : TaskDescriptor) : t.isRunning = false →
    memory ≠ 0 → c.unusedTasks = taskID :: unusedTasks → Starts memory t c .SUCCESS ⟨some taskID, true⟩
      { c with unusedTasks := unusedTasks, activeTasks := (taskID, descriptor) :: c.activeTasks }

theorem startTask_starts (memory : UInt32) (descriptor : TaskDescriptor) (t : TaskState T) (c : CpuCore T) :
    Starts memory t c (startTask memory descriptor t c).1 (startTask memory descriptor t c).2.1
      (startTask memory descriptor t c).2.2 := by
  unfold startTask
  by_cases hrun : t.isRunning = true
  · rw [if_pos hrun]
    exact .running hrun
  · rw [if_neg hrun]
    have hidle : t.isRunning = false := by simpa using hrun
    by_cases hmemory : memory = 0
    · rw [if_pos hmemory]
      exact .uninitialised hidle hmemory
    · rw [if_neg hmemory]
      cases hunused : c.unusedTasks with
      | nil => exact .full hidle hmemory hunused
      | cons taskID unusedTasks => exact .started taskID unusedTasks descriptor hidle hmemory hunused

/-- Only the saved stack changes, and memory. -/
theorem UserTaskObject.setTaskArguments_val (t : UserTaskObject T) (m : Machine) (taskArgs : TaskArguments) (mem : Mem) :
    ∃ stack mem', (t.setTaskArguments m taskArgs mem).val = ({ t with updatedKernelStack := stack }, mem') := by
  unfold UserTaskObject.setTaskArguments
  simp only [Traced.val_ite, Traced.val_bind, Traced.val_pure]
  split
  · exact ⟨t.updatedKernelStack, mem, rfl⟩
  · split
    · exact ⟨t.updatedKernelStack, mem, rfl⟩
    · exact ⟨_, _, rfl⟩

theorem KernelTaskObject.setProcessCode_val (k : KernelTaskObject T) (m : Machine) (processCode : UInt32)
    (taskArgs : TaskArguments) (mem : Mem) : ∃ stack mem',
    (k.setProcessCode m processCode taskArgs mem).val = ({ k with updatedKernelStack := stack }, mem') := by
  unfold KernelTaskObject.setProcessCode
  simp only [Traced.val_ite, Traced.val_bind, Traced.val_pure]
  split
  · exact ⟨k.updatedKernelStack, mem, rfl⟩
  · split
    · exact ⟨k.updatedKernelStack, mem, rfl⟩
    · exact ⟨_, _, rfl⟩

theorem OsState.setToRunningState_starts (s : OsState T) (m : Machine) (slot : Slot T) : ∃ stack mem response task core,
    Starts (s.manager.userTaskBuffers slot).pTask8MBRegion (s.manager.userTaskBuffers slot).task
      { s.core with mem := mem } response task core ∧
    s.setToRunningState m slot = (response, { s with
      manager := { s.manager with
        userTaskBuffers := Function.update s.manager.userTaskBuffers slot
          { s.manager.userTaskBuffers slot with task := task, updatedKernelStack := stack } }
      core := core }) := by
  obtain ⟨stack, mem, hval⟩ := (s.manager.userTaskBuffers slot).setTaskArguments_val m ⟨fun _ => m.uninit, 0⟩ s.core.mem
  unfold OsState.setToRunningState UserTaskObject.setToRunningState
  rw [hval]
  exact ⟨stack, mem, _, _, _, startTask_starts _ _ _ _, rfl⟩

/-- A task is destroyed: it gives back its descriptor, its sockets and its
memory, as far as it has them. -/
theorem destroyTask_idle {memory : UInt32} {t : TaskState T} (htask : t.taskID = none) (hmemory : memory ≠ 0)
    (c : CpuCore T) : destroyTask memory t c =
      some { c with kernelPageAllocator := c.kernelPageAllocator.freeContiguousPages memory.toNat } := by
  unfold destroyTask
  rw [htask]
  exact if_pos hmemory

theorem destroyTask_running {memory : UInt32} {t : TaskState T} {taskID : Fin T} (htask : t = ⟨some taskID, true⟩)
    (hmemory : memory ≠ 0) {c : CpuCore T} (ho : Owned c.socketManager) : ∃ manager,
    c.socketManager.closeAllSocketsForTask taskID = some manager ∧ OthersKept taskID c.socketManager manager ∧
    destroyTask memory t c = some { c with
      activeTasks := c.activeTasks.filter fun task => task.1 ≠ taskID
      unusedTasks := taskID :: c.unusedTasks
      socketManager := manager
      kernelPageAllocator := c.kernelPageAllocator.freeContiguousPages memory.toNat } := by
  obtain ⟨manager, hclose, hkept⟩ := closeLoop_othersKept taskID (List.range MAX_NUM_SOCKETS_PER_TASK) ho
  have hall : c.socketManager.closeAllSocketsForTask taskID = some manager := hclose
  refine ⟨manager, hall, hkept, ?_⟩
  unfold destroyTask
  rw [htask]
  simp only [if_true, hall, Option.map_some]
  exact if_pos hmemory

/-- What `createUserTask` does if the memory is there. -/
inductive Creates (s : OsState T) (m : Machine) (id : UInt32) : CreateUserTaskResult → OsState T → Prop
  | null : id = 0 → Creates s m id .ID_IS_NULL s
  | taken (e : Slot T × UInt32) : id ≠ 0 → s.findTask id = some e → Creates s m id .ID_ALREADY_EXISTS s
  | full : id ≠ 0 → s.findTask id = none → s.manager.unusedTasks = [] → Creates s m id .TOO_MANY_TASKS s
  | created (slot : Slot T) (unusedTasks : List (Slot T)) (r : Region) (allocator : PageAllocator)
      (t : UserTaskObject T) (mem : Mem) : id ≠ 0 → s.findTask id = none → s.manager.unusedTasks = slot :: unusedTasks →
    r.size = 2048 → r.first + r.size ≤ 1023 * 1024 →
    s.core.kernelPageAllocator.allocateContiguousPages m.behind (1024 * 2) = some (0x1000 * r.first, allocator) →
    t.task = ⟨none, false⟩ → t.pTask8MBRegion = UInt32.ofNat (0x1000 * r.first) →
    Creates s m id .SUCCESS { s with
      manager := ⟨Function.update s.manager.userTaskBuffers slot t, (slot, id) :: s.manager.activeTasks, unusedTasks⟩
      core := { s.core with kernelPageAllocator := allocator, mem := mem } }

theorem OsState.createUserTask_creates {t : OsState T} {result : CreateUserTaskResult} (hrun : s.core.isRunning = true)
    (hdirectory : s.core.currentPageDirectory = s.core.kernelPageDirectoryPhysicalAddr)
    (h : s.createUserTask m id = some (result, t)) (halloc : result = .SUCCESS → Allocates m s.core (1024 * 2)) :
    Creates s m id result t := by
  unfold OsState.createUserTask at h
  by_cases hid : id = 0
  · rw [if_pos hid] at h
    cases h
    exact .null hid
  · rw [if_neg hid] at h
    cases hfind : s.findTask id with
    | some e =>
      rw [hfind] at h
      cases h
      exact .taken e hid hfind
    | none =>
      rw [hfind, if_neg (by simp)] at h
      cases hunused : s.manager.unusedTasks with
      | nil =>
        rw [hunused] at h
        cases h
        exact .full hid hfind hunused
      | cons slot unusedTasks =>
        rw [hunused] at h
        obtain ⟨u, hnew, hresult⟩ := Option.map_eq_some_iff.mp h
        cases hresult
        obtain ⟨r, allocator, t, mem, hsize, hbelow, hcall, htask, hmemory, hval⟩ :=
          UserTaskObject.new_spec hrun hdirectory (halloc rfl)
        rw [hval] at hnew
        cases hnew
        exact .created slot unusedTasks r allocator t mem hid hfind hunused hsize hbelow hcall htask hmemory

/-- What `removeUserTask` does to tasks that have their memory. -/
inductive Removes (s : OsState T) (id : UInt32) : RemoveUserTaskResult → OsState T → Prop
  | null : id = 0 → Removes s id .ID_IS_NULL s
  | unknown : id ≠ 0 → s.findTask id = none → Removes s id .ID_DOES_NOT_EXIST s
  | idle (e : Slot T × UInt32) (as bs : List (Slot T × UInt32)) : id ≠ 0 → s.findTask id = some e → e.2 = id →
    s.manager.activeTasks = as ++ e :: bs → (s.taskOf e).task.taskID = none →
    Removes s id .SUCCESS { s with
      manager := { s.manager with activeTasks := as ++ bs, unusedTasks := e.1 :: s.manager.unusedTasks }
      core := { s.core with
        kernelPageAllocator := s.core.kernelPageAllocator.freeContiguousPages (s.taskOf e).pTask8MBRegion.toNat } }
  | running (e : Slot T × UInt32) (as bs : List (Slot T × UInt32)) (taskID : Fin T) (sockets : SocketManager T) :
    id ≠ 0 → s.findTask id = some e → e.2 = id → s.manager.activeTasks = as ++ e :: bs →
    (s.taskOf e).task = ⟨some taskID, true⟩ →
    s.core.socketManager.closeAllSocketsForTask taskID = some sockets → OthersKept taskID s.core.socketManager sockets →
    Removes s id .SUCCESS { s with
      manager := { s.manager with activeTasks := as ++ bs, unusedTasks := e.1 :: s.manager.unusedTasks }
      core := { s.core with
        activeTasks := s.core.activeTasks.filter fun task => task.1 ≠ taskID
        unusedTasks := taskID :: s.core.unusedTasks
        socketManager := sockets
        kernelPageAllocator := s.core.kernelPageAllocator.freeContiguousPages (s.taskOf e).pTask8MBRegion.toNat } }

/-- A call to remove has an outcome. -/
theorem OsState.removeUserTask_removes (ho : Owned s.core.socketManager)
    (hmemory : ∀ e ∈ s.manager.activeTasks, (s.taskOf e).pTask8MBRegion ≠ 0)
    (hrunning : ∀ e ∈ s.manager.activeTasks, (s.taskOf e).task.isRunning = (s.taskOf e).task.taskID.isSome) (id : UInt32) :
    ∃ result t, s.removeUserTask id = some (result, t) ∧ Removes s id result t := by
  unfold OsState.removeUserTask
  by_cases hid : id = 0
  · rw [if_pos hid]
    exact ⟨_, _, rfl, .null hid⟩
  · rw [if_neg hid]
    cases hfind : s.findTask id with
    | none => exact ⟨_, _, rfl, .unknown hid hfind⟩
    | some e =>
      obtain ⟨heid, as, bs, hsplit, herase⟩ := findTask_some hfind
      have he : e ∈ s.manager.activeTasks := by simp [hsplit]
      dsimp only
      rw [herase]
      unfold UserTaskObject.destroy
      cases htask : (s.taskOf e).task.taskID with
      | none =>
        rw [destroyTask_idle htask (hmemory e he), Option.map_some]
        exact ⟨_, _, rfl, .idle e as bs hid hfind heid hsplit htask⟩
      | some taskID =>
        have hstate : (s.taskOf e).task = ⟨some taskID, true⟩ := by
          have hrun := hrunning e he
          rw [htask] at hrun
          cases htaskOf : (s.taskOf e).task with
          | mk i r =>
            rw [htaskOf] at htask hrun
            cases htask
            cases hrun
            rfl
        obtain ⟨sockets, hclose, hkept, hdestroy⟩ := destroyTask_running hstate (hmemory e he) ho
        rw [hdestroy, Option.map_some]
        exact ⟨_, _, rfl, .running e as bs taskID sockets hid hfind heid hsplit hstate hclose hkept⟩

/-- Starting the kernel task `k`. -/
theorem OsState.startKernelTask_starts (s : OsState T) (m : Machine) (processCode : UInt32) (taskArgs : TaskArguments)
    (before : Nat) : s.startKernelTask m processCode taskArgs before = s ∨
    ∃ as k bs stack mem response task core, s.kernelTasks = as ++ k :: bs ∧
      Starts k.kernelStackSpaceBegin k.task { s.core with mem := mem } response task core ∧
      s.startKernelTask m processCode taskArgs before = { s with
        kernelTasks := as ++ { k with task := task, updatedKernelStack := stack } :: bs, core := core } := by
  unfold OsState.startKernelTask
  cases hdrop : s.kernelTasks.drop before with
  | nil => exact .inl rfl
  | cons k behind =>
    obtain ⟨stack, mem, hval⟩ := k.setProcessCode_val m processCode taskArgs s.core.mem
    refine .inr ⟨s.kernelTasks.take before, k, behind, stack, mem, _, _, _, ?_, startTask_starts k.kernelStackSpaceBegin
      ⟨stack, k.kernelStackSpaceBegin + UInt32.ofNat KERNEL_STACK_SIZE - 4, s.core.currentPageDirectory⟩ k.task
      { s.core with mem := mem }, ?_⟩
    · rw [← hdrop, List.take_append_drop]
    · dsimp only
      unfold KernelTaskObject.setToRunningState
      rw [hval]

end

/-- The first task is created. -/
theorem bootedState_creates : ∃ t, bootedState.createUserTask sampleMachine 7 = some (.SUCCESS, t) ∧
    t.manager.activeTasks.map Prod.snd = [7] := by
  obtain ⟨r, allocator, u, mem, _, _, _, _, _, hval⟩ := UserTaskObject.new_spec rfl rfl bootedState_allocates
  have hunused : bootedState.manager.unusedTasks = (0 : Fin (99 + 1)) :: (List.finRange 99).map Fin.succ :=
    List.finRange_succ
  unfold OsState.createUserTask
  rw [if_neg (by decide), if_neg (by decide), hunused, hval]
  exact ⟨_, rfl, rfl⟩

end CpuScheduler.L4
