import CpuScheduler.L4Task.TaskResources

/-!
# Deleting a task gives everything back

`osInv_step`: every call keeps the invariant, whichever tasks exist. So in
every reachable state the pages in use are the reserved ones and those of the
tasks, the active descriptors are those of the running tasks, and an open port
belongs to one of them. `sameResources_lifeCycle` is what follows for one task: after it is
created, started, has run and is deleted, the pages, ports and descriptors in
use are those from before.
-/
namespace CpuScheduler.L4

open L1 L1.PageAllocator L3

variable {T : Nat} {reserved : Set Nat} {s t : OsState T} {m : Machine} {id : UInt32}

/-! ## Every call keeps the invariant -/

theorem osInv_setToRunningState (h : OsInv reserved s) (m : Machine) {slot : Slot T}
    (hslot : slot ∈ s.manager.activeTasks.map Prod.fst) : OsInv reserved (s.setToRunningState m slot).2 := by
  have hdescriptors := h.descriptors.setToRunningState h.slots m hslot
  obtain ⟨stack, mem, response, task, core, hstarts, hval⟩ := s.setToRunningState_starts m slot
  rw [hval] at hdescriptors ⊢
  obtain ⟨hsockets, hallocator, hrun, hcurrent, hdirectory, hids⟩ := hstarts.keeps
  refine ⟨h.slots.same rfl rfl, hdescriptors, h.sockets.same hsockets hids, ?_⟩
  refine h.pages.same rfl (fun e _ => ?_) rfl hallocator hrun hcurrent hdirectory
  by_cases hsame : e.1 = slot
  · rw [taskOf_of_eq rfl hsame, OsState.taskOf, hsame]
  · rw [taskOf_of_ne (s := s) rfl hsame]

theorem osInv_startKernelTask (h : OsInv reserved s) (m : Machine) (processCode : UInt32) (taskArgs : TaskArguments)
    (before : Nat) : OsInv reserved (s.startKernelTask m processCode taskArgs before) := by
  rcases s.startKernelTask_starts m processCode taskArgs before with
    heq | ⟨as, k, bs, stack, mem, response, task, core, hsplit, hstarts, hval⟩
  · rw [heq]
    exact h
  · rw [hval]
    obtain ⟨hsockets, hallocator, hrun, hcurrent, hdirectory, hids⟩ := hstarts.keeps
    refine ⟨h.slots.same rfl rfl, h.descriptors.startKernelTask hsplit hstarts, h.sockets.same hsockets hids, ?_⟩
    refine h.pages.same rfl (fun _ _ => rfl) ?_ hallocator hrun hcurrent hdirectory
    rw [hsplit]
    simp

theorem osInv_creates {result : CreateUserTaskResult} (h : OsInv reserved s) (hc : Creates s m id result t) :
    OsInv reserved t := by
  refine ⟨h.slots.creates hc, h.descriptors.creates h.slots hc, ?_, h.pages.creates h.slots hc⟩
  cases hc with
  | null | taken | full => exact h.sockets
  | created => exact h.sockets.same rfl (List.Subset.refl _)

theorem osInv_removes {result : RemoveUserTaskResult} (h : OsInv reserved s) (hr : Removes s id result t) :
    OsInv reserved t :=
  ⟨h.slots.removes hr, h.descriptors.removes hr, h.sockets.removes hr, h.pages.removes hr⟩

/-- A call to remove always has an outcome. -/
theorem OsInv.removes (h : OsInv reserved s) (id : UInt32) :
    ∃ result t, s.removeUserTask id = some (result, t) ∧ Removes s id result t :=
  OsState.removeUserTask_removes h.sockets.owned (fun _ he => h.pages.memory he) h.descriptors.user id

theorem osInv_step (hT : T ≤ 256) (h : OsInv reserved s) {call : OsCall T} (hstep : s.step call t) : OsInv reserved t := by
  cases call with
  | createUserTask m id =>
    obtain ⟨result, hcall, halloc⟩ := hstep
    exact osInv_creates h (OsState.createUserTask_creates h.pages.isRunning h.pages.pageDirectory hcall halloc)
  | setToRunningState m slot =>
    obtain ⟨hslot, rfl⟩ := hstep
    exact osInv_setToRunningState h m hslot
  | removeUserTask id =>
    obtain ⟨result, hcall⟩ := hstep
    obtain ⟨result', t', hcall', hremoves⟩ := h.removes id
    rw [hcall] at hcall'
    cases hcall'
    exact osInv_removes h hremoves
  | createKernelTask m =>
    obtain ⟨hcall, halloc⟩ := hstep
    obtain ⟨r, allocator, k, hsize, hbelow, hallocated, htask, hstack, hnew⟩ :=
      KernelTaskObject.new_spec h.pages.pageDirectory halloc
    rw [OsState.createKernelTask, hnew, Option.map_some] at hcall
    cases hcall
    exact ⟨h.slots.same rfl rfl, h.descriptors.createKernelTask htask _ rfl rfl,
      h.sockets.same rfl (List.Subset.refl _), h.pages.createKernelTask hsize hbelow hallocated hstack⟩
  | startKernelTask m processCode taskArgs before =>
    cases hstep
    exact osInv_startKernelTask h m processCode taskArgs before
  | socketCall call =>
    obtain ⟨hcaller, cursor, r, hcall, rfl⟩ := hstep
    exact ⟨h.slots.same rfl rfl, h.descriptors.same rfl (fun _ _ => rfl) rfl rfl rfl,
      h.sockets.socketCall hT hcaller hcall, h.pages.same rfl (fun _ _ => rfl) rfl rfl rfl rfl rfl⟩
  | taskSwitch activeTasks =>
    obtain ⟨hids, rfl⟩ := hstep
    have hsub : s.activeIDs ⊆ activeTasks.map Prod.fst := by
      rw [hids]
      exact List.Subset.refl _
    exact ⟨h.slots.same rfl rfl, h.descriptors.same rfl (fun _ _ => rfl) rfl hids rfl,
      h.sockets.same rfl hsub, h.pages.same rfl (fun _ _ => rfl) rfl rfl rfl rfl rfl⟩

theorem osInv_inductive (hT : T ≤ 256) : (osLTS T reserved).Inductive (OsInv reserved) where
  init _ := osInv_constructed
  step _ _ _ h hstep := osInv_step hT h hstep

/-! ## What is in use -/

/-- All tasks. -/
def OsState.tasks (s : OsState T) : List (TaskState T) :=
  (s.manager.activeTasks.map fun e => (s.taskOf e).task) ++ s.kernelTasks.map KernelTaskObject.task

/-- The page is allocated. -/
def OsState.PageUsed (s : OsState T) (p : Nat) : Prop := codeOf s.core.kernelPageAllocator.pageTables p ≠ 0

def OsState.PortActive (s : OsState T) (p : Fin NUM_UDP_PORTS) : Prop :=
  (s.core.socketManager.udpPortStates p).isActive ≠ 0

/-- What is in use is what the tasks hold. -/
structure Accounted (reserved : Set Nat) (s : OsState T) : Prop where
  pages : ∀ p, p < 1023 * 1024 → (s.PageUsed p ↔
    p ∈ reserved ∨ (∃ e ∈ s.manager.activeTasks, (s.taskOf e).region.Mem p) ∨ ∃ k ∈ s.kernelTasks, k.region.Mem p)
  disjoint : s.regions.Pairwise fun r r' => ∀ p, r.Mem p → ¬ r'.Mem p
  unreserved : ∀ r ∈ s.regions, ∀ p, r.Mem p → p ∉ reserved
  ports : ∀ p, s.PortActive p → ∃ task ∈ s.tasks, task.isRunning = true ∧ ∃ taskID, task.taskID = some taskID ∧
    (s.core.socketManager.udpPortStates p).taskID.toNat = taskID.val
  descriptors : s.activeIDs.Nodup ∧
    (s.activeIDs.map some).Perm ((s.tasks.filter fun task => task.isRunning).map fun task => task.taskID)

theorem tasks_running (h : DescriptorsInv s) : ∀ task ∈ s.tasks, task.isRunning = task.taskID.isSome := by
  intro task hmem
  rcases List.mem_append.mp hmem with hmem | hmem
  · obtain ⟨e, he, rfl⟩ := List.mem_map.mp hmem
    exact h.user e he
  · obtain ⟨k, hk, rfl⟩ := List.mem_map.mp hmem
    exact h.kernel k hk

theorem map_some_filterMap {α β : Type} {f : α → Option β} (l : List α) :
    (l.filterMap f).map some = (l.filter fun a => (f a).isSome).map f := by
  induction l with
  | nil => rfl
  | cons a l ih => cases hf : f a <;> simp [hf, ih]

/-- The descriptors of the running tasks, one for each. -/
theorem running_perm (h : DescriptorsInv s) :
    (s.activeIDs.map some).Perm ((s.tasks.filter fun task => task.isRunning).map fun task => task.taskID) := by
  have hids : s.userTaskIDs ++ s.kernelTaskIDs = s.tasks.filterMap fun task => task.taskID := by
    rw [OsState.tasks, List.filterMap_append, List.filterMap_map, List.filterMap_map]
    rfl
  have hfilter : (s.tasks.filter fun task => task.isRunning) = s.tasks.filter fun task => task.taskID.isSome :=
    List.filter_congr fun task hmem => tasks_running h task hmem
  rw [hfilter, ← map_some_filterMap, ← hids]
  exact h.running.map some

/-- An active descriptor is that of a running task. -/
theorem running_of_active (h : DescriptorsInv s) {taskID : Fin T} (hmem : taskID ∈ s.activeIDs) :
    ∃ task ∈ s.tasks, task.isRunning = true ∧ task.taskID = some taskID := by
  have hsome : some taskID ∈ (s.tasks.filter fun task => task.isRunning).map fun task => task.taskID :=
    (running_perm h).subset (List.mem_map_of_mem hmem)
  obtain ⟨task, htask, heq⟩ := List.mem_map.mp hsome
  obtain ⟨hin, hrun⟩ := List.mem_filter.mp htask
  exact ⟨task, hin, hrun, heq⟩

/-- A port is active just if it is the port of an open socket. -/
theorem portActive_iff (h : SocketsInv s) (p : Fin NUM_UDP_PORTS) : s.PortActive p ↔
    ∃ taskID i, (s.core.socketManager.socketDescs taskID i).isActive ≠ 0 ∧
      (s.core.socketManager.socketDescs taskID i).udpPort.toNat = p.val := by
  constructor
  · intro hp
    obtain ⟨_, taskID, i, _, hactive, hport⟩ := h.owned.port p hp
    exact ⟨taskID, i, by rw [hactive]; decide, hport⟩
  · rintro ⟨taskID, i, hactive, hport⟩
    exact (h.owned.names hactive hport).1

theorem accounted (h : OsInv reserved s) : Accounted reserved s := by
  constructor
  case pages =>
    intro p hp
    have hused := h.pages.refines.coloured.used p hp
    refine hused.trans (or_congr_right ?_)
    simp only [Set.mem_ofPred_eq, OsState.regions, List.mem_append, List.mem_map, or_and_right, exists_or]
    simp
  case disjoint =>
    refine (List.Nodup.pairwise_of_forall_ne h.pages.nodup fun r hr r' hr' hne => ?_)
    exact h.pages.refines.coloured.disjoint r hr r' hr' hne
  case unreserved => exact h.pages.refines.coloured.unfixed
  case ports =>
    intro p hp
    obtain ⟨taskID, i, hactive, hport⟩ := (portActive_iff h.sockets p).mp hp
    have hmem : taskID ∈ s.activeIDs := by
      by_contra hno
      exact hactive (h.sockets.closed taskID hno i)
    obtain ⟨task, htask, hrun, hid⟩ := running_of_active h.descriptors hmem
    exact ⟨task, htask, hrun, taskID, hid, (h.sockets.owned.names hactive hport).2.1⟩
  case descriptors => exact ⟨(List.nodup_append.mp h.descriptors.nodup).1, running_perm h.descriptors⟩

/-! ## A new task has no open socket -/

/-- A call that changes the sockets starts no task. -/
theorem step_sockets (h : OsInv reserved s) {call : OsCall T} (hstep : s.step call t) :
    t.core.socketManager = s.core.socketManager ∨ t.activeIDs ⊆ s.activeIDs := by
  cases call with
  | createUserTask m id =>
    obtain ⟨result, hcall, halloc⟩ := hstep
    cases OsState.createUserTask_creates h.pages.isRunning h.pages.pageDirectory hcall halloc with
    | null | taken | full | created => exact .inl rfl
  | setToRunningState m slot =>
    obtain ⟨_, rfl⟩ := hstep
    obtain ⟨stack, mem, response, task, core, hstarts, hval⟩ := s.setToRunningState_starts m slot
    rw [hval]
    exact .inl hstarts.keeps.1
  | removeUserTask id =>
    obtain ⟨result, hcall⟩ := hstep
    obtain ⟨result', t', hcall', hremoves⟩ := h.removes id
    rw [hcall] at hcall'
    cases hcall'
    cases hremoves with
    | null | unknown | idle => exact .inl rfl
    | running e as bs taskID sockets =>
      right
      exact List.map_subset _ List.filter_sublist.subset
  | createKernelTask m =>
    obtain ⟨hcall, halloc⟩ := hstep
    obtain ⟨r, allocator, k, _, _, _, _, _, hnew⟩ := KernelTaskObject.new_spec h.pages.pageDirectory halloc
    rw [OsState.createKernelTask, hnew, Option.map_some] at hcall
    cases hcall
    exact .inl rfl
  | startKernelTask m processCode taskArgs before =>
    cases hstep
    rcases s.startKernelTask_starts m processCode taskArgs before with
      heq | ⟨as, k, bs, stack, mem, response, task, core, _, hstarts, hval⟩
    · rw [heq]
      exact .inl rfl
    · rw [hval]
      exact .inl hstarts.keeps.1
  | socketCall call =>
    obtain ⟨_, cursor, r, _, rfl⟩ := hstep
    exact .inr (List.Subset.refl _)
  | taskSwitch activeTasks =>
    obtain ⟨_, rfl⟩ := hstep
    exact .inl rfl

theorem new_descriptor_closed (h : OsInv reserved s) {call : OsCall T} (hstep : s.step call t) {taskID : Fin T}
    (hnew : taskID ∈ t.activeIDs) (hold : taskID ∉ s.activeIDs) (i : SocketID) :
    (t.core.socketManager.socketDescs taskID i).isActive = 0 := by
  rcases step_sockets h hstep with hsame | hsub
  · rw [hsame]
    exact h.sockets.closed taskID hold i
  · exact absurd (hsub hnew) hold

/-! ## One task from its creation to its end -/

/-- A call that a running task makes, the network task's work, and switches. -/
def OsCall.OwnedBy (taskID : Fin T) : OsCall T → Prop
  | .socketCall call => call.caller = some taskID ∨ call.caller = none
  | .taskSwitch _ => True
  | _ => False

/-- What such calls leave as it is. -/
structure OwnFrame (taskID : Fin T) (s t : OsState T) : Prop where
  manager : t.manager = s.manager
  kernelTasks : t.kernelTasks = s.kernelTasks
  unusedTasks : t.core.unusedTasks = s.core.unusedTasks
  activeIDs : t.activeIDs = s.activeIDs
  isActive : ∀ t', t' ≠ taskID → ∀ i, (t.core.socketManager.socketDescs t' i).isActive =
    (s.core.socketManager.socketDescs t' i).isActive
  udpPort : ∀ t', t' ≠ taskID → ∀ i, (t.core.socketManager.socketDescs t' i).udpPort =
    (s.core.socketManager.socketDescs t' i).udpPort

theorem ownFrame_step (h : OsInv reserved s) {taskID : Fin T} {call : OsCall T} (hown : call.OwnedBy taskID)
    (hstep : s.step call t) : OwnFrame taskID s t := by
  cases call with
  | createUserTask | setToRunningState | removeUserTask | createKernelTask | startKernelTask => cases hown
  | taskSwitch activeTasks =>
    obtain ⟨hids, rfl⟩ := hstep
    exact ⟨rfl, rfl, rfl, hids, fun _ _ _ => rfl, fun _ _ _ => rfl⟩
  | socketCall call =>
    obtain ⟨_, cursor, r, hcall, rfl⟩ := hstep
    rcases hown with hcaller | hnone
    · obtain ⟨r', hcall', hkept⟩ := call_othersKept (s := ⟨s.core.socketManager, s.core.mem, cursor⟩)
        h.sockets.owned hcaller
      rw [hcall] at hcall'
      cases hcall'
      refine ⟨rfl, rfl, rfl, rfl, fun t' hne i => ?_, fun t' hne i => ?_⟩
      · dsimp only
        rw [hkept.socketDescs t' hne]
      · dsimp only
        rw [hkept.socketDescs t' hne]
    · have hsame := sameSockets_call hnone hcall
      exact ⟨rfl, rfl, rfl, rfl, fun t' _ i => hsame.isActive t' i, fun t' _ i => hsame.udpPort t' i⟩

theorem ownFrame_run (hT : T ≤ 256) {taskID : Fin T} {calls : List (OsCall T)} (h : OsInv reserved s)
    (hown : ∀ call ∈ calls, call.OwnedBy taskID) (hrun : (osLTS T reserved).Run s calls t) :
    OsInv reserved t ∧ OwnFrame taskID s t := by
  induction hrun with
  | nil => exact ⟨h, ⟨rfl, rfl, rfl, rfl, fun _ _ _ => rfl, fun _ _ _ => rfl⟩⟩
  | cons hstep _ ih =>
    have hfirst := ownFrame_step h (hown _ List.mem_cons_self) hstep
    obtain ⟨hinv, hrest⟩ := ih (osInv_step hT h hstep) fun call hmem => hown call (List.mem_cons_of_mem _ hmem)
    refine ⟨hinv, ⟨hrest.manager.trans hfirst.manager, hrest.kernelTasks.trans hfirst.kernelTasks,
      hrest.unusedTasks.trans hfirst.unusedTasks, hrest.activeIDs.trans hfirst.activeIDs, ?_, ?_⟩⟩
    · exact fun t' hne i => (hrest.isActive t' hne i).trans (hfirst.isActive t' hne i)
    · exact fun t' hne i => (hrest.udpPort t' hne i).trans (hfirst.udpPort t' hne i)

/-- A task is created, started, runs and is deleted. -/
def LifeCycle (reserved : Set Nat) (id : UInt32) (s t : OsState T) : Prop :=
  ∃ m s1 slot m' s2 taskID calls s3, s.createUserTask m id = some (.SUCCESS, s1) ∧ Allocates m s.core (1024 * 2) ∧
    s1.getUserTask id = some slot ∧ s1.setToRunningState m' slot = (.SUCCESS, s2) ∧
    (s2.manager.userTaskBuffers slot).task.taskID = some taskID ∧ (∀ call ∈ calls, call.OwnedBy taskID) ∧
    (osLTS T reserved).Run s2 calls s3 ∧ s3.removeUserTask id = some (.SUCCESS, t)

/-- Pages, ports, descriptors and slots in use are the same. -/
structure SameResources (s t : OsState T) : Prop where
  pages : ∀ p, p < 1023 * 1024 → (t.PageUsed p ↔ s.PageUsed p)
  ports : ∀ p, t.PortActive p ↔ s.PortActive p
  activeIDs : t.activeIDs.Perm s.activeIDs
  unusedTasks : t.core.unusedTasks = s.core.unusedTasks
  activeTasks : t.manager.activeTasks = s.manager.activeTasks
  unusedSlots : t.manager.unusedTasks = s.manager.unusedTasks

/-- The running task as its deletion finds it. -/
structure RunningTask (id : UInt32) (slot : Slot T) (taskID : Fin T) (s t : OsState T) : Prop where
  activeTasks : t.manager.activeTasks = (slot, id) :: s.manager.activeTasks
  unusedSlots : s.manager.unusedTasks = slot :: t.manager.unusedTasks
  buffers : ∀ slot', slot' ≠ slot → t.manager.userTaskBuffers slot' = s.manager.userTaskBuffers slot'
  task : (t.manager.userTaskBuffers slot).task = ⟨some taskID, true⟩
  kernelTasks : t.kernelTasks = s.kernelTasks
  unusedTasks : s.core.unusedTasks = taskID :: t.core.unusedTasks
  activeIDs : t.activeIDs = taskID :: s.activeIDs
  isActive : ∀ t', t' ≠ taskID → ∀ i, (t.core.socketManager.socketDescs t' i).isActive =
    (s.core.socketManager.socketDescs t' i).isActive
  udpPort : ∀ t', t' ≠ taskID → ∀ i, (t.core.socketManager.socketDescs t' i).udpPort =
    (s.core.socketManager.socketDescs t' i).udpPort

theorem runningTask_of_started (h : OsInv reserved s) {m m' : Machine} {s1 s2 : OsState T} {slot : Slot T} {taskID : Fin T}
    (hcreate : s.createUserTask m id = some (.SUCCESS, s1)) (halloc : Allocates m s.core (1024 * 2))
    (hslot : s1.getUserTask id = some slot) (hstart : s1.setToRunningState m' slot = (.SUCCESS, s2))
    (htask : (s2.manager.userTaskBuffers slot).task.taskID = some taskID) :
    OsInv reserved s2 ∧ RunningTask id slot taskID s s2 := by
  have hcreates := OsState.createUserTask_creates h.pages.isRunning h.pages.pageDirectory hcreate fun _ => halloc
  have h1 := osInv_creates h hcreates
  cases hcreates with
  | created slot' unusedSlots r allocator u mem hid hfind hunused =>
    have hfound : slot' = slot := by
      unfold OsState.getUserTask OsState.findTask at hslot
      simpa using hslot
    subst hfound
    have h2 := osInv_setToRunningState h1 m' (List.mem_map_of_mem (List.mem_cons_self (a := (slot', id))))
    rw [hstart] at h2
    refine ⟨h2, ?_⟩
    obtain ⟨stack, mem', response, task, core, hstarts, hval⟩ := OsState.setToRunningState_starts _ m' slot'
    rw [hstart] at hval
    cases hval
    cases hstarts with
    | started taskID' unusedTasks descriptor _ _ hunusedTasks =>
      have hsame : taskID' = taskID := by simpa using htask
      subst hsame
      refine ⟨rfl, hunused, fun slot'' hne => ?_, ?_, rfl, hunusedTasks, rfl, fun _ _ _ => rfl, fun _ _ _ => rfl⟩
      · dsimp only
        rw [Function.update_of_ne hne, Function.update_of_ne hne]
      · dsimp only
        rw [Function.update_self]

theorem RunningTask.trans {s2 s3 : OsState T} {slot : Slot T} {taskID : Fin T} (h : RunningTask id slot taskID s s2)
    (hf : OwnFrame taskID s2 s3) : RunningTask id slot taskID s s3 := by
  obtain ⟨hmanager, hkernelTasks, hunusedTasks, hactiveIDs, hisActive, hudpPort⟩ := hf
  refine ⟨?_, ?_, ?_, ?_, hkernelTasks.trans h.kernelTasks, ?_, hactiveIDs.trans h.activeIDs,
    fun t' hne i => (hisActive t' hne i).trans (h.isActive t' hne i),
    fun t' hne i => (hudpPort t' hne i).trans (h.udpPort t' hne i)⟩
  · rw [hmanager]
    exact h.activeTasks
  · rw [hmanager]
    exact h.unusedSlots
  · rw [hmanager]
    exact h.buffers
  · rw [hmanager]
    exact h.task
  · rw [hunusedTasks]
    exact h.unusedTasks

/-- Deleting the task gives back what it had. -/
theorem sameResources_removed (h : OsInv reserved s) {s3 : OsState T} (h3 : OsInv reserved s3) {slot : Slot T}
    {taskID : Fin T} (hr : RunningTask id slot taskID s s3) (hremove : s3.removeUserTask id = some (.SUCCESS, t)) :
    SameResources s t := by
  obtain ⟨result, t', hremove', hremoves⟩ := h3.removes id
  rw [hremove] at hremove'
  cases hremove'
  have ht := osInv_removes h3 hremoves
  have hfirst : s3.findTask id = some (slot, id) := by
    rw [OsState.findTask, hr.activeTasks]
    simp
  have hfree : taskID ∉ s.activeIDs := by
    intro hmem
    have hnd := h.descriptors.nodup
    rw [hr.unusedTasks] at hnd
    exact (List.nodup_append.mp hnd).2.2 taskID hmem taskID List.mem_cons_self rfl
  cases hremoves with
  | idle e as bs _ hfind _ _ hnone =>
    rw [hfirst] at hfind
    cases hfind
    rw [OsState.taskOf, hr.task] at hnone
    cases hnone
  | running e as bs taskID' sockets _ hfind _ hsplit htask hclose hkept =>
    rw [hfirst] at hfind
    cases hfind
    rw [OsState.taskOf, hr.task] at htask
    cases htask
    -- the task is at the front of the list
    have hrest : as ++ bs = s.manager.activeTasks := by
      have hactive := hr.activeTasks
      rw [hsplit] at hactive
      cases as with
      | nil => exact (List.cons.inj hactive).2
      | cons a as =>
        obtain ⟨ha, _⟩ := List.cons.inj hactive
        have hids := h3.slots.ids
        rw [hsplit, ha] at hids
        simp at hids
    have hother : ∀ e ∈ s.manager.activeTasks, s3.manager.userTaskBuffers e.1 = s.manager.userTaskBuffers e.1 :=
      fun e he => hr.buffers e.1 (h.slots.unused_ne (by simp [hr.unusedSlots]) he)
    refine ⟨fun p hp => ?_, fun p => ?_, ?_, hr.unusedTasks.symm, hrest, hr.unusedSlots.symm⟩
    · rw [(accounted ht).pages p hp, (accounted h).pages p hp]
      dsimp only
      rw [hrest, hr.kernelTasks]
      refine or_congr_right (or_congr_left (exists_congr fun e => and_congr_right fun he => ?_))
      show (s3.manager.userTaskBuffers e.1).region.Mem p ↔ (s.manager.userTaskBuffers e.1).region.Mem p
      rw [hother e he]
    · rw [portActive_iff ht.sockets, portActive_iff h.sockets]
      refine exists_congr fun t' => exists_congr fun i => ?_
      obtain ⟨hclosed, hunchanged⟩ := closeAllSocketsForTask_descs h3.sockets.owned hclose t' i
      by_cases hsame : t' = taskID
      · subst hsame
        refine iff_of_false (fun hopen => hopen.1 (hclosed rfl)) fun hopen => hopen.1 (h.sockets.closed t' hfree i)
      · dsimp only
        rw [hunchanged hsame, hr.isActive t' hsame i, hr.udpPort t' hsame i]
    · have hids : s3.activeIDs.Perm (taskID :: (s3.core.activeTasks.filter fun task => task.1 ≠ taskID).map Prod.fst) :=
        map_fst_filter_perm (List.nodup_append.mp h3.descriptors.nodup).1 (by rw [← OsState.activeIDs, hr.activeIDs]; simp)
      rw [hr.activeIDs] at hids
      exact hids.cons_inv.symm

theorem sameResources_lifeCycle (hT : T ≤ 256) (h : OsInv reserved s) (hlife : LifeCycle reserved id s t) :
    SameResources s t := by
  obtain ⟨m, s1, slot, m', s2, taskID, calls, s3, hcreate, halloc, hslot, hstart, htask, hown, hrun, hremove⟩ := hlife
  obtain ⟨h2, hrunning⟩ := runningTask_of_started h hcreate halloc hslot hstart htask
  obtain ⟨h3, hframe⟩ := ownFrame_run hT h2 hown hrun
  exact sameResources_removed h h3 (hrunning.trans hframe) hremove

/-- In every reachable state what is in use is what the tasks hold, a task that
is started has no open socket, and a task from its creation to its end leaves
the resources as they were. -/
theorem resources_accounted (hT : T ≤ 256) (reserved : Set Nat) (s : OsState T) (hs : (osLTS T reserved).Reachable s) :
    Accounted reserved s ∧
    (∀ call t, s.step call t → ∀ taskID ∈ t.activeIDs, taskID ∉ s.activeIDs →
      ∀ i, (t.core.socketManager.socketDescs taskID i).isActive = 0) ∧
    ∀ id t, LifeCycle reserved id s t → SameResources s t := by
  have h := osInv_inductive hT |>.reachable s hs
  refine ⟨accounted h, fun call t hstep taskID hnew hold i => new_descriptor_closed h hstep hnew hold i, ?_⟩
  exact fun id t hlife => sameResources_lifeCycle hT h hlife

/-- The first task gets 2048 pages that nobody else has. -/
theorem resources_accounted_booted : ∃ t, bootedState.createUserTask sampleMachine 7 = some (.SUCCESS, t) ∧
    t.manager.activeTasks.map Prod.snd = [7] ∧ Accounted bootedPages bootedState ∧ Accounted bootedPages t := by
  obtain ⟨t, hcreate, hids⟩ := bootedState_creates
  have hstep : (osLTS 50 bootedPages).step bootedState (.createUserTask sampleMachine 7) t :=
    ⟨_, hcreate, fun _ => bootedState_allocates⟩
  refine ⟨t, hcreate, hids, (resources_accounted (by decide) bootedPages bootedState bootedState_reachable).1, ?_⟩
  exact (resources_accounted (by decide) bootedPages t (bootedState_reachable.step hstep)).1

end CpuScheduler.L4
