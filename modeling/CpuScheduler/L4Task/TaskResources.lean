import CpuScheduler.L4Task.TaskManager

/-!
# What tasks hold

The pages, ports and descriptors in use, in terms of the tasks that exist. The
clean-up after a task is spread over the manager, the core, the sockets and the
page allocator, so the invariant has a part for each: `SlotsInv` for the
manager's lists, `DescriptorsInv` for the core's, `SocketsInv` and `PagesInv`.
Every call keeps the four parts.
-/
namespace CpuScheduler.L4

open L1 L1.PageAllocator L3

/-! ## Lists with one element more -/

section
variable {α β : Type} {f g : α → Option β} {as bs : List α} {x : α} {b : β}

theorem filterMap_insert_perm (hb : f x = some b) :
    ((as ++ x :: bs).filterMap f).Perm (b :: (as ++ bs).filterMap f) := by
  rw [List.filterMap_append, List.filterMap_cons_some hb, List.filterMap_append]
  exact List.perm_middle

theorem filterMap_insert_none (hx : f x = none) : (as ++ x :: bs).filterMap f = (as ++ bs).filterMap f := by
  rw [List.filterMap_append, List.filterMap_cons_none hx, List.filterMap_append]

theorem map_fst_filter_perm {l : List (β × α)} [DecidableEq β] (hnd : (l.map Prod.fst).Nodup)
    (hb : b ∈ l.map Prod.fst) : (l.map Prod.fst).Perm (b :: (l.filter fun e => e.1 ≠ b).map Prod.fst) := by
  have hfilter : (l.filter fun e => e.1 ≠ b).map Prod.fst = (l.map Prod.fst).erase b := by
    rw [hnd.erase_eq_filter, List.filter_map]
    congr 1
    refine List.filter_congr fun e _ => ?_
    simp [bne, BEq.beq]
  rw [hfilter]
  exact List.perm_cons_erase hb

end

/-! ## The invariant -/

section
variable {T : Nat}

theorem regionPages_pos : 0 < 2048 := by decide
theorem stackPages_pos : 0 < KERNEL_STACK_SIZE / 0x1000 := by decide

/-- The pages from an address on. -/
def UserTaskObject.region (t : UserTaskObject T) : Region := ⟨t.pTask8MBRegion.toNat / 0x1000, 2048, regionPages_pos⟩

def KernelTaskObject.region (k : KernelTaskObject T) : Region :=
  ⟨k.kernelStackSpaceBegin.toNat / 0x1000, KERNEL_STACK_SIZE / 0x1000, stackPages_pos⟩

namespace OsState

/-- The pages of all tasks. -/
def regions (s : OsState T) : List Region :=
  (s.manager.activeTasks.map fun e => (s.taskOf e).region) ++ s.kernelTasks.map KernelTaskObject.region

/-- The descriptors of the running tasks. -/
def userTaskIDs (s : OsState T) : List (Fin T) := s.manager.activeTasks.filterMap fun e => (s.taskOf e).task.taskID

def kernelTaskIDs (s : OsState T) : List (Fin T) := s.kernelTasks.filterMap fun k => k.task.taskID

end OsState

/-- A slot is in one of the lists, and an id belongs to one task. -/
structure SlotsInv (s : OsState T) : Prop where
  slots : (s.manager.activeTasks.map Prod.fst ++ s.manager.unusedTasks).Perm (List.finRange (TASK_MANAGER_MAX_TASKS T))
  ids : (s.manager.activeTasks.map Prod.snd).Nodup
  id_ne : ∀ e ∈ s.manager.activeTasks, e.2 ≠ 0

/-- A descriptor is in one of the lists, and is active for one running task. -/
structure DescriptorsInv (s : OsState T) : Prop where
  user : ∀ e ∈ s.manager.activeTasks, (s.taskOf e).task.isRunning = (s.taskOf e).task.taskID.isSome
  kernel : ∀ k ∈ s.kernelTasks, k.task.isRunning = k.task.taskID.isSome
  running : s.activeIDs.Perm (s.userTaskIDs ++ s.kernelTaskIDs)
  all : (s.activeIDs ++ s.core.unusedTasks).Perm (List.finRange T)

/-- An open socket belongs to an active descriptor. -/
structure SocketsInv (s : OsState T) : Prop where
  owned : Owned s.core.socketManager
  closed : ∀ t, t ∉ s.activeIDs → ∀ i, (s.core.socketManager.socketDescs t i).isActive = 0

/-- The pages allocated are the reserved ones and those of the tasks. -/
structure PagesInv (reserved : Set Nat) (s : OsState T) : Prop where
  isRunning : s.core.isRunning = true
  pageDirectory : s.core.currentPageDirectory = s.core.kernelPageDirectoryPhysicalAddr
  firstPage : 0 ∈ reserved
  refines : Refines ⟨s.core.kernelPageAllocator, reserved, {r | r ∈ s.regions}⟩
  nodup : s.regions.Nodup
  address : ∀ e ∈ s.manager.activeTasks, (s.taskOf e).pTask8MBRegion.toNat = 0x1000 * (s.taskOf e).region.first

structure OsInv (reserved : Set Nat) (s : OsState T) : Prop where
  slots : SlotsInv s
  descriptors : DescriptorsInv s
  sockets : SocketsInv s
  pages : PagesInv reserved s

variable {reserved : Set Nat} {s t : OsState T} {m : Machine} {id : UInt32}

theorem SlotsInv.nodup (h : SlotsInv s) : (s.manager.activeTasks.map Prod.fst ++ s.manager.unusedTasks).Nodup :=
  h.slots.nodup_iff.mpr (List.nodup_finRange _)

theorem DescriptorsInv.nodup (h : DescriptorsInv s) : (s.activeIDs ++ s.core.unusedTasks).Nodup :=
  h.all.nodup_iff.mpr (List.nodup_finRange _)

/-- The first page is reserved, so no task has its memory there. -/
theorem PagesInv.memory (h : PagesInv reserved s) {e : Slot T × UInt32} (he : e ∈ s.manager.activeTasks) :
    (s.taskOf e).pTask8MBRegion ≠ 0 := by
  intro hzero
  have hmem : (s.taskOf e).region ∈ s.regions := List.mem_append_left _ (List.mem_map_of_mem he)
  have hfirst : (s.taskOf e).region.first = 0 := by
    have haddress := h.address e he
    rw [hzero] at haddress
    simpa using haddress.symm
  exact h.refines.coloured.unfixed _ hmem 0 ⟨by omega, by rw [hfirst]; exact regionPages_pos⟩ h.firstPage

theorem osInv_constructed (h : OsState.Constructed reserved s) : OsInv reserved s := by
  obtain ⟨old, hsockets⟩ := h.sockets
  obtain ⟨s0, ranges, hall, hreserved⟩ := h.pages
  have hnone : s.activeIDs = [] := by rw [OsState.activeIDs, h.activeDescriptors]; rfl
  have hregions : s.regions = [] := by rw [OsState.regions, h.activeTasks, h.kernelTasks]; rfl
  refine ⟨⟨?_, ?_, ?_⟩, ⟨?_, ?_, ?_, ?_⟩, ⟨?_, ?_⟩, ⟨h.isRunning, h.pageDirectory, h.firstPage, ?_, ?_, ?_⟩⟩
  · rw [h.activeTasks, h.unusedSlots]
    exact .refl _
  · rw [h.activeTasks]
    exact List.nodup_nil
  · simp [h.activeTasks]
  · simp [h.activeTasks]
  · simp [h.kernelTasks]
  · rw [hnone, OsState.userTaskIDs, OsState.kernelTaskIDs, h.activeTasks, h.kernelTasks]
    exact .refl _
  · rw [hnone, h.unusedDescriptors]
    exact .refl _
  · rw [hsockets]
    exact owned_init old
  · intro t _ i
    rw [hsockets]
    rfl
  · have hempty : {r | r ∈ s.regions} = (∅ : Set Region) := by simp [hregions]
    rw [hempty]
    have hinit : (clientLTS s0).init ⟨s.core.kernelPageAllocator, reserved, ∅⟩ := ⟨ranges, hall, hreserved, rfl⟩
    exact refines_init hinit
  · rw [hregions]
    exact List.nodup_nil
  · simp [h.activeTasks]

/-! ## The manager's lists -/

theorem SlotsInv.same (h : SlotsInv s) (hactive : t.manager.activeTasks = s.manager.activeTasks)
    (hunused : t.manager.unusedTasks = s.manager.unusedTasks) : SlotsInv t := by
  refine ⟨?_, ?_, ?_⟩
  · rw [hactive, hunused]
    exact h.slots
  · rw [hactive]
    exact h.ids
  · rw [hactive]
    exact h.id_ne

theorem SlotsInv.creates {result : CreateUserTaskResult} (h : SlotsInv s) (hc : Creates s m id result t) :
    SlotsInv t := by
  cases hc with
  | null | taken | full => exact h
  | created slot unusedTasks r allocator u mem hid hfind hunused =>
    refine ⟨?_, ?_, ?_⟩
    · have hslots := h.slots
      rw [hunused] at hslots
      exact List.perm_middle.symm.trans hslots
    · refine List.nodup_cons.mpr ⟨fun hmem => ?_, h.ids⟩
      obtain ⟨e, he, heid⟩ := List.mem_map.mp hmem
      exact findTask_none hfind e he heid
    · intro e he
      cases he with
      | head => exact hid
      | tail _ he => exact h.id_ne e he

/-- An element is moved to the unused ones. -/
theorem SlotsInv.moved (h : SlotsInv s) {e : Slot T × UInt32} {as bs : List (Slot T × UInt32)}
    (hsplit : s.manager.activeTasks = as ++ e :: bs) (hactive : t.manager.activeTasks = as ++ bs)
    (hunused : t.manager.unusedTasks = e.1 :: s.manager.unusedTasks) : SlotsInv t := by
  have hslots := h.slots
  have hids := h.ids
  have hne := h.id_ne
  rw [hsplit] at hslots hids hne
  refine ⟨?_, ?_, ?_⟩
  · rw [hactive, hunused]
    refine List.Perm.trans ?_ hslots
    rw [List.map_append, List.map_append, List.map_cons]
    refine List.perm_middle.trans ?_
    rw [← List.cons_append]
    exact List.Perm.append_right _ List.perm_middle.symm
  · rw [hactive]
    rw [List.map_append, List.map_cons] at hids
    rw [List.map_append]
    exact (List.nodup_middle.mp hids).of_cons
  · rw [hactive]
    exact fun e' he' => hne e' (List.mem_append.mpr ((List.mem_append.mp he').imp_right (List.mem_cons_of_mem e)))

theorem SlotsInv.removes {result : RemoveUserTaskResult} (h : SlotsInv s) (hr : Removes s id result t) :
    SlotsInv t := by
  cases hr with
  | null | unknown => exact h
  | idle e as bs _ _ _ hsplit => exact h.moved hsplit rfl rfl
  | running e as bs taskID sockets _ _ _ hsplit => exact h.moved hsplit rfl rfl

/-! ## The descriptors -/

/-- The task in a slot is the only one that a change of that slot concerns. -/
theorem taskOf_of_ne {slot : Slot T} {u : UserTaskObject T} {e : Slot T × UInt32}
    (hbuffers : t.manager.userTaskBuffers = Function.update s.manager.userTaskBuffers slot u) (hne : e.1 ≠ slot) :
    t.taskOf e = s.taskOf e := by
  rw [OsState.taskOf, hbuffers, Function.update_of_ne hne]
  rfl

theorem taskOf_of_eq {slot : Slot T} {u : UserTaskObject T} {e : Slot T × UInt32}
    (hbuffers : t.manager.userTaskBuffers = Function.update s.manager.userTaskBuffers slot u) (heq : e.1 = slot) :
    t.taskOf e = u := by
  rw [OsState.taskOf, hbuffers, heq, Function.update_self]

/-- The other active elements are in other slots. -/
theorem SlotsInv.slot_ne (h : SlotsInv s) {e e' : Slot T × UInt32} {as bs : List (Slot T × UInt32)}
    (hsplit : s.manager.activeTasks = as ++ e :: bs) (he' : e' ∈ as ++ bs) : e'.1 ≠ e.1 := by
  have hnd := (List.nodup_append.mp h.nodup).1
  rw [hsplit, List.map_append, List.map_cons] at hnd
  intro heq
  have hmem := List.mem_map_of_mem (f := Prod.fst) he'
  rw [heq, List.map_append] at hmem
  exact (List.nodup_cons.mp (List.nodup_middle.mp hnd)).1 hmem

theorem SlotsInv.unused_ne (h : SlotsInv s) {slot : Slot T} (hslot : slot ∈ s.manager.unusedTasks)
    {e : Slot T × UInt32} (he : e ∈ s.manager.activeTasks) : e.1 ≠ slot :=
  (List.nodup_append.mp h.nodup).2.2 e.1 (List.mem_map_of_mem he) slot hslot

/-- Tasks and descriptors are the same. -/
theorem DescriptorsInv.same (h : DescriptorsInv s)
    (hactive : t.manager.activeTasks = s.manager.activeTasks)
    (htask : ∀ e ∈ s.manager.activeTasks, (t.taskOf e).task = (s.taskOf e).task)
    (hkernel : t.kernelTasks.map KernelTaskObject.task = s.kernelTasks.map KernelTaskObject.task)
    (hids : t.activeIDs = s.activeIDs) (hunused : t.core.unusedTasks = s.core.unusedTasks) : DescriptorsInv t := by
  have huser : t.userTaskIDs = s.userTaskIDs := by
    rw [OsState.userTaskIDs, hactive]
    exact List.filterMap_congr fun e he => by rw [htask e he]
  have hkernelIDs : t.kernelTaskIDs = s.kernelTaskIDs := by
    have hall := congrArg (List.filterMap TaskState.taskID) hkernel
    rw [List.filterMap_map, List.filterMap_map] at hall
    exact hall
  refine ⟨?_, ?_, ?_, ?_⟩
  · rw [hactive]
    intro e he
    rw [htask e he]
    exact h.user e he
  · intro k hk
    have hmem : k.task ∈ s.kernelTasks.map KernelTaskObject.task := by
      rw [← hkernel]
      exact List.mem_map_of_mem hk
    obtain ⟨k', hk', heq⟩ := List.mem_map.mp hmem
    rw [← heq]
    exact h.kernel k' hk'
  · rw [hids, huser, hkernelIDs]
    exact h.running
  · rw [hids, hunused]
    exact h.all

theorem DescriptorsInv.creates {result : CreateUserTaskResult} (h : DescriptorsInv s) (hslots : SlotsInv s)
    (hc : Creates s m id result t) : DescriptorsInv t := by
  cases hc with
  | null | taken | full => exact h
  | created slot unusedTasks r allocator u mem _ _ hunused _ _ _ htask _ =>
    generalize ht : ({ s with
      manager := ⟨Function.update s.manager.userTaskBuffers slot u, (slot, id) :: s.manager.activeTasks, unusedTasks⟩
      core := { s.core with kernelPageAllocator := allocator, mem := mem } } : OsState T) = t'
    have hbuffers : t'.manager.userTaskBuffers = Function.update s.manager.userTaskBuffers slot u := by rw [← ht]
    have hactive : t'.manager.activeTasks = (slot, id) :: s.manager.activeTasks := by rw [← ht]
    have hnew : t'.taskOf (slot, id) = u := taskOf_of_eq hbuffers rfl
    have hold : ∀ e ∈ s.manager.activeTasks, t'.taskOf e = s.taskOf e := by
      intro e he
      exact taskOf_of_ne hbuffers (hslots.unused_ne (by simp [hunused]) he)
    have huser : t'.userTaskIDs = s.userTaskIDs := by
      rw [OsState.userTaskIDs, hactive, List.filterMap_cons_none (by rw [hnew, htask])]
      exact List.filterMap_congr fun e he => by rw [hold e he]
    refine ⟨?_, ?_, ?_, ?_⟩
    · rw [hactive]
      intro e he
      cases he with
      | head => rw [hnew, htask]; rfl
      | tail _ he =>
        rw [hold e he]
        exact h.user e he
    · rw [← ht]
      exact h.kernel
    · rw [huser, ← ht]
      exact h.running
    · rw [← ht]
      exact h.all

/-- One more descriptor is in use. -/
theorem perm_started {taskID : Fin T} {unusedTasks : List (Fin T)} (hall : (s.activeIDs ++ s.core.unusedTasks).Perm
    (List.finRange T)) (hunused : s.core.unusedTasks = taskID :: unusedTasks) :
    (taskID :: s.activeIDs ++ unusedTasks).Perm (List.finRange T) := by
  rw [hunused] at hall
  exact List.perm_middle.symm.trans hall

theorem DescriptorsInv.setToRunningState (h : DescriptorsInv s) (hslots : SlotsInv s) (m : Machine) {slot : Slot T}
    (hslot : slot ∈ s.manager.activeTasks.map Prod.fst) : DescriptorsInv (s.setToRunningState m slot).2 := by
  obtain ⟨stack, mem, response, task, core, hstarts, hval⟩ := s.setToRunningState_starts m slot
  rw [hval]
  generalize ht : ({ s with
      manager := { s.manager with
        userTaskBuffers := Function.update s.manager.userTaskBuffers slot
          { s.manager.userTaskBuffers slot with task := task, updatedKernelStack := stack } }
      core := core } : OsState T) = t
  have hbuffers : t.manager.userTaskBuffers = Function.update s.manager.userTaskBuffers slot
      { s.manager.userTaskBuffers slot with task := task, updatedKernelStack := stack } := by rw [← ht]
  obtain ⟨e, he, rfl⟩ := List.mem_map.mp hslot
  obtain ⟨as, bs, hsplit⟩ := List.append_of_mem he
  have hactive : t.manager.activeTasks = as ++ e :: bs := by rw [← ht]; exact hsplit
  have hnew : (t.taskOf e).task = task := by rw [taskOf_of_eq hbuffers rfl]
  have hold : ∀ e' ∈ as ++ bs, t.taskOf e' = s.taskOf e' := fun e' he' =>
    taskOf_of_ne hbuffers (hslots.slot_ne hsplit he')
  have hrefused : task = (s.taskOf e).task → core.activeTasks = s.core.activeTasks →
      core.unusedTasks = s.core.unusedTasks → DescriptorsInv t := by
    intro htask hcoreActive hcoreUnused
    refine h.same (by rw [← ht]) (fun e' he' => ?_) (by rw [← ht]) (by rw [← ht]; exact congrArg (List.map Prod.fst) hcoreActive)
      (by rw [← ht]; exact hcoreUnused)
    by_cases hsame : e'.1 = e.1
    · rw [taskOf_of_eq hbuffers hsame, htask, OsState.taskOf, OsState.taskOf, hsame]
    · rw [taskOf_of_ne hbuffers hsame]
  cases hstarts with
  | running | uninitialised | full => exact hrefused rfl rfl rfl
  | started taskID unusedTasks descriptor hidle _ hunused =>
    have hnone : (s.taskOf e).task.taskID = none := by
      have huser := h.user e he
      rw [show (s.taskOf e).task.isRunning = false from hidle] at huser
      exact Option.isNone_iff_eq_none.mp (by simpa using huser.symm)
    have hids : t.activeIDs = taskID :: s.activeIDs := by rw [← ht]; rfl
    have hsplitIDs : s.userTaskIDs = (as ++ bs).filterMap fun e => (s.taskOf e).task.taskID := by
      rw [OsState.userTaskIDs, hsplit]
      exact filterMap_insert_none hnone
    have huser : t.userTaskIDs.Perm (taskID :: s.userTaskIDs) := by
      rw [OsState.userTaskIDs, hactive, hsplitIDs]
      have hsame : (as ++ bs).filterMap (fun e => (t.taskOf e).task.taskID) =
          (as ++ bs).filterMap fun e => (s.taskOf e).task.taskID :=
        List.filterMap_congr fun e' he' => by rw [hold e' he']
      rw [← hsame]
      exact filterMap_insert_perm (by rw [hnew])
    refine ⟨?_, ?_, ?_, ?_⟩
    · rw [hactive]
      intro e' he'
      by_cases hsame : e' ∈ as ++ bs
      · rw [hold e' hsame]
        exact h.user e' (by rw [hsplit]; exact he')
      · have heq : e' = e := by
          simp only [List.mem_append, List.mem_cons, not_or] at he' hsame
          tauto
        rw [heq, hnew]
        rfl
    · rw [← ht]
      exact h.kernel
    · rw [hids, show t.kernelTaskIDs = s.kernelTaskIDs by rw [← ht]; rfl]
      exact (h.running.cons taskID).trans (huser.symm.append_right _)
    · rw [hids, show t.core.unusedTasks = unusedTasks by rw [← ht]]
      exact perm_started h.all hunused

theorem DescriptorsInv.createKernelTask (h : DescriptorsInv s) {k : KernelTaskObject T} (hk : k.task = ⟨none, false⟩)
    (core : CpuCore T) (hactive : core.activeTasks = s.core.activeTasks) (hunused : core.unusedTasks = s.core.unusedTasks) :
    DescriptorsInv { s with kernelTasks := k :: s.kernelTasks, core := core } := by
  have hids : s.kernelTaskIDs = (k :: s.kernelTasks).filterMap fun k => k.task.taskID := by
    rw [List.filterMap_cons_none (by rw [hk])]
    rfl
  have hactiveIDs : core.activeTasks.map Prod.fst = s.activeIDs := congrArg (List.map Prod.fst) hactive
  refine ⟨h.user, ?_, ?_, ?_⟩
  · intro k' hk'
    cases hk' with
    | head => rw [hk]; rfl
    | tail _ hk' => exact h.kernel k' hk'
  · have hrunning := h.running
    rw [hids, ← hactiveIDs] at hrunning
    exact hrunning
  · have hall := h.all
    rw [← hactiveIDs, ← hunused] at hall
    exact hall

theorem DescriptorsInv.startKernelTask (h : DescriptorsInv s) {as bs : List (KernelTaskObject T)}
    {k : KernelTaskObject T} {stack : UInt32} {mem : Mem} {response : SetToRunningStateResponse} {task : TaskState T}
    {core : CpuCore T} (hsplit : s.kernelTasks = as ++ k :: bs)
    (hstarts : Starts k.kernelStackSpaceBegin k.task { s.core with mem := mem } response task core) :
    DescriptorsInv { s with
      kernelTasks := as ++ { k with task := task, updatedKernelStack := stack } :: bs, core := core } := by
  have hrefused : task = k.task → core.activeTasks = s.core.activeTasks → core.unusedTasks = s.core.unusedTasks →
      DescriptorsInv { s with
        kernelTasks := as ++ { k with task := task, updatedKernelStack := stack } :: bs, core := core } := by
    intro htask hactive hunused
    refine h.same rfl (fun _ _ => rfl) ?_ (congrArg (List.map Prod.fst) hactive) hunused
    rw [hsplit, htask]
    simp
  cases hstarts with
  | running | uninitialised | full => exact hrefused rfl rfl rfl
  | started taskID unusedTasks descriptor hidle _ hunused =>
    have hk : k ∈ s.kernelTasks := by simp [hsplit]
    have hnone : k.task.taskID = none := by
      have hkernel := h.kernel k hk
      rw [hidle] at hkernel
      exact Option.isNone_iff_eq_none.mp (by simpa using hkernel.symm)
    have hsplitIDs : s.kernelTaskIDs = (as ++ bs).filterMap fun k => k.task.taskID := by
      rw [OsState.kernelTaskIDs, hsplit]
      exact filterMap_insert_none hnone
    refine ⟨h.user, ?_, ?_, ?_⟩
    · intro k' hk'
      rcases List.mem_append.mp hk' with hmem | hmem
      · exact h.kernel k' (by simp [hsplit, hmem])
      · cases hmem with
        | head => rfl
        | tail _ hbehind =>
          refine h.kernel k' ?_
          rw [hsplit]
          exact List.mem_append_right _ (List.mem_cons_of_mem k hbehind)
    · have hnew : (taskID :: s.kernelTaskIDs).Perm
          ((as ++ { k with task := ⟨some taskID, true⟩, updatedKernelStack := stack } :: bs).filterMap
            fun k => k.task.taskID) := by
        rw [hsplitIDs]
        exact (filterMap_insert_perm (f := fun k : KernelTaskObject T => k.task.taskID) rfl).symm
      exact (h.running.cons taskID).trans (List.perm_middle.symm.trans (hnew.append_left _))
    · exact perm_started h.all hunused

theorem DescriptorsInv.removes {result : RemoveUserTaskResult} (h : DescriptorsInv s) (hr : Removes s id result t) :
    DescriptorsInv t := by
  have hsub : ∀ {e : Slot T × UInt32} {as bs : List (Slot T × UInt32)}, s.manager.activeTasks = as ++ e :: bs →
      ∀ e' ∈ as ++ bs, e' ∈ s.manager.activeTasks := by
    intro e as bs hsplit e' he'
    rw [hsplit]
    exact List.mem_append.mpr ((List.mem_append.mp he').imp_right (List.mem_cons_of_mem e))
  cases hr with
  | null | unknown => exact h
  | idle e as bs _ _ _ hsplit hnone =>
    have huser : s.userTaskIDs = (as ++ bs).filterMap fun e => (s.taskOf e).task.taskID := by
      rw [OsState.userTaskIDs, hsplit]
      exact filterMap_insert_none hnone
    refine ⟨fun e' he' => h.user e' (hsub hsplit e' he'), h.kernel, ?_, h.all⟩
    have hrunning := h.running
    rw [huser] at hrunning
    exact hrunning
  | running e as bs taskID sockets _ _ _ hsplit htask =>
    have huser : s.userTaskIDs.Perm (taskID :: (as ++ bs).filterMap fun e => (s.taskOf e).task.taskID) := by
      rw [OsState.userTaskIDs, hsplit]
      exact filterMap_insert_perm (by rw [htask])
    have hmem : taskID ∈ s.activeIDs := h.running.symm.subset (List.mem_append_left _ (huser.symm.subset List.mem_cons_self))
    have hids : s.activeIDs.Perm (taskID :: (s.core.activeTasks.filter fun task => task.1 ≠ taskID).map Prod.fst) :=
      map_fst_filter_perm (List.nodup_append.mp h.nodup).1 hmem
    refine ⟨fun e' he' => h.user e' (hsub hsplit e' he'), h.kernel, ?_, ?_⟩
    · refine List.Perm.cons_inv (a := taskID) (hids.symm.trans (h.running.trans ?_))
      exact huser.append_right _
    · refine List.perm_middle.trans (List.Perm.trans ?_ h.all)
      exact hids.symm.append_right _

/-! ## The sockets -/

theorem SocketsInv.same (h : SocketsInv s) (hsockets : t.core.socketManager = s.core.socketManager)
    (hids : s.activeIDs ⊆ t.activeIDs) : SocketsInv t := by
  constructor
  · rw [hsockets]
    exact h.owned
  · rw [hsockets]
    exact fun taskID hno => h.closed taskID fun hmem => hno (hids hmem)

theorem Starts.keeps {memory : UInt32} {u u' : TaskState T} {c c' : CpuCore T} {response : SetToRunningStateResponse}
    (h : Starts memory u c response u' c') : c'.socketManager = c.socketManager ∧
      c'.kernelPageAllocator = c.kernelPageAllocator ∧ c'.isRunning = c.isRunning ∧
      c'.currentPageDirectory = c.currentPageDirectory ∧
      c'.kernelPageDirectoryPhysicalAddr = c.kernelPageDirectoryPhysicalAddr ∧
      c.activeTasks.map Prod.fst ⊆ c'.activeTasks.map Prod.fst := by
  cases h with
  | running | uninitialised | full => exact ⟨rfl, rfl, rfl, rfl, rfl, List.Subset.refl _⟩
  | started => exact ⟨rfl, rfl, rfl, rfl, rfl, List.subset_cons_self _ _⟩

theorem SocketsInv.removes {result : RemoveUserTaskResult} (h : SocketsInv s) (hr : Removes s id result t) :
    SocketsInv t := by
  cases hr with
  | null | unknown => exact h
  | idle => exact ⟨h.owned, h.closed⟩
  | running e as bs taskID sockets _ _ _ _ _ hclose =>
    refine ⟨owned_closeLoop h.owned hclose, fun taskID' hno i => ?_⟩
    obtain ⟨hclosed, hother⟩ := closeAllSocketsForTask_descs h.owned hclose taskID' i
    by_cases hsame : taskID' = taskID
    · exact hclosed hsame
    · dsimp only
      rw [hother hsame]
      refine h.closed taskID' (fun hmem => hno ?_) i
      obtain ⟨e, he, heq⟩ := List.mem_map.mp hmem
      exact List.mem_map.mpr ⟨e, List.mem_filter.mpr ⟨he, by simpa [heq] using hsame⟩, heq⟩

/-- A call for a running task, or for none. -/
theorem SocketsInv.socketCall (hT : T ≤ 256) (h : SocketsInv s) {call : SocketCall T} {cursor : ReqPtr} {r : Sockets T}
    (hcaller : ∀ taskID, call.caller = some taskID → taskID ∈ s.activeIDs)
    (hcall : (⟨s.core.socketManager, s.core.mem, cursor⟩ : Sockets T).call call = some r) :
    SocketsInv { s with core := { s.core with socketManager := r.manager, mem := r.mem } } := by
  refine ⟨call_owned hT h.owned hcall, fun taskID hno i => ?_⟩
  cases hc : call.caller with
  | none =>
    have hsame := sameSockets_call hc hcall
    exact (hsame.isActive taskID i).trans (h.closed taskID hno i)
  | some owner =>
    obtain ⟨r', hcall', hkept⟩ := call_othersKept (s := ⟨s.core.socketManager, s.core.mem, cursor⟩) h.owned hc
    rw [hcall] at hcall'
    cases hcall'
    have hne : taskID ≠ owner := fun heq => hno (heq ▸ hcaller owner hc)
    dsimp only
    rw [hkept.socketDescs taskID hne]
    exact h.closed taskID hno i

/-! ## The pages -/

theorem PagesInv.same (h : PagesInv reserved s) (hactive : t.manager.activeTasks = s.manager.activeTasks)
    (hmemory : ∀ e ∈ s.manager.activeTasks, (t.taskOf e).pTask8MBRegion = (s.taskOf e).pTask8MBRegion)
    (hkernel : t.kernelTasks.map KernelTaskObject.kernelStackSpaceBegin =
      s.kernelTasks.map KernelTaskObject.kernelStackSpaceBegin)
    (hallocator : t.core.kernelPageAllocator = s.core.kernelPageAllocator) (hrun : t.core.isRunning = s.core.isRunning)
    (hcurrent : t.core.currentPageDirectory = s.core.currentPageDirectory)
    (hdirectory : t.core.kernelPageDirectoryPhysicalAddr = s.core.kernelPageDirectoryPhysicalAddr) :
    PagesInv reserved t := by
  have hregion : ∀ e ∈ s.manager.activeTasks, (t.taskOf e).region = (s.taskOf e).region := by
    intro e he
    unfold UserTaskObject.region
    simp only [hmemory e he]
  have hkernelRegions : t.kernelTasks.map KernelTaskObject.region = s.kernelTasks.map KernelTaskObject.region := by
    have hall := congrArg (List.map fun a : UInt32 => (⟨a.toNat / 0x1000, KERNEL_STACK_SIZE / 0x1000, stackPages_pos⟩ : Region))
      hkernel
    rw [List.map_map, List.map_map] at hall
    exact hall
  have hregions : t.regions = s.regions := by
    unfold OsState.regions
    rw [hactive, hkernelRegions, List.map_congr_left hregion]
  refine ⟨hrun.trans h.isRunning, ?_, h.firstPage, ?_, ?_, ?_⟩
  · rw [hcurrent, hdirectory]
    exact h.pageDirectory
  · rw [hallocator, hregions]
    exact h.refines
  · rw [hregions]
    exact h.nodup
  · rw [hactive]
    intro e he
    rw [hmemory e he, hregion e he]
    exact h.address e he

/-- An allocated region was not in use. -/
theorem allocated_fresh {c : Client} (h : Refines c) {behind : Nat → UInt32} {numPages : UInt32} {r : Region}
    {allocator : PageAllocator} (hsize : r.size = numPages.toNat) (hbelow : r.first + r.size ≤ 1023 * 1024)
    (hcall : c.allocator.allocateContiguousPages behind numPages = some (0x1000 * r.first, allocator)) : r ∉ c.live := by
  intro hr
  have hpos := r.pos
  obtain ⟨hfits, _⟩ := allocateContiguousPages_fits h.summarised (by omega) hcall (by omega)
  have hused := (h.coloured.used r.first (by omega)).mpr (.inr ⟨r, hr, r.first_mem⟩)
  exact hused (hfits.free r.first (Nat.le_refl _) (by omega))

theorem toNat_address {first : Nat} (h : first < 1023 * 1024) : (UInt32.ofNat (0x1000 * first)).toNat = 0x1000 * first := by
  rw [UInt32.toNat_ofNat']
  omega

/-- The region at the front of the list is new. -/
theorem PagesInv.allocated (h : PagesInv reserved s) {behind : Nat → UInt32} {numPages : UInt32} {r : Region}
    {allocator : PageAllocator} (hsize : r.size = numPages.toNat) (hbelow : r.first + r.size ≤ 1023 * 1024)
    (hcall : s.core.kernelPageAllocator.allocateContiguousPages behind numPages = some (0x1000 * r.first, allocator))
    {regions : List Region} (hregions : regions.Perm (r :: s.regions)) :
    Refines ⟨allocator, reserved, {r | r ∈ regions}⟩ ∧ regions.Nodup := by
  have hfresh : r ∉ s.regions := allocated_fresh h.refines hsize hbelow hcall
  have hset : {r | r ∈ regions} = insert r {r | r ∈ s.regions} := by
    ext r'
    rw [Set.mem_ofPred_eq, hregions.mem_iff, List.mem_cons]
    rfl
  constructor
  · rw [hset]
    exact h.refines.allocate hsize hbelow hcall
  · exact hregions.nodup_iff.mpr (List.nodup_cons.mpr ⟨hfresh, h.nodup⟩)

theorem PagesInv.creates {result : CreateUserTaskResult} (h : PagesInv reserved s) (hslots : SlotsInv s)
    (hc : Creates s m id result t) : PagesInv reserved t := by
  cases hc with
  | null | taken | full => exact h
  | created slot unusedTasks r allocator u mem _ _ hunused hsize hbelow hcall _ hmemory =>
    generalize ht : ({ s with
      manager := ⟨Function.update s.manager.userTaskBuffers slot u, (slot, id) :: s.manager.activeTasks, unusedTasks⟩
      core := { s.core with kernelPageAllocator := allocator, mem := mem } } : OsState T) = t'
    have hbuffers : t'.manager.userTaskBuffers = Function.update s.manager.userTaskBuffers slot u := by rw [← ht]
    have hactive : t'.manager.activeTasks = (slot, id) :: s.manager.activeTasks := by rw [← ht]
    have hnew : t'.taskOf (slot, id) = u := taskOf_of_eq hbuffers rfl
    have hold : ∀ e ∈ s.manager.activeTasks, t'.taskOf e = s.taskOf e := by
      intro e he
      exact taskOf_of_ne hbuffers (hslots.unused_ne (by simp [hunused]) he)
    have haddress : u.pTask8MBRegion.toNat = 0x1000 * r.first := by rw [hmemory, toNat_address (by omega)]
    have hregion : u.region = r := by
      obtain ⟨first, size, hpos⟩ := r
      dsimp only at hsize haddress
      subst hsize
      unfold UserTaskObject.region
      congr 1
      omega
    have hregions : t'.regions = r :: s.regions := by
      have htail : (s.manager.activeTasks.map fun e => (t'.taskOf e).region) =
          s.manager.activeTasks.map fun e => (s.taskOf e).region :=
        List.map_congr_left fun e he => by rw [hold e he]
      rw [OsState.regions, hactive, List.map_cons, hnew, hregion, htail, ← ht]
      rfl
    obtain ⟨hrefines, hnodup⟩ := h.allocated hsize hbelow hcall (.of_eq hregions)
    refine ⟨?_, ?_, h.firstPage, ?_, hnodup, ?_⟩
    · rw [← ht]
      exact h.isRunning
    · rw [← ht]
      exact h.pageDirectory
    · rw [show t'.core.kernelPageAllocator = allocator by rw [← ht]]
      exact hrefines
    · rw [hactive]
      intro e he
      cases he with
      | head =>
        rw [hnew, hregion]
        exact haddress
      | tail _ he =>
        rw [hold e he]
        exact h.address e he

theorem PagesInv.createKernelTask (h : PagesInv reserved s) {k : KernelTaskObject T} {r : Region}
    {allocator : PageAllocator} (hsize : r.size = KERNEL_STACK_SIZE / 0x1000) (hbelow : r.first + r.size ≤ 1023 * 1024)
    (hcall : s.core.kernelPageAllocator.allocateContiguousPages m.behind (UInt32.ofNat (KERNEL_STACK_SIZE / 0x1000)) =
      some (0x1000 * r.first, allocator)) (hstack : k.kernelStackSpaceBegin = UInt32.ofNat (0x1000 * r.first)) :
    PagesInv reserved { s with
      kernelTasks := k :: s.kernelTasks, core := { s.core with kernelPageAllocator := allocator } } := by
  have hregion : k.region = r := by
    have haddress : k.kernelStackSpaceBegin.toNat = 0x1000 * r.first := by
      have hpos := r.pos
      rw [hstack, toNat_address (by omega)]
    obtain ⟨first, size, hpos⟩ := r
    dsimp only at hsize haddress
    subst hsize
    unfold KernelTaskObject.region
    congr 1
    omega
  have hpages : r.size = (UInt32.ofNat (KERNEL_STACK_SIZE / 0x1000)).toNat := by
    rw [hsize]
    decide
  have hperm : (OsState.regions { s with
      kernelTasks := k :: s.kernelTasks, core := { s.core with kernelPageAllocator := allocator } }).Perm
      (r :: s.regions) := by
    rw [← hregion]
    exact List.perm_middle
  obtain ⟨hrefines, hnodup⟩ := h.allocated hpages hbelow hcall hperm
  exact ⟨h.isRunning, h.pageDirectory, h.firstPage, hrefines, hnodup, h.address⟩

/-- The region of a destroyed task is freed. -/
theorem PagesInv.freed (h : PagesInv reserved s) {e : Slot T × UInt32} {as bs : List (Slot T × UInt32)}
    (hsplit : s.manager.activeTasks = as ++ e :: bs) (hactive : t.manager.activeTasks = as ++ bs)
    (hbuffers : t.manager.userTaskBuffers = s.manager.userTaskBuffers) (hkernel : t.kernelTasks = s.kernelTasks)
    (hallocator : t.core.kernelPageAllocator =
      s.core.kernelPageAllocator.freeContiguousPages (s.taskOf e).pTask8MBRegion.toNat)
    (hrun : t.core.isRunning = s.core.isRunning) (hcurrent : t.core.currentPageDirectory = s.core.currentPageDirectory)
    (hdirectory : t.core.kernelPageDirectoryPhysicalAddr = s.core.kernelPageDirectoryPhysicalAddr) :
    PagesInv reserved t := by
  have he : e ∈ s.manager.activeTasks := by simp [hsplit]
  have htask : ∀ e, t.taskOf e = s.taskOf e := by
    intro e
    rw [OsState.taskOf, hbuffers]
    rfl
  have hperm : s.regions.Perm ((s.taskOf e).region :: t.regions) := by
    unfold OsState.regions
    rw [hsplit, hactive, hkernel, List.map_append, List.map_cons, List.map_append, ← List.cons_append]
    simp only [htask]
    exact List.perm_middle.append_right _
  have hnd : ((s.taskOf e).region :: t.regions).Nodup := hperm.nodup_iff.mp h.nodup
  have hset : {r | r ∈ t.regions} = {r | r ∈ s.regions} \ {(s.taskOf e).region} := by
    ext r
    rw [Set.mem_sdiff, Set.mem_ofPred_eq, Set.mem_ofPred_eq, hperm.mem_iff, List.mem_cons, Set.mem_singleton_iff]
    constructor
    · intro hr
      exact ⟨.inr hr, fun heq => (List.nodup_cons.mp hnd).1 (heq ▸ hr)⟩
    · rintro ⟨hr, hne⟩
      exact hr.resolve_left hne
  refine ⟨hrun.trans h.isRunning, ?_, h.firstPage, ?_, (List.nodup_cons.mp hnd).2, ?_⟩
  · rw [hcurrent, hdirectory]
    exact h.pageDirectory
  · rw [hset, hallocator, h.address e he]
    exact h.refines.free (hperm.symm.subset List.mem_cons_self)
  · rw [hactive]
    intro e' he'
    rw [htask]
    refine h.address e' ?_
    rw [hsplit]
    exact List.mem_append.mpr ((List.mem_append.mp he').imp_right (List.mem_cons_of_mem e))

theorem PagesInv.removes {result : RemoveUserTaskResult} (h : PagesInv reserved s) (hr : Removes s id result t) :
    PagesInv reserved t := by
  cases hr with
  | null | unknown => exact h
  | idle e as bs _ _ _ hsplit => exact h.freed hsplit rfl rfl rfl rfl rfl rfl rfl
  | running e as bs taskID sockets _ _ _ hsplit => exact h.freed hsplit rfl rfl rfl rfl rfl rfl rfl

end

end CpuScheduler.L4
