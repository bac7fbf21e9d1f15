import CpuScheduler.Core.DoublyLinked
import CpuScheduler.Core.LTS
import CpuScheduler.Core.Rotation
import CpuScheduler.L4Task.TaskLifetime

/-!
# The task lists, one write at a time

`setToRunningState` and the destructor of a task edit the two lists of task
descriptors with separate writes, and the timer interrupt (`yieldTaskSwitch`)
may come between any two of them. It runs to its end with interrupts off, so
it is one step; `Update` says how far the management task has come, and
`write` is its next write. Between two writes nobody else changes a link, so
the reads of a statement belong to the write it ends with.

The tasks that edit the lists are the management task `M` and, before any
task runs, `kernelMain`, which does it with task switching paused
(`MayUpdate`). Whatever the running task does to its stack pointer and to the
page directory is `execute`. `selected` is no variable of the kernel: it
records the tasks that were switched to, the last one at the end.
-/
namespace CpuScheduler.L5

open Links Rotation L4

variable {T : Nat}

/-- How far `setToRunningState` (of a task with the values `d`) or a
destructor has come: what it does next.
mirrors cpu_core.cpp:525-584, 644-703 -/
inductive Update (T : Nat) where
  | idle
  /-- `unusedtaskDescriptorElementsListHead = newTask->next` -/
  | takeUnused (newTask : Fin T) (d : TaskDescriptor)
  /-- `newTask->value.taskEsp = ..` -/
  | setEsp (newTask : Fin T) (d : TaskDescriptor)
  /-- `newTask->value.kernelEspStackBegin = ..` -/
  | setStackBegin (newTask : Fin T) (d : TaskDescriptor)
  /-- `newTask->value.pageDirectoryPhysicalAddr = ..` -/
  | setDirectory (newTask : Fin T) (d : TaskDescriptor)
  /-- `newTask->next = activeTasksListHead` -/
  | setNext (newTask : Fin T)
  /-- `newTask->prev = nullptr` -/
  | clearPrev (newTask : Fin T)
  /-- `activeTasksListHead->prev = newTask` -/
  | linkBack (newTask : Fin T)
  /-- `activeTasksListHead = newTask` -/
  | publish (newTask : Fin T)
  /-- `thisTask->prev->next = thisTask->next`, or the head -/
  | unlink (thisTask : Fin T)
  /-- `thisTask->next->prev = thisTask->prev` -/
  | bridge (thisTask : Fin T)
  /-- `thisTask->next = unusedtaskDescriptorElementsListHead` -/
  | linkUnused (thisTask : Fin T)
  /-- `unusedtaskDescriptorElementsListHead = thisTask` -/
  | giveBack (thisTask : Fin T)

structure CpuState (T : Nat) where
  next : Fin T → Option (Fin T)
  prev : Fin T → Option (Fin T)
  value : Fin T → TaskDescriptor
  unusedTasksListHead : Option (Fin T)
  activeTasksListHead : Option (Fin T)
  currentTask : Option (Fin T)
  taskSwitchingPaused : Bool
  esp : UInt32
  esp0 : UInt32
  pageDirectory : UInt32
  update : Update T
  selected : List (Fin T)

def MAIN_KERNEL_STACK : UInt32 := 0x10FFFC

namespace CpuState

/-- The links that the constructor makes.
mirrors cpu_core.cpp:320-327 -/
def chained (i : Fin T) : Option (Fin T) := if h : i.val + 1 < T then some ⟨i.val + 1, h⟩ else none

/-- The `prev` links, the stack pointer and the page directory are whatever
they are. mirrors cpu_core.cpp:294-330 -/
def construct [NeZero T] (prev : Fin T → Option (Fin T)) (esp pageDirectory : UInt32) : CpuState T where
  next := chained
  prev := prev
  value := fun _ => ⟨0, 0, 0⟩
  unusedTasksListHead := some 0
  activeTasksListHead := none
  currentTask := none
  taskSwitchingPaused := false
  esp := esp
  esp0 := MAIN_KERNEL_STACK
  pageDirectory := pageDirectory
  update := .idle
  selected := []

def activeTasks (s : CpuState T) : List (Fin T) := walk s.next T s.activeTasksListHead

def unusedTasks (s : CpuState T) : List (Fin T) := walk s.next T s.unusedTasksListHead

/-! ## yieldTaskSwitch -/

/-- The task behind the current one, `head` if there is none.
mirrors cpu_core.cpp:50 -/
def nextOrHead (s : CpuState T) (head : Fin T) : Fin T :=
  match s.currentTask with
  | none => head
  | some currentTask => (s.next currentTask).getD head

/-- The task that `yieldTaskSwitch` switches to; `none` if it returns without
doing anything. mirrors cpu_core.cpp:45-54 -/
def nextTask (s : CpuState T) : Option (Fin T) :=
  if s.taskSwitchingPaused then none
  else
    match s.activeTasksListHead with
    | none => none
    | some head => if s.currentTask = some (s.nextOrHead head) then none else some (s.nextOrHead head)

/-- mirrors current_paging_structure.cpp:10-17 -/
def swapPageDirectory (s : CpuState T) (newPageDirectory : UInt32) : UInt32 × CpuState T :=
  (s.pageDirectory, { s with pageDirectory := newPageDirectory })

def setTaskEsp (s : CpuState T) (x : Fin T) (esp : UInt32) : CpuState T :=
  { s with value := Function.update s.value x { s.value x with taskEsp := esp } }

def setKernelEspStackBegin (s : CpuState T) (x : Fin T) (stack : UInt32) : CpuState T :=
  { s with value := Function.update s.value x { s.value x with kernelEspStackBegin := stack } }

def setPageDirectory (s : CpuState T) (x : Fin T) (directory : UInt32) : CpuState T :=
  { s with value := Function.update s.value x { s.value x with pageDirectoryPhysicalAddr := directory } }

/-- mirrors cpu_core.cpp:56-72 -/
def switchTo (s : CpuState T) (nextTask : Fin T) : CpuState T :=
  let currentTask := s.currentTask
  let s := { s with currentTask := some nextTask, selected := s.selected ++ [nextTask] }
  let s := match currentTask with
    | some currentTask => s.setTaskEsp currentTask s.esp
    | none => s
  let s := { s with esp := (s.value nextTask).taskEsp, esp0 := (s.value nextTask).kernelEspStackBegin }
  let (oldPageDirectory, s) := s.swapPageDirectory (s.value nextTask).pageDirectoryPhysicalAddr
  match currentTask with
  | some currentTask => s.setPageDirectory currentTask oldPageDirectory
  | none => s

/-- mirrors cpu_core.cpp:42-73 -/
def yieldTaskSwitch (s : CpuState T) : CpuState T :=
  match s.nextTask with
  | none => s
  | some nextTask => s.switchTo nextTask

/-! ## Starting and destroying tasks -/

/-- The next write of the update. -/
def write (s : CpuState T) : CpuState T :=
  match s.update with
  | .idle => s
  | .takeUnused new d => { s with unusedTasksListHead := s.next new, update := .setEsp new d }
  | .setEsp new d => { s.setTaskEsp new d.taskEsp with update := .setStackBegin new d }
  | .setStackBegin new d => { s.setKernelEspStackBegin new d.kernelEspStackBegin with update := .setDirectory new d }
  | .setDirectory new d => { s.setPageDirectory new d.pageDirectoryPhysicalAddr with update := .setNext new }
  | .setNext new => { s with next := Function.update s.next new s.activeTasksListHead, update := .clearPrev new }
  | .clearPrev new => { s with prev := Function.update s.prev new none, update := .linkBack new }
  | .linkBack new => { s with prev := setLink s.prev s.activeTasksListHead (some new), update := .publish new }
  | .publish new => { s with activeTasksListHead := some new, update := .idle }
  | .unlink x =>
    { s with
      next := setLink s.next (s.prev x) (s.next x)
      activeTasksListHead := setEnd s.activeTasksListHead (s.prev x) (s.next x)
      update := .bridge x }
  | .bridge x => { s with prev := setLink s.prev (s.next x) (s.prev x), update := .linkUnused x }
  | .linkUnused x => { s with next := Function.update s.next x s.unusedTasksListHead, update := .giveBack x }
  | .giveBack x => { s with unusedTasksListHead := some x, update := .idle }

/-- `setToRunningState` up to its first write. Without an unused descriptor it
returns `TOO_MANY_TASKS`. -/
def setToRunningState (s : CpuState T) (d : TaskDescriptor) : CpuState T :=
  match s.unusedTasksListHead with
  | none => s
  | some newTask => { s with update := .takeUnused newTask d }

/-- The management task is running, or none and task switching is paused. -/
def MayUpdate (M : Fin T) (s : CpuState T) : Prop :=
  s.currentTask = some M ∨ s.currentTask = none ∧ s.taskSwitchingPaused = true

/-- No update is under way. -/
def Idle (s : CpuState T) : Prop := s.update = .idle

end CpuState

inductive SchedulerCall (T : Nat) where
  | yieldTaskSwitch
  | execute (esp pageDirectory : UInt32)
  /-- `withTaskSwitchingPaused` sets the flag before and clears it after. -/
  | setPaused (paused : Bool)
  | setToRunningState (d : TaskDescriptor)
  /-- The destructor of the running task with the descriptor `thisTask`. -/
  | destroy (thisTask : Fin T)
  | write

/-- What one call may do. `kernelMain` does not end the pause in the middle of
an update, a destroyed task is running and no task destroys itself. -/
inductive SchedulerStep (M : Fin T) (s : CpuState T) : SchedulerCall T → CpuState T → Prop where
  | yieldTaskSwitch : SchedulerStep M s .yieldTaskSwitch s.yieldTaskSwitch
  | execute (esp pageDirectory : UInt32) :
      SchedulerStep M s (.execute esp pageDirectory) { s with esp := esp, pageDirectory := pageDirectory }
  | setPaused (paused : Bool) (h : s.currentTask = none → s.Idle) :
      SchedulerStep M s (.setPaused paused) { s with taskSwitchingPaused := paused }
  | setToRunningState (d : TaskDescriptor) (h : s.MayUpdate M) (hidle : s.Idle) :
      SchedulerStep M s (.setToRunningState d) (s.setToRunningState d)
  | destroy (x : Fin T) (h : s.MayUpdate M) (hidle : s.Idle) (hx : x ∈ s.activeTasks) (hself : s.currentTask ≠ some x) :
      SchedulerStep M s (.destroy x) { s with update := .unlink x }
  | write (h : s.MayUpdate M) (hbusy : ¬ s.Idle) : SchedulerStep M s .write s.write

/-- The scheduler, from the construction of the core on. -/
def scheduler [NeZero T] (M : Fin T) : LTS (CpuState T) (SchedulerCall T) where
  init s := ∃ prev esp pageDirectory, s = .construct prev esp pageDirectory
  step := SchedulerStep M

/-! ## The lists at every point of an update -/

/-- The descriptor that is in neither list. -/
def Update.inFlight : Update T → Option (Fin T)
  | .setEsp new _ | .setStackBegin new _ | .setDirectory new _ | .setNext new | .clearPrev new | .linkBack new
  | .publish new => some new
  | .bridge x | .linkUnused x | .giveBack x => some x
  | .idle | .takeUnused _ _ | .unlink _ => none

namespace CpuState

variable {s : CpuState T} {L U : List (Fin T)} {M : Fin T}

/-- The active list in both directions. -/
def Linked (s : CpuState T) (L : List (Fin T)) : Prop := DList s.next s.prev s.activeTasksListHead L.getLast? L

/-- What the writes made so far have established for those that follow. -/
def Prepared (s : CpuState T) (L : List (Fin T)) : Prop :=
  match s.update with
  | .idle | .setEsp _ _ | .setStackBegin _ _ | .setDirectory _ _ | .setNext _ | .linkUnused _ => s.Linked L
  | .takeUnused new _ => s.Linked L ∧ s.unusedTasksListHead = some new
  | .clearPrev new => s.Linked L ∧ s.next new = s.activeTasksListHead
  | .linkBack new => s.Linked L ∧ s.next new = s.activeTasksListHead ∧ s.prev new = none
  -- the new element is in front already, for all but the head
  | .publish new => DList s.next s.prev (some new) (new :: L).getLast? (new :: L)
  | .unlink x => s.Linked L ∧ x ∈ L
  -- with the write that follows the list is linked
  | .bridge x => DList s.next (setLink s.prev (s.next x) (s.prev x)) s.activeTasksListHead L.getLast? L
  | .giveBack x => s.Linked L ∧ s.next x = s.unusedTasksListHead

structure Lists (s : CpuState T) (L U : List (Fin T)) : Prop where
  active : Seg s.next s.activeTasksListHead L none
  unused : Seg s.next s.unusedTasksListHead U none
  nodup : (L ++ U).Nodup
  inFlight : ∀ x, s.update.inFlight = some x → x ∉ L ++ U
  prepared : s.Prepared L

theorem length_le_of_nodup {xs : List (Fin T)} (h : xs.Nodup) : xs.length ≤ T := by
  have hle := List.Nodup.length_le_card h
  rwa [Fintype.card_fin] at hle

theorem Lists.activeTasks_eq (h : s.Lists L U) : s.activeTasks = L :=
  walk_eq h.active (length_le_of_nodup h.nodup.of_append_left)

theorem Lists.unusedTasks_eq (h : s.Lists L U) : s.unusedTasks = U :=
  walk_eq h.unused (length_le_of_nodup h.nodup.of_append_right)

theorem Lists.disjoint (h : s.Lists L U) {x : Fin T} (hx : x ∈ L) : x ∉ U :=
  List.disjoint_of_nodup_append h.nodup hx

/-- How one write changes the active list. -/
structure Edited (u : Update T) (L L' : List (Fin T)) : Prop where
  order : SameOrder L L'
  removed : ∀ x ∈ L, x ∉ L' → u = .unlink x
  added : ∀ x ∈ L', x ∉ L → u = .publish x

theorem Edited.refl (u : Update T) (L : List (Fin T)) : Edited u L L :=
  ⟨.refl L, fun _ h hn => absurd h hn, fun _ h hn => absurd h hn⟩

/-- The write of one link outside both lists. -/
theorem Lists.update_next {v : Option (Fin T)} {x : Fin T} (h : s.Lists L U) (hx : x ∉ L ++ U) :
    Seg (Function.update s.next x v) s.activeTasksListHead L none ∧
      Seg (Function.update s.next x v) s.unusedTasksListHead U none :=
  ⟨h.active.update fun hL => hx (List.mem_append_left U hL), h.unused.update fun hU => hx (List.mem_append_right L hU)⟩

/-- A write to a descriptor. -/
theorem Lists.describe {t : CpuState T} {x : Fin T} (h : s.Lists L U) (hlinked : s.Linked L)
    (hflight : s.update.inFlight = some x) (hprepared : t.Linked L → t.Prepared L)
    (ht : t.update.inFlight = some x) (hnext : t.next = s.next) (hprev : t.prev = s.prev)
    (hactive : t.activeTasksListHead = s.activeTasksListHead) (hunused : t.unusedTasksListHead = s.unusedTasksListHead) :
    t.Lists L U := by
  refine ⟨?_, ?_, h.nodup, ?_, hprepared ?_⟩
  · rw [hnext, hactive]
    exact h.active
  · rw [hnext, hunused]
    exact h.unused
  · intro y hy
    rw [ht] at hy
    exact h.inFlight y (by rw [hflight, hy])
  · unfold Linked
    rw [hnext, hprev, hactive]
    exact hlinked

theorem takeUnused_lists {new : Fin T} {d : TaskDescriptor} (h : s.Lists L U) (hu : s.update = .takeUnused new d) :
    ∃ U', U = new :: U' ∧ s.write.Lists L U' := by
  have hp := h.prepared
  simp only [Prepared, hu] at hp
  have hU := h.unused
  cases U with
  | nil =>
    rw [seg_nil, hp.2] at hU
    cases hU
  | cons y U' =>
    obtain ⟨hy, hU⟩ := hU
    rw [hp.2] at hy
    cases hy
    have hnd : (new :: (L ++ U')).Nodup := List.nodup_middle.mp h.nodup
    refine ⟨U', rfl, ?_⟩
    simp only [write, hu]
    refine ⟨h.active, hU, (List.nodup_cons.mp hnd).2, ?_, hp.1⟩
    intro x hx
    cases hx
    exact (List.nodup_cons.mp hnd).1

theorem setNext_lists {new : Fin T} (h : s.Lists L U) (hu : s.update = .setNext new) : s.write.Lists L U := by
  have hp := h.prepared
  have hnew := h.inFlight new (by rw [hu]; rfl)
  simp only [Prepared, hu] at hp
  simp only [write, hu]
  obtain ⟨hactive, hunused⟩ := h.update_next (v := s.activeTasksListHead) hnew
  refine ⟨hactive, hunused, h.nodup, ?_, ?_⟩
  · intro x hx
    cases hx
    exact hnew
  · exact ⟨hp.update_next fun hL => hnew (List.mem_append_left U hL), Function.update_self _ _ _⟩

theorem clearPrev_lists {new : Fin T} (h : s.Lists L U) (hu : s.update = .clearPrev new) : s.write.Lists L U := by
  have hp := h.prepared
  have hnew := h.inFlight new (by rw [hu]; rfl)
  simp only [Prepared, hu] at hp
  simp only [write, hu]
  refine ⟨h.active, h.unused, h.nodup, ?_, ?_⟩
  · intro x hx
    cases hx
    exact hnew
  · have hback : new ∉ L.reverse := fun hL => hnew (List.mem_append_left U (List.mem_reverse.mp hL))
    exact ⟨⟨hp.1.forward, hp.1.backward.update hback, hp.1.nodup⟩, hp.2, Function.update_self _ _ _⟩

/-- The element in front of the list, linked in both directions. -/
theorem linkBack_linked {new : Fin T} (hL : s.Linked L) (hnew : new ∉ L) (hnext : s.next new = s.activeTasksListHead)
    (hprev : s.prev new = none) :
    DList s.next (setLink s.prev s.activeTasksListHead (some new)) (some new) (new :: L).getLast? (new :: L) := by
  have hnextEq : Function.update s.next new s.activeTasksListHead = s.next := by
    rw [← hnext, Function.update_eq_self]
  have hprevEq : Function.update s.prev new none = s.prev := by
    rw [← hprev, Function.update_eq_self]
  unfold Linked at hL
  cases L with
  | nil =>
    have hhead : s.activeTasksListHead = none := hL.head_eq
    rw [hhead] at hL hnextEq ⊢
    have hpush := hL.push new
    rw [hnextEq, hprevEq] at hpush
    exact hpush
  | cons y L =>
    have hhead : s.activeTasksListHead = some y := hL.head_eq
    rw [hhead] at hL hnextEq ⊢
    have hpush := hL.pushFront hnew
    rw [hnextEq, hprevEq] at hpush
    rw [List.getLast?_cons_cons]
    exact hpush

theorem linkBack_lists {new : Fin T} (h : s.Lists L U) (hu : s.update = .linkBack new) : s.write.Lists L U := by
  have hp := h.prepared
  have hnew := h.inFlight new (by rw [hu]; rfl)
  simp only [Prepared, hu] at hp
  simp only [write, hu]
  refine ⟨h.active, h.unused, h.nodup, ?_, ?_⟩
  · intro x hx
    cases hx
    exact hnew
  · exact linkBack_linked hp.1 (fun hL => hnew (List.mem_append_left U hL)) hp.2.1 hp.2.2

theorem publish_lists {new : Fin T} (h : s.Lists L U) (hu : s.update = .publish new) : s.write.Lists (new :: L) U := by
  have hp := h.prepared
  have hnew := h.inFlight new (by rw [hu]; rfl)
  simp only [Prepared, hu] at hp
  simp only [write, hu]
  refine ⟨hp.forward, h.unused, List.nodup_cons.mpr ⟨hnew, h.nodup⟩, ?_, hp⟩
  intro x hx
  cases hx

theorem unlink_lists {x : Fin T} (h : s.Lists L U) (hu : s.update = .unlink x) :
    ∃ P Q, L = P ++ x :: Q ∧ s.write.Lists (P ++ Q) U := by
  have hp := h.prepared
  simp only [Prepared, hu] at hp
  obtain ⟨hlinked, hx⟩ := hp
  obtain ⟨P, Q, rfl⟩ := List.append_of_mem hx
  have hnd := h.nodup.of_append_left
  have hxPQ : x ∉ P ++ Q := (List.nodup_cons.mp (List.nodup_middle.mp hnd)).1
  have hxprev : s.prev x ≠ some x := by
    rw [hlinked.prev_eq]
    exact fun he => hxPQ (List.mem_append_left Q (List.mem_of_getLast? he))
  have hunlinked := hlinked.unlink
  have hall : (x :: ((P ++ Q) ++ U)).Nodup := by
    have := h.nodup
    rw [List.append_assoc, List.cons_append, List.nodup_middle, ← List.append_assoc] at this
    exact this
  refine ⟨P, Q, rfl, ?_⟩
  simp only [write, hu]
  refine ⟨hunlinked.forward, ?_, (List.nodup_cons.mp hall).2, ?_, ?_⟩
  · -- the link that is written is one of the active list
    refine h.unused.congr fun y hy => setLink_of_ne ?_
    rw [hlinked.prev_eq]
    intro he
    exact h.disjoint (List.mem_append_left _ (List.mem_of_getLast? he)) hy
  · intro y hy
    cases hy
    exact (List.nodup_cons.mp hall).1
  · have hnext : setLink s.next (s.prev x) (s.next x) x = s.next x := setLink_of_ne hxprev
    simp only [Prepared, hnext]
    have htail := hunlinked.tail_eq
    rw [htail] at hunlinked
    exact hunlinked

theorem bridge_lists {x : Fin T} (h : s.Lists L U) (hu : s.update = .bridge x) : s.write.Lists L U := by
  have hp := h.prepared
  have hx := h.inFlight x (by rw [hu]; rfl)
  simp only [Prepared, hu] at hp
  simp only [write, hu]
  refine ⟨h.active, h.unused, h.nodup, ?_, hp⟩
  intro y hy
  cases hy
  exact hx

theorem linkUnused_lists {x : Fin T} (h : s.Lists L U) (hu : s.update = .linkUnused x) : s.write.Lists L U := by
  have hp := h.prepared
  have hx := h.inFlight x (by rw [hu]; rfl)
  simp only [Prepared, hu] at hp
  simp only [write, hu]
  obtain ⟨hactive, hunused⟩ := h.update_next (v := s.unusedTasksListHead) hx
  refine ⟨hactive, hunused, h.nodup, ?_, ?_⟩
  · intro y hy
    cases hy
    exact hx
  · exact ⟨hp.update_next fun hL => hx (List.mem_append_left U hL), Function.update_self _ _ _⟩

theorem giveBack_lists {x : Fin T} (h : s.Lists L U) (hu : s.update = .giveBack x) : s.write.Lists L (x :: U) := by
  have hp := h.prepared
  have hx := h.inFlight x (by rw [hu]; rfl)
  simp only [Prepared, hu] at hp
  simp only [write, hu]
  refine ⟨h.active, ⟨rfl, ?_⟩, List.nodup_middle.mpr (List.nodup_cons.mpr ⟨hx, h.nodup⟩), ?_, hp.1⟩
  · rw [hp.2]
    exact h.unused
  · intro y hy
    cases hy

/-- Every write keeps both lists; one write adds a task to the active list
and one takes a task out. -/
theorem write_lists (h : s.Lists L U) : ∃ L' U', s.write.Lists L' U' ∧ Edited s.update L L' := by
  cases hu : s.update with
  | idle =>
    refine ⟨L, U, ?_, .refl _ L⟩
    simp only [write, hu]
    exact h
  | takeUnused new d =>
    obtain ⟨U', -, h'⟩ := takeUnused_lists h hu
    exact ⟨L, U', h', .refl _ L⟩
  | setEsp new d =>
    have hp := h.prepared
    simp only [Prepared, hu] at hp
    refine ⟨L, U, ?_, .refl _ L⟩
    simp only [write, hu]
    exact h.describe (x := new) hp (by rw [hu]; rfl) id rfl rfl rfl rfl rfl
  | setStackBegin new d =>
    have hp := h.prepared
    simp only [Prepared, hu] at hp
    refine ⟨L, U, ?_, .refl _ L⟩
    simp only [write, hu]
    exact h.describe (x := new) hp (by rw [hu]; rfl) id rfl rfl rfl rfl rfl
  | setDirectory new d =>
    have hp := h.prepared
    simp only [Prepared, hu] at hp
    refine ⟨L, U, ?_, .refl _ L⟩
    simp only [write, hu]
    exact h.describe (x := new) hp (by rw [hu]; rfl) id rfl rfl rfl rfl rfl
  | setNext new => exact ⟨L, U, setNext_lists h hu, .refl _ L⟩
  | clearPrev new => exact ⟨L, U, clearPrev_lists h hu, .refl _ L⟩
  | linkBack new => exact ⟨L, U, linkBack_lists h hu, .refl _ L⟩
  | publish new =>
    have hnew := h.inFlight new (by rw [hu]; rfl)
    have hnewL : new ∉ L := fun hL => hnew (List.mem_append_left U hL)
    refine ⟨new :: L, U, publish_lists h hu, sameOrder_cons hnewL, ?_, ?_⟩
    · intro x hx hn
      exact absurd (List.mem_cons_of_mem new hx) hn
    · intro x hx hn
      rw [(List.mem_cons.mp hx).resolve_right hn]
  | unlink x =>
    obtain ⟨P, Q, rfl, h'⟩ := unlink_lists h hu
    refine ⟨P ++ Q, U, h', sameOrder_remove h.nodup.of_append_left, ?_, ?_⟩
    · intro y hy hn
      have hyx : y = x := by
        simp only [List.mem_append, List.mem_cons] at hy hn
        tauto
      rw [hyx]
    · intro y hy hn
      exact absurd (by simp only [List.mem_append, List.mem_cons] at hy ⊢; tauto) hn
  | bridge x => exact ⟨L, U, bridge_lists h hu, .refl _ L⟩
  | linkUnused x => exact ⟨L, U, linkUnused_lists h hu, .refl _ L⟩
  | giveBack x => exact ⟨L, x :: U, giveBack_lists h hu, .refl _ L⟩

/-! ## Runs -/

/-- The lists depend on the links, the heads and the update. -/
theorem Lists.of_same {t : CpuState T} (h : s.Lists L U) (hnext : t.next = s.next) (hprev : t.prev = s.prev)
    (hactive : t.activeTasksListHead = s.activeTasksListHead) (hunused : t.unusedTasksListHead = s.unusedTasksListHead)
    (hupdate : t.update = s.update) : t.Lists L U := by
  cases s
  cases t
  dsimp only at hnext hprev hactive hunused hupdate
  subst hnext hprev hactive hunused hupdate
  exact ⟨h.active, h.unused, h.nodup, h.inFlight, h.prepared⟩

@[simp] theorem switchTo_next (s : CpuState T) (d : Fin T) : (s.switchTo d).next = s.next := by
  unfold switchTo
  cases s.currentTask <;> rfl

@[simp] theorem switchTo_prev (s : CpuState T) (d : Fin T) : (s.switchTo d).prev = s.prev := by
  unfold switchTo
  cases s.currentTask <;> rfl

@[simp] theorem switchTo_activeTasksListHead (s : CpuState T) (d : Fin T) :
    (s.switchTo d).activeTasksListHead = s.activeTasksListHead := by
  unfold switchTo
  cases s.currentTask <;> rfl

@[simp] theorem switchTo_unusedTasksListHead (s : CpuState T) (d : Fin T) :
    (s.switchTo d).unusedTasksListHead = s.unusedTasksListHead := by
  unfold switchTo
  cases s.currentTask <;> rfl

@[simp] theorem switchTo_update (s : CpuState T) (d : Fin T) : (s.switchTo d).update = s.update := by
  unfold switchTo
  cases s.currentTask <;> rfl

@[simp] theorem switchTo_currentTask (s : CpuState T) (d : Fin T) : (s.switchTo d).currentTask = some d := by
  unfold switchTo
  cases s.currentTask <;> rfl

@[simp] theorem switchTo_selected (s : CpuState T) (d : Fin T) : (s.switchTo d).selected = s.selected ++ [d] := by
  unfold switchTo
  cases s.currentTask <;> rfl

@[simp] theorem switchTo_activeTasks (s : CpuState T) (d : Fin T) : (s.switchTo d).activeTasks = s.activeTasks := by
  simp [activeTasks]

/-- `yieldTaskSwitch` does nothing, or it switches. -/
theorem yieldTaskSwitch_cases (s : CpuState T) :
    s.yieldTaskSwitch = s ∨ ∃ d, s.nextTask = some d ∧ s.yieldTaskSwitch = s.switchTo d := by
  unfold yieldTaskSwitch
  cases h : s.nextTask with
  | none => exact .inl rfl
  | some d => exact .inr ⟨d, rfl, rfl⟩

/-- The first switch goes to the head of the active list, every other one to
the task behind the current one, or from the last task to the head. -/
theorem nextTask_spec {d : Fin T} (h : s.nextTask = some d) :
    s.taskSwitchingPaused = false ∧ s.currentTask ≠ some d ∧
      (s.currentTask = none ∧ s.activeTasksListHead = some d ∨
        ∃ c, s.currentTask = some c ∧ (s.next c = some d ∨ s.next c = none ∧ s.activeTasksListHead = some d)) := by
  unfold nextTask at h
  split at h
  · cases h
  rename_i hpaused
  split at h
  · cases h
  rename_i head hhead
  split at h
  · cases h
  rename_i hne
  cases h
  refine ⟨by simpa using hpaused, hne, ?_⟩
  unfold nextOrHead
  cases hc : s.currentTask with
  | none => exact .inl ⟨rfl, hhead⟩
  | some c =>
    refine .inr ⟨c, rfl, ?_⟩
    dsimp only
    cases hn : s.next c with
    | none => exact .inr ⟨rfl, hhead⟩
    | some e => exact .inl rfl

/-- The task switched to stands behind the current one in the active list. -/
theorem Lists.nextTask_next {c d : Fin T} (h : s.Lists L U) (hc : s.currentTask = some c) (hL : c ∈ L)
    (hd : s.nextTask = some d) : Next L c d := by
  obtain ⟨-, -, ⟨hnone, -⟩ | ⟨c', hc', hnext⟩⟩ := nextTask_spec hd
  · rw [hc] at hnone
    cases hnone
  rw [hc] at hc'
  cases hc'
  obtain ⟨P, Q, rfl⟩ := List.append_of_mem hL
  have hQ := h.active.next_eq
  rcases hnext with hnext | ⟨hnext, hhead⟩
  · rw [hnext] at hQ
    cases Q with
    | nil => cases hQ
    | cons e Q =>
      cases hQ
      exact .inl ⟨P, Q, rfl⟩
  · rw [hnext] at hQ
    have hnil : Q = [] := List.head?_eq_none_iff.mp hQ.symm
    subst hnil
    have hfirst := h.active.head_eq
    rw [hhead] at hfirst
    exact .inr ⟨⟨P, rfl⟩, List.head?_eq_some_iff.mp hfirst.symm⟩

/-- Every step keeps this. The task that is being taken out of the list is not
the one that runs. -/
structure Inv (M : Fin T) (s : CpuState T) : Prop where
  lists : s.Lists s.activeTasks s.unusedTasks
  current : ∀ c, s.currentTask = some c → c ∈ s.activeTasks
  stopping : ∀ x, s.update = .unlink x → s.currentTask = none ∨ x ≠ M
  starting : s.currentTask = none → ¬ s.Idle → s.taskSwitchingPaused = true
  logged : s.selected.getLast? = s.currentTask

theorem Inv.nextTask_mem {d : Fin T} (h : s.Inv M) (hd : s.nextTask = some d) : d ∈ s.activeTasks := by
  obtain ⟨-, -, ⟨-, hhead⟩ | ⟨c, hc, -⟩⟩ := nextTask_spec hd
  · have hfirst := h.lists.active.head_eq
    rw [hhead] at hfirst
    exact List.mem_of_head? hfirst.symm
  · have hc' := h.current c hc
    rcases h.lists.nextTask_next hc hc' hd with ⟨P, Q, hL⟩ | ⟨-, Q, hL⟩
    · rw [hL]
      simp
    · rw [hL]
      simp

/-- Both lists are what they are from `L` and `U`. -/
theorem Lists.canonical (h : s.Lists L U) : s.Lists s.activeTasks s.unusedTasks := by
  rw [h.activeTasks_eq, h.unusedTasks_eq]
  exact h

theorem construct_inv [NeZero T] (prev : Fin T → Option (Fin T)) (esp pageDirectory : UInt32) :
    (construct prev esp pageDirectory).Inv M := by
  have hlists : (construct prev esp pageDirectory).Lists [] (List.finRange T) := by
    refine ⟨rfl, seg_finRange, List.nodup_finRange T, ?_, ⟨rfl, rfl, List.nodup_nil⟩⟩
    intro x hx
    cases hx
  refine ⟨hlists.canonical, ?_, ?_, ?_, rfl⟩
  · intro c hc
    cases hc
  · intro x hx
    cases hx
  · intro _ hbusy
    exact absurd rfl hbusy

theorem switchTo_inv {d : Fin T} (h : s.Inv M) (hd : s.nextTask = some d) : (s.switchTo d).Inv M := by
  have hlists : (s.switchTo d).Lists s.activeTasks s.unusedTasks := h.lists.of_same (by simp) (by simp) (by simp) (by simp) (by simp)
  refine ⟨hlists.canonical, ?_, ?_, ?_, ?_⟩
  · intro c hc
    rw [switchTo_currentTask] at hc
    cases hc
    rw [switchTo_activeTasks]
    exact h.nextTask_mem hd
  · intro x hx
    rw [switchTo_update] at hx
    obtain ⟨hpaused, -, ⟨hnone, -⟩ | ⟨c, hc, -⟩⟩ := nextTask_spec hd
    · have hbusy : ¬ s.Idle := by simp [Idle, hx]
      rw [h.starting hnone hbusy] at hpaused
      cases hpaused
    · refine .inr ((h.stopping x hx).resolve_left ?_)
      rw [hc]
      simp
  · intro hnone
    simp at hnone
  · simp

theorem write_inv (h : s.Inv M) (hmay : s.MayUpdate M) (hbusy : ¬ s.Idle) :
    s.write.Inv M ∧ Edited s.update s.activeTasks s.write.activeTasks := by
  obtain ⟨L', U', hlists, hedited⟩ := write_lists h.lists
  have hsame : s.write.currentTask = s.currentTask ∧ s.write.taskSwitchingPaused = s.taskSwitchingPaused ∧
      s.write.selected = s.selected ∧ ∀ x, s.write.update ≠ .unlink x := by
    unfold write
    cases hu : s.update with
    | idle => exact absurd hu hbusy
    | _ => exact ⟨rfl, rfl, rfl, nofun⟩
  obtain ⟨hcurrent, hpaused, hselected, hnot⟩ := hsame
  rw [hlists.activeTasks_eq]
  refine ⟨⟨hlists.canonical, ?_, ?_, ?_, ?_⟩, hedited⟩
  · intro c hc
    rw [hcurrent] at hc
    rw [hlists.activeTasks_eq]
    by_contra hn
    have hstop := hedited.removed c (h.current c hc) hn
    have hM : c = M := by
      rcases hmay with hM | ⟨hM, -⟩
      · rw [hc] at hM
        exact Option.some.inj hM
      · rw [hc] at hM
        cases hM
    rcases h.stopping c hstop with hnone | hne
    · rw [hc] at hnone
      cases hnone
    · exact hne hM
  · intro x hx
    exact absurd hx (hnot x)
  · intro hnone _
    rw [hcurrent] at hnone
    rw [hpaused]
    exact h.starting hnone hbusy
  · rw [hselected, hcurrent]
    exact h.logged

/-- What a step changes apart from a write: nothing of the active list. -/
theorem step_activeTasks {l : SchedulerCall T} {t : CpuState T} (h : SchedulerStep M s l t) (hne : l ≠ .write) :
    t.activeTasks = s.activeTasks := by
  cases h with
  | yieldTaskSwitch =>
    rcases s.yieldTaskSwitch_cases with he | ⟨d, -, he⟩
    · rw [he]
    · rw [he, switchTo_activeTasks]
  | setToRunningState d =>
    unfold setToRunningState
    cases s.unusedTasksListHead <;> rfl
  | write => exact absurd rfl hne
  | execute | setPaused | destroy => rfl

theorem setToRunningState_inv (h : s.Inv M) (hmay : s.MayUpdate M) (hidle : s.Idle) (d : TaskDescriptor) :
    (s.setToRunningState d).Inv M := by
  unfold setToRunningState
  split
  · exact h
  · rename_i new hhead
    have hlists := h.lists
    have hlinked := hlists.prepared
    unfold Prepared at hlinked
    rw [hidle] at hlinked
    refine ⟨⟨hlists.active, hlists.unused, hlists.nodup, nofun, hlinked, hhead⟩, h.current, nofun, ?_, h.logged⟩
    intro hnone _
    rcases hmay with hM | ⟨-, hpaused⟩
    · rw [hM] at hnone
      cases hnone
    · exact hpaused

theorem destroy_inv {x : Fin T} (h : s.Inv M) (hmay : s.MayUpdate M) (hidle : s.Idle) (hx : x ∈ s.activeTasks)
    (hself : s.currentTask ≠ some x) : { s with update := .unlink x }.Inv M := by
  have hlists := h.lists
  have hlinked := hlists.prepared
  unfold Prepared at hlinked
  rw [hidle] at hlinked
  refine ⟨⟨hlists.active, hlists.unused, hlists.nodup, nofun, hlinked, hx⟩, h.current, ?_, ?_, h.logged⟩
  · intro y hy
    cases hy
    rcases hmay with hM | ⟨hnone, -⟩
    · right
      rintro rfl
      exact hself hM
    · exact .inl hnone
  · intro hnone _
    rcases hmay with hM | ⟨-, hpaused⟩
    · rw [hM] at hnone
      cases hnone
    · exact hpaused

theorem step_inv {l : SchedulerCall T} {t : CpuState T} (h : s.Inv M) (hstep : SchedulerStep M s l t) : t.Inv M := by
  cases hstep with
  | yieldTaskSwitch =>
    rcases s.yieldTaskSwitch_cases with he | ⟨d, hd, he⟩
    · rw [he]
      exact h
    · rw [he]
      exact switchTo_inv h hd
  | execute esp pageDirectory =>
    exact ⟨h.lists.of_same rfl rfl rfl rfl rfl, h.current, h.stopping, h.starting, h.logged⟩
  | setPaused paused hpaused =>
    refine ⟨h.lists.of_same rfl rfl rfl rfl rfl, h.current, h.stopping, ?_, h.logged⟩
    intro hnone hbusy
    exact absurd (hpaused hnone) hbusy
  | setToRunningState d hmay hidle => exact setToRunningState_inv h hmay hidle d
  | destroy x hmay hidle hx hself => exact destroy_inv h hmay hidle hx hself
  | write hmay hbusy => exact (write_inv h hmay hbusy).1

theorem inv_inductive [NeZero T] (M : Fin T) : (scheduler M).Inductive (Inv M) where
  init s := by
    intro hs
    obtain ⟨prev, esp, pageDirectory, rfl⟩ := hs
    exact construct_inv prev esp pageDirectory
  step _ _ _ h hstep := step_inv h hstep

/-- Every step edits the active list as the update under way says, and only a
write edits it. -/
theorem step_edited {l : SchedulerCall T} {t : CpuState T} (h : s.Inv M) (hstep : SchedulerStep M s l t) :
    Edited s.update s.activeTasks t.activeTasks := by
  by_cases hne : l = .write
  · subst hne
    cases hstep with
    | write hmay hbusy => exact (write_inv h hmay hbusy).2
  · rw [step_activeTasks hstep hne]
    exact .refl _ _

/-- A start without interruption: from an idle state, its eight writes. -/
theorem start_run [NeZero T] {new : Fin T} (hmay : s.MayUpdate M) (hidle : s.Idle)
    (hnew : s.unusedTasksListHead = some new) (d : TaskDescriptor) :
    (scheduler M).Run s (.setToRunningState d :: List.replicate 8 .write)
      (write^[8] { s with update := .takeUnused new d }) := by
  have hstart : s.setToRunningState d = { s with update := .takeUnused new d } := by
    unfold setToRunningState
    rw [hnew]
  refine .cons (.setToRunningState d hmay hidle) ?_
  rw [hstart]
  exact .cons (.write hmay nofun) <| .cons (.write hmay nofun) <| .cons (.write hmay nofun) <|
    .cons (.write hmay nofun) <| .cons (.write hmay nofun) <| .cons (.write hmay nofun) <|
    .cons (.write hmay nofun) <| .cons (.write hmay nofun) (.nil _)

/-- `kernelMain` starts its two tasks while task switching is paused.
mirrors main.cpp:142-167 -/
theorem boot_reachable [NeZero T] {M x y : Fin T} (prev : Fin T → Option (Fin T)) (d0 d1 : TaskDescriptor)
    {s1 s2 s3 : CpuState T} (h1 : s1 = { construct prev 0 0 with taskSwitchingPaused := true })
    (hx : s1.unusedTasksListHead = some x) (h2 : s2 = write^[8] { s1 with update := .takeUnused x d0 })
    (hy : s2.unusedTasksListHead = some y) (h3 : s3 = write^[8] { s2 with update := .takeUnused y d1 }) :
    (scheduler M).Reachable { s3 with taskSwitchingPaused := false } := by
  have hmay1 : s1.MayUpdate M := by
    rw [h1]
    exact .inr ⟨rfl, rfl⟩
  have hidle1 : s1.Idle := by
    rw [h1]
    rfl
  have hmay2 : s2.MayUpdate M := by
    rw [h2]
    exact hmay1
  have hidle2 : s2.Idle := by
    rw [h2]
    rfl
  have hidle3 : s3.Idle := by
    rw [h3]
    rfl
  have hpause : (scheduler M).Reachable s1 := by
    refine ⟨construct prev 0 0, [.setPaused true], ⟨prev, 0, 0, rfl⟩, .cons ?_ (.nil _)⟩
    rw [h1]
    exact .setPaused true fun _ => rfl
  have hfirst := hpause.run (start_run hmay1 hidle1 hx d0)
  rw [← h2] at hfirst
  have hsecond := hfirst.run (start_run hmay2 hidle2 hy d1)
  rw [← h3] at hsecond
  exact hsecond.step (.setPaused false fun _ => hidle3)

theorem neZero_two : NeZero 2 := inferInstance

/-- The core with the two tasks of the kernel, the network task first. -/
def twoTasks (d0 d1 : TaskDescriptor) : CpuState 2 :=
  { write^[8] { write^[8] { @construct 2 neZero_two (fun _ => none) 0 0 with
      taskSwitchingPaused := true, update := .takeUnused ⟨0, Nat.zero_lt_two⟩ d0 } with
    update := .takeUnused ⟨1, Nat.one_lt_two⟩ d1 } with taskSwitchingPaused := false }

theorem twoTasks_reachable (d0 d1 : TaskDescriptor) : (scheduler 0).Reachable (twoTasks d0 d1) :=
  boot_reachable (fun _ => none) d0 d1 rfl rfl rfl rfl rfl

end CpuState

end CpuScheduler.L5
