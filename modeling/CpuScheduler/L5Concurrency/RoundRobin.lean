import CpuScheduler.L5Concurrency.TaskLists

/-!
# Round robin

`yieldTaskSwitch` follows the `next` links while the management task edits
them. What carries the fairness is that a new task comes in front of the head
and that a task is taken out only while another one runs: the tasks that stay
keep their order, so the way from a task back to itself still passes each of
them once (`Core.Rotation`). `turn_step` is the step of that argument, over a
timer interrupt as over any single write, and `turn_run` the induction.
-/
namespace CpuScheduler.L5

open Links Rotation L4 CpuState

variable {T : Nat} {M X Y c : Fin T} {s t u : CpuState T} {l : SchedulerCall T} {ls : List (SchedulerCall T)}

/-- The write with which a start makes `x` active. -/
def Starts (x : Fin T) (s : CpuState T) (l : SchedulerCall T) : Prop := l = .write ∧ s.update = .publish x

/-- A step selects at most one task: the next one, in a timer interrupt. -/
theorem step_selected (h : SchedulerStep M s l t) :
    t.selected = s.selected ∧ t.currentTask = s.currentTask ∨
      ∃ d, l = .yieldTaskSwitch ∧ s.nextTask = some d ∧ t = s.switchTo d := by
  cases h with
  | yieldTaskSwitch =>
    rcases s.yieldTaskSwitch_cases with he | ⟨d, hd, he⟩
    · rw [he]
      exact .inl ⟨rfl, rfl⟩
    · exact .inr ⟨d, rfl, hd, he⟩
  | setToRunningState d =>
    left
    unfold setToRunningState
    cases s.unusedTasksListHead <;> exact ⟨rfl, rfl⟩
  | write =>
    left
    unfold write
    cases s.update <;> exact ⟨rfl, rfl⟩
  | execute | setPaused | destroy => exact .inl ⟨rfl, rfl⟩

theorem run_selected [NeZero T] (hr : (scheduler M).Run s ls t) : ∃ sel, t.selected = s.selected ++ sel := by
  induction hr with
  | nil s => exact ⟨[], by simp⟩
  | cons h _ ih =>
    obtain ⟨sel', hsel'⟩ := ih
    rcases step_selected h with ⟨hsel, -⟩ | ⟨d, -, -, rfl⟩
    · exact ⟨sel', by rw [hsel', hsel]⟩
    · exact ⟨d :: sel', by rw [hsel', switchTo_selected, List.append_assoc]; rfl⟩

/-- A task that is not active is neither selected nor made active but by its
start. -/
theorem inactive_step (hs : s.Inv M) (h : SchedulerStep M s l t) (hx : X ∉ s.activeTasks) (hstart : ¬ Starts X s l) :
    X ∉ t.activeTasks ∧ ∃ sel, t.selected = s.selected ++ sel ∧ X ∉ sel := by
  constructor
  · intro hmem
    have hpublish := (step_edited hs h).added X hmem hx
    refine hstart ⟨?_, hpublish⟩
    by_contra hne
    rw [step_activeTasks h hne] at hmem
    exact hx hmem
  · rcases step_selected h with ⟨hsel, -⟩ | ⟨d, -, hd, rfl⟩
    · exact ⟨[], by rw [hsel, List.append_nil], by simp⟩
    · refine ⟨[d], switchTo_selected s d, ?_⟩
      have hne : X ≠ d := by
        rintro rfl
        exact hx (hs.nextTask_mem hd)
      simpa using hne

theorem inactive_run [NeZero T] (hs : s.Inv M) (hr : ((scheduler M).Guarded fun u l => ¬ Starts X u l).Run s ls t)
    (hx : X ∉ s.activeTasks) : X ∉ t.activeTasks ∧ ∃ sel, t.selected = s.selected ++ sel ∧ X ∉ sel := by
  induction hr with
  | nil s => exact ⟨hx, [], by simp, by simp⟩
  | cons h _ ih =>
    obtain ⟨hstart, hstep⟩ := h
    obtain ⟨hx', sel, hsel, hnot⟩ := inactive_step hs hstep hx hstart
    obtain ⟨hx'', sel', hsel', hnot'⟩ := ih (step_inv hs hstep) hx'
    refine ⟨hx'', sel ++ sel', ?_, ?_⟩
    · rw [hsel', hsel, List.append_assoc]
    · rw [List.mem_append]
      rintro (h | h)
      · exact hnot h
      · exact hnot' h

/-- `Y` stays active and `X` is not started anew. -/
def Undisturbed (X Y : Fin T) (s : CpuState T) (l : SchedulerCall T) : Prop := Y ∈ s.activeTasks ∧ ¬ Starts X s l

/-- One step of the turn from `X` back to `X`. -/
theorem turn_step {sel : List (Fin T)} (hs : s.Inv M) (h : SchedulerStep M s l t) (hturn : Turn X Y s.activeTasks c sel)
    (hc : s.currentTask = some c) (hX : X ∈ t.activeTasks) (hY : Y ∈ t.activeTasks) :
    ∃ sel' c', t.selected = s.selected ++ sel' ∧ t.currentTask = some c' ∧
      (X ∉ sel' → Turn X Y t.activeTasks c' (sel ++ sel')) := by
  have ht := step_inv hs h
  rcases step_selected h with ⟨hsel, hcurrent⟩ | ⟨d, -, hd, rfl⟩
  · rw [hc] at hcurrent
    refine ⟨[], c, by rw [hsel, List.append_nil], hcurrent, fun _ => ?_⟩
    rw [List.append_nil]
    exact hturn.reorder ht.lists.nodup.of_append_left (step_edited hs h).order hX hY (ht.current c hcurrent)
  · refine ⟨[d], d, switchTo_selected s d, switchTo_currentTask s d, fun hnot => ?_⟩
    have hnext := hs.lists.nextTask_next hc (hs.current c hc) hd
    have hne : d ≠ X := by
      rintro rfl
      exact hnot (by simp)
    rw [switchTo_activeTasks]
    exact hturn.next hnext (hs.nextTask_mem hd) hne

theorem turn_run [NeZero T] {sel sel' : List (Fin T)} (hs : s.Inv M)
    (hr : ((scheduler M).Guarded (Undisturbed X Y)).Run s ls t) (hturn : Turn X Y s.activeTasks c sel)
    (hc : s.currentTask = some c) (hX : X ∈ t.activeTasks) (hY : Y ∈ t.activeTasks)
    (hsel : t.selected = s.selected ++ sel') (hnot : X ∉ sel') :
    ∃ c', t.currentTask = some c' ∧ Turn X Y t.activeTasks c' (sel ++ sel') := by
  induction hr generalizing c sel sel' with
  | nil s =>
    have hnil : sel' = [] := by simpa using hsel
    subst hnil
    exact ⟨c, hc, by rwa [List.append_nil]⟩
  | cons h hr ih =>
    rename_i s1 s2 t l ls
    obtain ⟨⟨-, hstart⟩, hstep⟩ := h
    have hs2 := step_inv hs hstep
    -- `X` is active at the end, so it is active already
    have hX2 : X ∈ s2.activeTasks := by
      by_contra hx
      have hr' : ((scheduler M).Guarded fun u l => ¬ Starts X u l).Run s2 ls t := hr.mono fun _ _ h => h.2
      exact (inactive_run hs2 hr' hx).1 hX
    have hY2 : Y ∈ s2.activeTasks := by
      cases hr with
      | nil => exact hY
      | cons h _ => exact h.1.1
    obtain ⟨sel1, c1, hsel1, hc1, hturn1⟩ := turn_step hs hstep hturn hc hX2 hY2
    obtain ⟨sel2, hsel2⟩ := run_selected hr.of_guarded
    have hsplit : sel' = sel1 ++ sel2 := by
      rw [hsel2, hsel1, List.append_assoc] at hsel
      exact (List.append_cancel_left hsel).symm
    rw [hsplit, List.mem_append, not_or] at hnot
    rw [hsplit, ← List.append_assoc]
    exact ih hs2 (hturn1 hnot.1) hc1 hX hY hsel2 hnot.2

/-- Between two selections of `X` every other task that is active all the time
is selected once. -/
theorem once_per_turn [NeZero T] {sel : List (Fin T)} (hs : s.Inv M) (hX : s.currentTask = some X) (hne : Y ≠ X)
    (hr : ((scheduler M).Guarded (Undisturbed X Y)).Run s ls t) (hY : Y ∈ t.activeTasks)
    (hsel : t.selected = s.selected ++ sel) (hnot : X ∉ sel) (hnext : t.nextTask = some X) : sel.count Y = 1 := by
  have ht : t.Inv M := hr.of_guarded.keeps (inv_inductive M).step hs
  have hYs : Y ∈ s.activeTasks := by
    cases hr with
    | nil => exact hY
    | cons h _ => exact h.1.1
  have hstart := turn_start hs.lists.nodup.of_append_left (hs.current X hX) hYs hne
  obtain ⟨c, hc, hturn⟩ := turn_run hs hr hstart hX (ht.nextTask_mem hnext) hY hsel hnot
  exact hturn.finish (ht.lists.nextTask_next hc (ht.current c hc) hnext)

/-- In every reachable state, the middle of an update included, the two lists
are lists without a common element, and once there was a switch the current
task is active. A switch goes to an active task. After the write that takes `x`
out (the next one is `bridge`), `x` is not selected before it is started
again. Between two selections of `X` every other task that is active in all
states in between is selected exactly once. -/
theorem round_robin [NeZero T] (M : Fin T) (s : CpuState T) (hs : (scheduler M).Reachable s) :
    (Seg s.next s.activeTasksListHead s.activeTasks none ∧ Seg s.next s.unusedTasksListHead s.unusedTasks none ∧
      (s.activeTasks ++ s.unusedTasks).Nodup) ∧
    (s.selected ≠ [] → ∃ c ∈ s.activeTasks, s.currentTask = some c) ∧
    (∀ d, s.nextTask = some d → d ∈ s.activeTasks ∧ s.yieldTaskSwitch.currentTask = some d) ∧
    (∀ x ls t, s.update = .bridge x → ((scheduler M).Guarded fun u l => ¬ Starts x u l).Run s ls t →
      ∃ sel, t.selected = s.selected ++ sel ∧ x ∉ sel) ∧
    ∀ X Y ls t sel, s.currentTask = some X → Y ≠ X → ((scheduler M).Guarded (Undisturbed X Y)).Run s ls t →
      Y ∈ t.activeTasks → t.selected = s.selected ++ sel → X ∉ sel → t.nextTask = some X → sel.count Y = 1 := by
  have h := (inv_inductive M).reachable s hs
  refine ⟨⟨h.lists.active, h.lists.unused, h.lists.nodup⟩, ?_, ?_, ?_, ?_⟩
  · intro hne
    obtain ⟨c, hc⟩ := Option.ne_none_iff_exists'.mp (mt List.getLast?_eq_none_iff.mp hne)
    rw [h.logged] at hc
    exact ⟨c, h.current c hc, hc⟩
  · intro d hd
    refine ⟨h.nextTask_mem hd, ?_⟩
    rw [yieldTaskSwitch, hd]
    exact switchTo_currentTask s d
  · intro x ls t hx hr
    have hout : x ∉ s.activeTasks := fun hmem => h.lists.inFlight x (by rw [hx]; rfl) (List.mem_append_left _ hmem)
    exact (inactive_run h hr hout).2
  · intro X Y ls t sel hX hne hr hY hsel hnot hnext
    exact once_per_turn h hX hne hr hY hsel hnot hnext

/-- The network task runs, the management task has its turn, and then the
network task again. -/
theorem round_robin_twoTasks :
    ((twoTasks ⟨1, 2, 3⟩ ⟨4, 5, 6⟩).switchTo 1).nextTask = some 0 ∧
      (((twoTasks ⟨1, 2, 3⟩ ⟨4, 5, 6⟩).switchTo 1).switchTo 0).nextTask = some 1 ∧ [(0 : Fin 2)].count 0 = 1 := by
  have hboot := twoTasks_reachable ⟨1, 2, 3⟩ ⟨4, 5, 6⟩
  have hfirst : (scheduler 0).Reachable ((twoTasks ⟨1, 2, 3⟩ ⟨4, 5, 6⟩).switchTo 1) := hboot.step .yieldTaskSwitch
  refine ⟨rfl, rfl, (round_robin 0 _ hfirst).2.2.2.2 1 0 [.yieldTaskSwitch] _ [0] rfl (by decide)
    (.cons ⟨⟨?_, nofun⟩, .yieldTaskSwitch⟩ (.nil _)) ?_ rfl (by decide) rfl⟩
  · decide
  · decide

end CpuScheduler.L5
