import CpuScheduler.L5Concurrency.RoundRobin

/-!
# Every task resumes its own context

`switchTo` saves the stack pointer and the page directory in the descriptor of
the task it leaves and loads those of the task it goes to. A descriptor is
written in two places only: by a switch that leaves its task, and by the start
that takes it from the unused list (`value_step`). So an active task that is
not running keeps what was saved (`saved_step`), and a task that was started
has the values of its start until its first switch (`begun_step`).
-/
namespace CpuScheduler.L5

open Links L4 CpuState

variable {T : Nat} {M X c d : Fin T} {s t u : CpuState T} {l : SchedulerCall T} {ls : List (SchedulerCall T)}

/-! ## One switch -/

theorem switchTo_value_of_ne (h : s.currentTask ≠ some X) : (s.switchTo d).value X = s.value X := by
  unfold switchTo
  cases hc : s.currentTask with
  | none => rfl
  | some c =>
    have hne : X ≠ c := by
      rintro rfl
      exact h hc
    simp [setTaskEsp, setPageDirectory, swapPageDirectory, Function.update_of_ne hne]

/-- What a switch saves. -/
theorem switchTo_value_current (h : s.currentTask = some X) :
    (s.switchTo d).value X = ⟨s.esp, (s.value X).kernelEspStackBegin, s.pageDirectory⟩ := by
  unfold switchTo
  rw [h]
  simp [setTaskEsp, setPageDirectory, swapPageDirectory]

/-- What a switch loads. -/
theorem switchTo_loads (h : s.currentTask ≠ some X) :
    (s.switchTo X).esp = (s.value X).taskEsp ∧ (s.switchTo X).esp0 = (s.value X).kernelEspStackBegin ∧
      (s.switchTo X).pageDirectory = (s.value X).pageDirectoryPhysicalAddr := by
  unfold switchTo
  cases hc : s.currentTask with
  | none => exact ⟨rfl, rfl, rfl⟩
  | some c =>
    have hne : X ≠ c := by
      rintro rfl
      exact h hc
    simp [setTaskEsp, setPageDirectory, swapPageDirectory, Function.update_of_ne hne]

/-! ## Which steps write a descriptor -/

/-- The descriptor whose values a start is writing. -/
def Update.describes : Update T → Option (Fin T)
  | .setEsp new _ | .setStackBegin new _ | .setDirectory new _ => some new
  | _ => none

theorem write_value_of_ne (h : s.update.describes ≠ some X) : s.write.value X = s.value X := by
  unfold write
  cases hu : s.update with
  | setEsp new _ | setStackBegin new _ | setDirectory new _ =>
    have hne : X ≠ new := by
      rintro rfl
      exact h (by rw [hu]; rfl)
    simp [setTaskEsp, setKernelEspStackBegin, setPageDirectory, Function.update_of_ne hne]
  | _ => rfl

/-- A step leaves a descriptor alone, or it switches away from its task, or it
is a write of the start of its task. -/
theorem value_step (h : SchedulerStep M s l t) (X : Fin T) :
    t.value X = s.value X ∨ (∃ d, s.nextTask = some d ∧ t = s.switchTo d ∧ s.currentTask = some X) ∨
      s.update.describes = some X := by
  cases h with
  | yieldTaskSwitch =>
    rcases s.yieldTaskSwitch_cases with he | ⟨d, hd, he⟩
    · rw [he]
      exact .inl rfl
    · rw [he]
      by_cases hc : s.currentTask = some X
      · exact .inr (.inl ⟨d, hd, rfl, hc⟩)
      · exact .inl (switchTo_value_of_ne hc)
  | setToRunningState d =>
    left
    unfold setToRunningState
    cases s.unusedTasksListHead <;> rfl
  | write =>
    by_cases hd : s.update.describes = some X
    · exact .inr (.inr hd)
    · exact .inl (write_value_of_ne hd)
  | execute | setPaused | destroy => exact .inl rfl

theorem describes_inFlight {u : Update T} (h : u.describes = some X) : u.inFlight = some X := by
  cases u <;> first | exact h | cases h

/-- The saved context of an active task changes only when the task itself is
switched out. -/
theorem saved_step (hs : s.Inv M) (h : SchedulerStep M s l t) (hX : X ∈ s.activeTasks) (hc : s.currentTask ≠ some X) :
    t.value X = s.value X := by
  rcases value_step h X with hv | ⟨d, -, -, hcurrent⟩ | hd
  · exact hv
  · exact absurd hcurrent hc
  · exact absurd (List.mem_append_left _ hX) (hs.lists.inFlight X (describes_inFlight hd))

/-! ## From one switch to the next -/

/-- While `X` stays active and is not selected, it keeps its context. -/
theorem parked_run [NeZero T] {sel : List (Fin T)} (hs : s.Inv M)
    (hr : ((scheduler M).Guarded fun u l => ¬ Starts X u l).Run s ls t) (hX : X ∈ t.activeTasks)
    (hc : s.currentTask ≠ some X) (hsel : t.selected = s.selected ++ sel) (hnot : X ∉ sel) :
    t.currentTask ≠ some X ∧ t.value X = s.value X := by
  induction hr generalizing sel with
  | nil => exact ⟨hc, rfl⟩
  | cons h hr ih =>
    rename_i s1 s2 t l ls
    obtain ⟨hstart, hstep⟩ := h
    have hs2 := step_inv hs hstep
    have hX1 : X ∈ s1.activeTasks := by
      by_contra hx
      have hx2 := (inactive_step hs hstep hx hstart).1
      exact (inactive_run hs2 hr hx2).1 hX
    obtain ⟨sel2, hsel2⟩ := run_selected hr.of_guarded
    have hvalue := saved_step hs hstep hX1 hc
    rcases step_selected hstep with ⟨hsel1, hcurrent⟩ | ⟨d, -, hd, rfl⟩
    · have hsplit : sel = sel2 := by
        rw [hsel2, hsel1] at hsel
        exact (List.append_cancel_left hsel).symm
      rw [hsplit] at hnot
      rw [← hvalue]
      exact ih hs2 hX (by rwa [hcurrent]) hsel2 hnot
    · have hsplit : sel = d :: sel2 := by
        rw [hsel2, switchTo_selected, List.append_assoc] at hsel
        exact (List.append_cancel_left hsel).symm
      rw [hsplit, List.mem_cons, not_or] at hnot
      rw [← hvalue]
      refine ih hs2 hX ?_ hsel2 hnot.2
      rw [switchTo_currentTask]
      exact fun h => hnot.1 (Option.some.inj h).symm

/-- `X` is switched out in `s` and selected again in `t`. -/
theorem resumed [NeZero T] {sel : List (Fin T)} (hs : s.Inv M) (hX : s.currentTask = some X) (hd : s.nextTask = some d)
    (hr : ((scheduler M).Guarded fun u l => ¬ Starts X u l).Run (s.switchTo d) ls t)
    (hsel : t.selected = (s.switchTo d).selected ++ sel) (hnot : X ∉ sel) (hnext : t.nextTask = some X) :
    (t.switchTo X).esp = s.esp ∧ (t.switchTo X).pageDirectory = s.pageDirectory ∧
      (t.switchTo X).esp0 = (s.value X).kernelEspStackBegin := by
  have hs1 := switchTo_inv hs hd
  have ht : t.Inv M := hr.of_guarded.keeps (inv_inductive M).step hs1
  have hleft : (s.switchTo d).currentTask ≠ some X := by
    obtain ⟨-, hne, -⟩ := nextTask_spec hd
    rw [switchTo_currentTask, ← hX]
    exact hne.symm
  obtain ⟨hc, hvalue⟩ := parked_run hs1 hr (ht.nextTask_mem hnext) hleft hsel hnot
  obtain ⟨hesp, hesp0, hdirectory⟩ := switchTo_loads hc
  rw [hesp, hesp0, hdirectory, hvalue, switchTo_value_current hX]
  exact ⟨rfl, rfl, rfl⟩

/-! ## From the start to the first switch -/

/-- `setToRunningState` takes the descriptor `x`. -/
def Takes (x : Fin T) (s : CpuState T) (l : SchedulerCall T) : Prop :=
  (∃ v, l = .setToRunningState v) ∧ s.unusedTasksListHead = some x

/-- The descriptor that a start has taken or is about to take. -/
def Update.starting : Update T → Option (Fin T)
  | .takeUnused new _ | .setEsp new _ | .setStackBegin new _ | .setDirectory new _ | .setNext new | .clearPrev new
  | .linkBack new | .publish new => some new
  | _ => none

/-- A start of `X` with the values `v` is under way and has written what it
has come to. -/
def Describing (X : Fin T) (v : TaskDescriptor) (s : CpuState T) : Prop :=
  match s.update with
  | .takeUnused new v' | .setEsp new v' => new = X ∧ v' = v
  | .setStackBegin new v' => (new = X ∧ v' = v) ∧ (s.value X).taskEsp = v.taskEsp
  | .setDirectory new v' =>
    (new = X ∧ v' = v) ∧ (s.value X).taskEsp = v.taskEsp ∧ (s.value X).kernelEspStackBegin = v.kernelEspStackBegin
  | .setNext new | .clearPrev new | .linkBack new | .publish new => new = X ∧ s.value X = v
  | _ => False

variable {v : TaskDescriptor} {sel : List (Fin T)}

theorem Describing.starting (h : Describing X v s) : s.update.starting = some X := by
  unfold Describing at h
  cases hu : s.update <;> simp only [hu] at h <;> simp [Update.starting, h]

theorem Describing.congr (h : Describing X v s) (hupdate : t.update = s.update) (hvalue : t.value X = s.value X) :
    Describing X v t := by
  unfold Describing at *
  rw [hupdate, hvalue]
  exact h

theorem inactive_of_starting (hs : s.Inv M) (h : s.update.starting = some X) : X ∉ s.activeTasks := by
  intro hX
  cases hu : s.update with
  | takeUnused new v' =>
    have hp := hs.lists.prepared
    simp only [Prepared, hu] at hp
    rw [hu] at h
    cases h
    have hhead := hs.lists.unused.head_eq
    rw [hp.2] at hhead
    exact hs.lists.disjoint hX (List.mem_of_head? hhead.symm)
  | setEsp | setStackBegin | setDirectory | setNext | clearPrev | linkBack | publish =>
    refine hs.lists.inFlight X ?_ (List.mem_append_left _ hX)
    rw [hu] at h ⊢
    exact h
  | _ =>
    rw [hu] at h
    cases h

/-- A start that is under way has taken its descriptor. -/
theorem starting_step (h : SchedulerStep M s l t) (hnot : ¬ Takes X s l) (hX : t.update.starting = some X) :
    s.update.starting = some X := by
  cases h with
  | yieldTaskSwitch =>
    rcases s.yieldTaskSwitch_cases with he | ⟨d, -, he⟩
    · rwa [he] at hX
    · rwa [he, switchTo_update] at hX
  | setToRunningState v' =>
    unfold setToRunningState at hX
    split at hX
    · exact hX
    · rename_i new hnew
      cases hX
      exact absurd ⟨⟨v', rfl⟩, hnew⟩ hnot
  | destroy => cases hX
  | write =>
    unfold write at hX
    cases hu : s.update <;> simp only [hu] at hX <;> first | exact hX | cases hX
  | execute | setPaused => exact hX

/-- The next write of a start: it describes `X` further or makes it active. -/
theorem describing_write (h : Describing X v s) :
    Describing X v s.write ∨ s.update = .publish X ∧ s.value X = v := by
  unfold Describing at h
  cases hu : s.update with
  | takeUnused new v' =>
    simp only [hu] at h
    left
    simpa [Describing, write, hu] using h
  | setEsp new v' =>
    simp only [hu] at h
    obtain ⟨rfl, rfl⟩ := h
    left
    simp [Describing, write, hu, setTaskEsp]
  | setStackBegin new v' =>
    simp only [hu] at h
    obtain ⟨⟨rfl, rfl⟩, hesp⟩ := h
    left
    simp [Describing, write, hu, setKernelEspStackBegin, hesp]
  | setDirectory new v' =>
    simp only [hu] at h
    obtain ⟨⟨rfl, rfl⟩, hesp, hstack⟩ := h
    left
    simp [Describing, write, hu, setPageDirectory, hesp, hstack]
  | setNext new | clearPrev new | linkBack new =>
    simp only [hu] at h
    left
    simpa [Describing, write, hu] using h
  | publish new =>
    simp only [hu] at h
    obtain ⟨rfl, hvalue⟩ := h
    exact .inr ⟨rfl, hvalue⟩
  | _ => simp only [hu] at h

/-- `X` was started with `v`: the start is still under way, or `X` is active
and, unless it has been selected since, waits with the values of its start, or
it has been destroyed. -/
inductive Begun (X : Fin T) (v : TaskDescriptor) (sel : List (Fin T)) (s : CpuState T) : Prop where
  | starting (h : Describing X v s)
  | active (hX : X ∈ s.activeTasks) (hstack : (s.value X).kernelEspStackBegin = v.kernelEspStackBegin)
      (hfresh : X ∉ sel → s.currentTask ≠ some X ∧ s.value X = v)
  | gone (hX : X ∉ s.activeTasks) (h : s.update.starting ≠ some X)

theorem begun_of_starting (hs : s.Inv M) (h : SchedulerStep M s l t) (hX : Describing X v s) :
    ∃ sel', t.selected = s.selected ++ sel' ∧ Begun X v (sel ++ sel') t := by
  have hout := inactive_of_starting hs hX.starting
  have hcurrent : s.currentTask ≠ some X := fun hc => hout (hs.current X hc)
  have hbusy : ¬ s.Idle := by
    intro hidle
    have := hX.starting
    rw [hidle] at this
    cases this
  cases h with
  | yieldTaskSwitch =>
    rcases s.yieldTaskSwitch_cases with he | ⟨d, -, he⟩
    · rw [he]
      exact ⟨[], (List.append_nil _).symm, .starting hX⟩
    · rw [he]
      exact ⟨[d], switchTo_selected s d, .starting (hX.congr (switchTo_update s d) (switchTo_value_of_ne hcurrent))⟩
  | execute => exact ⟨[], (List.append_nil _).symm, .starting (hX.congr rfl rfl)⟩
  | setPaused => exact ⟨[], (List.append_nil _).symm, .starting (hX.congr rfl rfl)⟩
  | setToRunningState _ _ hidle => exact absurd hidle hbusy
  | destroy _ _ hidle => exact absurd hidle hbusy
  | write hmay hbusy =>
    have hselected : s.write.selected = s.selected ∧ s.write.currentTask = s.currentTask := by
      unfold write
      cases s.update <;> exact ⟨rfl, rfl⟩
    refine ⟨[], by rw [hselected.1, List.append_nil], ?_⟩
    rcases describing_write hX with hnext | ⟨hpublish, hvalue⟩
    · exact .starting hnext
    · have hlists := publish_lists hs.lists hpublish
      have hsame : s.write.value X = v := by
        rw [← hvalue]
        exact write_value_of_ne (by rw [hpublish]; nofun)
      refine .active ?_ (by rw [hsame]) fun _ => ⟨?_, hsame⟩
      · rw [hlists.activeTasks_eq]
        exact List.mem_cons_self
      · rw [hselected.2]
        exact hcurrent

theorem begun_of_active (hs : s.Inv M) (h : SchedulerStep M s l t) (hnot : ¬ Takes X s l) (hX : X ∈ s.activeTasks)
    (hstack : (s.value X).kernelEspStackBegin = v.kernelEspStackBegin)
    (hfresh : X ∉ sel → s.currentTask ≠ some X ∧ s.value X = v) :
    ∃ sel', t.selected = s.selected ++ sel' ∧ Begun X v (sel ++ sel') t := by
  have hout : t.update.starting ≠ some X := fun hst => inactive_of_starting hs (starting_step h hnot hst) hX
  have hkept : (t.value X).kernelEspStackBegin = v.kernelEspStackBegin := by
    rcases value_step h X with hv | ⟨d, -, rfl, hc⟩ | hd
    · rw [hv, hstack]
    · rw [switchTo_value_current hc, hstack]
    · exact absurd (List.mem_append_left _ hX) (hs.lists.inFlight X (describes_inFlight hd))
  have hsaved (hn : X ∉ sel) : t.value X = v := by
    obtain ⟨hc, hv⟩ := hfresh hn
    rw [saved_step hs h hX hc, hv]
  rcases step_selected h with ⟨hsel, hcurrent⟩ | ⟨d, -, -, rfl⟩
  · refine ⟨[], by rw [hsel, List.append_nil], ?_⟩
    by_cases hXt : X ∈ t.activeTasks
    · refine .active hXt hkept fun hn => ?_
      rw [List.append_nil] at hn
      rw [hcurrent]
      exact ⟨(hfresh hn).1, hsaved hn⟩
    · exact .gone hXt hout
  · refine ⟨[d], switchTo_selected s d, .active (by rwa [switchTo_activeTasks]) hkept fun hn => ?_⟩
    rw [List.mem_append, not_or, List.mem_singleton] at hn
    rw [switchTo_currentTask]
    exact ⟨fun hd => hn.2 (Option.some.inj hd).symm, hsaved hn.1⟩

theorem begun_step (hs : s.Inv M) (h : SchedulerStep M s l t) (hnot : ¬ Takes X s l) (hb : Begun X v sel s) :
    ∃ sel', t.selected = s.selected ++ sel' ∧ Begun X v (sel ++ sel') t := by
  cases hb with
  | starting hX => exact begun_of_starting hs h hX
  | active hX hstack hfresh => exact begun_of_active hs h hnot hX hstack hfresh
  | gone hX hstarting =>
    have hnotStarts : ¬ Starts X s l := by
      rintro ⟨-, hpublish⟩
      rw [hpublish] at hstarting
      exact hstarting rfl
    obtain ⟨hX', sel', hsel, -⟩ := inactive_step hs h hX hnotStarts
    exact ⟨sel', hsel, .gone hX' fun hst => hstarting (starting_step h hnot hst)⟩

theorem begun_run [NeZero T] (hs : s.Inv M) (hr : ((scheduler M).Guarded fun u l => ¬ Takes X u l).Run s ls t)
    (hb : Begun X v sel s) : ∃ sel', t.selected = s.selected ++ sel' ∧ Begun X v (sel ++ sel') t := by
  induction hr generalizing sel with
  | nil => exact ⟨[], (List.append_nil _).symm, by rwa [List.append_nil]⟩
  | cons h _ ih =>
    obtain ⟨sel1, hsel1, hb1⟩ := begun_step hs h.2 h.1 hb
    obtain ⟨sel2, hsel2, hb2⟩ := ih (step_inv hs h.2) hb1
    refine ⟨sel1 ++ sel2, ?_, ?_⟩
    · rw [hsel2, hsel1, List.append_assoc]
    · rwa [← List.append_assoc]

/-- `X` is started with `v` in `s` and selected in `t`. -/
theorem first_context [NeZero T] (hs : s.Inv M) (hX : s.update = .takeUnused X v)
    (hr : ((scheduler M).Guarded fun u l => ¬ Takes X u l).Run s ls t) (hsel : t.selected = s.selected ++ sel)
    (hnext : t.nextTask = some X) :
    (t.switchTo X).esp0 = v.kernelEspStackBegin ∧
      (X ∉ sel → (t.switchTo X).esp = v.taskEsp ∧ (t.switchTo X).pageDirectory = v.pageDirectoryPhysicalAddr) := by
  have ht : t.Inv M := hr.of_guarded.keeps (inv_inductive M).step hs
  have hbegun : Begun X v [] s := by
    refine .starting ?_
    simp [Describing, hX]
  obtain ⟨sel', hsel', hb⟩ := begun_run hs hr hbegun
  have hsame : sel' = sel := List.append_cancel_left (hsel'.symm.trans hsel)
  rw [hsame, List.nil_append] at hb
  obtain ⟨-, hne, -⟩ := nextTask_spec hnext
  obtain ⟨hesp, hesp0, hdirectory⟩ := switchTo_loads hne
  have hactive := ht.nextTask_mem hnext
  cases hb with
  | starting h => exact absurd hactive (inactive_of_starting ht h.starting)
  | gone h => exact absurd hactive h
  | active _ hstack hfresh =>
    refine ⟨by rw [hesp0, hstack], fun hn => ?_⟩
    rw [hesp, hdirectory, (hfresh hn).2]
    exact ⟨rfl, rfl⟩

/-! ## The result -/

/-- In every reachable state: a call with task switching paused, without a
task, or that comes back to the current task changes nothing. A step leaves
the saved context of every active task alone that is not the current one. If
`X` is the current task and is switched out, the next selection of `X`
installs the stack pointer and the page directory of that moment and its
kernel stack. If `X` is being started with `v`, every selection installs the
kernel stack of `v` and the first one the rest of `v`. -/
theorem context_restored [NeZero T] (M : Fin T) (s : CpuState T) (hs : (scheduler M).Reachable s) :
    (s.taskSwitchingPaused = true ∨ s.activeTasksListHead = none ∨
      (∃ head, s.activeTasksListHead = some head ∧ s.currentTask = some (s.nextOrHead head)) → s.yieldTaskSwitch = s) ∧
    (∀ l t X, (scheduler M).step s l t → X ∈ s.activeTasks → s.currentTask ≠ some X → t.value X = s.value X) ∧
    (∀ X d ls t sel, s.currentTask = some X → s.nextTask = some d →
      ((scheduler M).Guarded fun u l => ¬ Starts X u l).Run s.yieldTaskSwitch ls t →
      t.selected = s.yieldTaskSwitch.selected ++ sel → X ∉ sel → t.nextTask = some X →
      t.yieldTaskSwitch.esp = s.esp ∧ t.yieldTaskSwitch.pageDirectory = s.pageDirectory ∧
        t.yieldTaskSwitch.esp0 = (s.value X).kernelEspStackBegin) ∧
    ∀ X v ls t sel, s.update = .takeUnused X v → ((scheduler M).Guarded fun u l => ¬ Takes X u l).Run s ls t →
      t.selected = s.selected ++ sel → t.nextTask = some X →
      t.yieldTaskSwitch.esp0 = v.kernelEspStackBegin ∧
        (X ∉ sel → t.yieldTaskSwitch.esp = v.taskEsp ∧ t.yieldTaskSwitch.pageDirectory = v.pageDirectoryPhysicalAddr) := by
  have h := (inv_inductive M).reachable s hs
  have hyield {s : CpuState T} {d : Fin T} (hd : s.nextTask = some d) : s.yieldTaskSwitch = s.switchTo d := by
    rw [yieldTaskSwitch, hd]
  refine ⟨?_, ?_, ?_, ?_⟩
  · intro hreturn
    have hnone : s.nextTask = none := by
      unfold nextTask
      rcases hreturn with hpaused | hempty | ⟨head, hhead, hsame⟩
      · rw [if_pos hpaused]
      · rw [hempty]
        split <;> rfl
      · rw [hhead]
        dsimp only
        rw [if_pos hsame]
        split <;> rfl
    rw [yieldTaskSwitch, hnone]
  · intro l t X hstep hX hc
    exact saved_step h hstep hX hc
  · intro X d ls t sel hX hd hr hsel hnot hnext
    rw [hyield hd] at hr hsel
    rw [hyield hnext]
    exact resumed h hX hd hr hsel hnot hnext
  · intro X v ls t sel hX hr hsel hnext
    rw [hyield hnext]
    exact first_context h hX hr hsel hnext

/-- The network task, switched out with stack pointer 7 and page directory 8,
comes back to them after the management task. -/
theorem context_restored_twoTasks :
    let s : CpuState 2 := { (twoTasks ⟨1, 2, 3⟩ ⟨4, 5, 6⟩).switchTo 1 with esp := 7, pageDirectory := 8 }
    (s.yieldTaskSwitch.esp = 1 ∧ s.yieldTaskSwitch.yieldTaskSwitch.esp = 7) ∧
      s.yieldTaskSwitch.yieldTaskSwitch.pageDirectory = 8 ∧ s.yieldTaskSwitch.yieldTaskSwitch.esp0 = 5 := by
  have hboot := twoTasks_reachable ⟨1, 2, 3⟩ ⟨4, 5, 6⟩
  have hfirst : (scheduler 0).Reachable ((twoTasks ⟨1, 2, 3⟩ ⟨4, 5, 6⟩).switchTo 1) := hboot.step .yieldTaskSwitch
  have hrun := hfirst.step (.execute 7 8)
  obtain ⟨hesp, hdirectory, hesp0⟩ := (context_restored 0 _ hrun).2.2.1 1 0 [] _ [] rfl rfl (.nil _)
    (List.append_nil _).symm (by simp) rfl
  exact ⟨⟨rfl, hesp⟩, hdirectory, hesp0⟩

end CpuScheduler.L5
