import CpuScheduler.L4Task.Separation
import CpuScheduler.L9Machine.ContextSwitch

/-!
# Where a new task begins

`setTaskArguments` and `setProcessCode` put a frame on the kernel stack of a
task as if it had been interrupted at its first instruction, and arguments on
the stack it is to run on. The first switch to the task returns from that
interrupt. The frame of a user task is written through the kernel's addresses
and read through the task's page directory, so that the result
(`user_task_begins`) rests on the paging structures of the constructor.
-/
namespace CpuScheduler.L9

open L1 L3 L4 WordStack

/-! ## What is written -/

theorem pushAll_eq (ws : List UInt32) (esp : UInt32) (mem : Mem) : (pushAll ws esp mem).val = WordStack.pushes ws esp mem := by
  induction ws generalizing esp mem with
  | nil => rfl
  | cons w ws ih => exact ih (esp - 4) (writeWord mem (esp - 4) w)

/-- The arguments are pushed, and a return address of 0. -/
theorem storeArguments_eq (ws : List UInt32) (stack : UInt32) (mem : Mem) :
    (storeArguments ws stack mem).val = WordStack.pushes (ws ++ [0]) (stack + 4) mem := by
  have hnext (stack : UInt32) : stack + 4 - 4 = stack := add_sub_cancel_right _ _
  induction ws generalizing stack mem with
  | nil =>
    rw [List.nil_append, WordStack.pushes, hnext]
    rfl
  | cons w ws ih =>
    rw [List.cons_append, WordStack.pushes, hnext]
    have hstep := ih (stack - 4) (writeWord mem stack w)
    rw [sub_add_cancel] at hstep
    exact hstep

/-- The arguments from the first one on. -/
def arguments (a : TaskArguments) : List UInt32 := (List.range a.numArgs).map a.args

theorem reversed_eq (a : TaskArguments) : a.reversed = (arguments a).reverse := by
  unfold TaskArguments.reversed arguments
  rw [← List.map_reverse]
  refine List.ext_getElem (by simp) fun i hi _ => ?_
  simp only [List.getElem_map, List.getElem_range, List.getElem_reverse, List.length_range]

/-- The frame that `createIntStackForUserPriv` leaves, and that of
`createIntStackForKernelPriv`. -/
def userFrame (m : Machine) (kernelStack userStack processEntry : UInt32) : Frame where
  ds := (4 * 8) ||| 3
  edi := m.edi
  esi := m.esi
  ebp := m.ebp
  esp := kernelStack - 28
  ebx := processEntry
  edx := m.esp
  ecx := kernelStack
  eax := PITTimer
  number := PITTimer
  errorCode := 0
  eip := processEntry
  cs := (3 * 8) ||| 3
  eflags := m.eflags
  outer := some (userStack, (4 * 8) ||| 3)

def kernelFrame (m : Machine) (kernelStack processEntry : UInt32) : Frame :=
  { userFrame m kernelStack 0 processEntry with
    ds := 2 * 8, esp := kernelStack - 20, cs := 1 * 8, outer := none }

theorem createIntStackForUserPriv_eq (m : Machine) (kernelStack userStack processEntry : UInt32) (mem : Mem) :
    (m.createIntStackForUserPriv kernelStack userStack processEntry PITTimer mem).val =
      WordStack.pushes (m.interruptHandlerReturn :: 0 :: 0 :: (userFrame m kernelStack userStack processEntry).words).reverse
        kernelStack mem :=
  pushAll_eq _ _ _

theorem createIntStackForKernelPriv_eq (m : Machine) (kernelStack processEntry : UInt32) (mem : Mem) :
    (m.createIntStackForKernelPriv kernelStack processEntry PITTimer mem).val =
      WordStack.pushes (m.interruptHandlerReturn :: 0 :: 0 :: (kernelFrame m kernelStack processEntry).words).reverse
        kernelStack mem :=
  pushAll_eq _ _ _

theorem userFrame_length (m : Machine) (kernelStack userStack processEntry : UInt32) :
    (userFrame m kernelStack userStack processEntry).words.length = 16 := rfl

theorem kernelFrame_length (m : Machine) (kernelStack processEntry : UInt32) :
    (kernelFrame m kernelStack processEntry).words.length = 14 := rfl

theorem userFrame_valid (m : Machine) (kernelStack userStack processEntry : UInt32) :
    (userFrame m kernelStack userStack processEntry).Valid := by
  have hcs : ((3 * 8 ||| 3 : UInt32).toUInt16 &&& 3 = 0) = False := by decide
  unfold Frame.Valid userFrame
  dsimp only
  rw [hcs]
  simp only [reduceCtorEq]

theorem kernelFrame_valid (m : Machine) (kernelStack processEntry : UInt32) : (kernelFrame m kernelStack processEntry).Valid := by
  have hcs : (1 * 8 : UInt32).toUInt16 &&& 3 = 0 := by decide
  exact ⟨fun _ => hcs, fun _ => rfl⟩

/-! ## The two stacks -/

section
variable {T : Nat} {m : Machine} {a : TaskArguments} {mem : Mem}

theorem arguments_length : (arguments a).length = a.numArgs := by
  rw [arguments, List.length_map, List.length_range]

/-- The stack pointer after the arguments, which end at `p + k`. -/
theorem arguments_top (p : UInt32) {k n : Nat} (hn : 4 * n ≤ k) :
    p + UInt32.ofNat k + 4 - UInt32.ofNat (4 * (n + 1)) = p + UInt32.ofNat (k - 4 * n) := by
  have hk : UInt32.ofNat k = UInt32.ofNat (k - 4 * n) + UInt32.ofNat (4 * n) := by
    rw [← UInt32.ofNat_add, Nat.sub_add_cancel hn]
  have hn' : UInt32.ofNat (4 * (n + 1)) = UInt32.ofNat (4 * n) + 4 := UInt32.ofNat_add (4 * n) 4
  rw [hk, hn']
  generalize UInt32.ofNat (k - 4 * n) = x
  generalize UInt32.ofNat (4 * n) = y
  rw [add_sub_add_right_eq_sub, ← add_assoc, add_sub_cancel_right]

/-- The arguments of a task on the stack that ends at `p + k`. -/
theorem storeArguments_spec (a : TaskArguments) (p : UInt32) {k : Nat} (hn : 4 * a.numArgs ≤ k) (hk : k < 2 ^ 31) (mem : Mem) :
    ∃ r, (storeArguments a.reversed (p + UInt32.ofNat k) mem).val = (p + UInt32.ofNat (k - 4 * a.numArgs), r) ∧
      Holds r (p + UInt32.ofNat (k - 4 * a.numArgs)) (0 :: arguments a) := by
  have hlength : (a.reversed ++ [0]).length = a.numArgs + 1 := by
    rw [List.length_append, reversed_eq, List.length_reverse, arguments_length, List.length_singleton]
  have htop : (WordStack.pushes (a.reversed ++ [0]) (p + UInt32.ofNat k + 4) mem).1 = p + UInt32.ofNat (k - 4 * a.numArgs) := by
    rw [pushes_fst, hlength, arguments_top p hn]
  have hholds : Holds (WordStack.pushes (a.reversed ++ [0]) (p + UInt32.ofNat k + 4) mem).2
      (WordStack.pushes (a.reversed ++ [0]) (p + UInt32.ofNat k + 4) mem).1 ((a.reversed ++ [0]).reverse ++ []) :=
    holds_pushes trivial (by rw [hlength, List.length_nil]; omega)
  rw [htop, List.append_nil, List.reverse_append, List.reverse_singleton, reversed_eq, List.reverse_reverse, List.singleton_append] at hholds
  refine ⟨_, (storeArguments_eq _ _ mem).trans (Prod.ext htop rfl), ?_⟩
  rw [reversed_eq]
  exact hholds

/-- What `setTaskArguments` leaves on the two stacks of a user task, at the
kernel's addresses. -/
theorem setTaskArguments_spec (m : Machine) (t : UserTaskObject T) (a : TaskArguments) (mem : Mem) (ha : a.numArgs ≤ MAX_TASK_ARGS)
    (hR : t.pTask8MBRegion ≠ 0) :
    ∃ r, (t.setTaskArguments m a mem).val = ({ t with updatedKernelStack := t.pTask8MBRegion + UInt32.ofNat 0x13FB0 }, r) ∧
      Holds r (t.pTask8MBRegion + UInt32.ofNat 0x13FB0) (m.interruptHandlerReturn :: 0 :: 0 ::
        (userFrame m (t.pTask8MBRegion + UInt32.ofNat 0x13FFC) (t.taskSpaceBeginVirtualAddr + UInt32.ofNat (0x23FFC - 4 * a.numArgs))
          (t.taskSpaceBeginVirtualAddr + UInt32.ofNat 0x24000)).words) ∧
      Holds r (t.pTask8MBRegion + UInt32.ofNat (0x23FFC - 4 * a.numArgs)) (0 :: arguments a) := by
  have hn : a.numArgs ≤ 5 := ha
  obtain ⟨mem1, hstore, hargs⟩ := storeArguments_spec a t.pTask8MBRegion (k := 0x23FFC) (by omega) (by decide) mem
  have hsame : t.pTask8MBRegion + UInt32.ofNat (0x23FFC - 4 * a.numArgs) - t.pTask8MBRegion + t.taskSpaceBeginVirtualAddr =
      t.taskSpaceBeginVirtualAddr + UInt32.ofNat (0x23FFC - 4 * a.numArgs) := by
    rw [add_sub_cancel_left, add_comm]
  have hlength : (m.interruptHandlerReturn :: 0 :: 0 ::
      (userFrame m (t.pTask8MBRegion + UInt32.ofNat 0x13FFC) (t.taskSpaceBeginVirtualAddr + UInt32.ofNat (0x23FFC - 4 * a.numArgs))
        (t.taskSpaceBeginVirtualAddr + UInt32.ofNat 0x24000)).words).length = 19 := by
    rw [List.length_cons, List.length_cons, List.length_cons, userFrame_length]
  obtain ⟨mem2, hpush, hframe, hkept⟩ := pushes_below _ (k := 0x13FFC) (by rw [hlength]; decide) (by omega)
    (by rw [List.length_cons, arguments_length]; omega) hargs
  rw [hlength] at hpush hframe
  refine ⟨mem2, ?_, hframe, hkept⟩
  unfold UserTaskObject.setTaskArguments
  simp only [Traced.val_ite, Traced.val_bind, Traced.val_pure]
  rw [if_neg (Nat.not_lt.mpr ha), if_neg hR]
  have hstore' : (storeArguments a.reversed (t.pTask8MBRegion + UInt32.ofNat USER_TASK_USER_STACK_OFFSET) mem).val =
      (t.pTask8MBRegion + UInt32.ofNat (0x23FFC - 4 * a.numArgs), mem1) := hstore
  rw [hstore']
  dsimp only
  rw [createIntStackForUserPriv_eq, hsame]
  exact congrArg (fun r : UInt32 × Mem => ({ t with updatedKernelStack := r.1 }, r.2)) hpush

/-- What `setProcessCode` leaves on the stack of a kernel task. -/
theorem setProcessCode_spec (m : Machine) (t : KernelTaskObject T) (processCode : UInt32) (a : TaskArguments) (mem : Mem)
    (ha : a.numArgs ≤ MAX_TASK_ARGS) (hspace : t.kernelStackSpaceBegin ≠ 0) :
    ∃ r, (t.setProcessCode m processCode a mem).val =
        ({ t with updatedKernelStack := t.kernelStackSpaceBegin + UInt32.ofNat (0xFFB8 - 4 * a.numArgs) }, r) ∧
      Holds r (t.kernelStackSpaceBegin + UInt32.ofNat (0xFFB8 - 4 * a.numArgs)) (m.interruptHandlerReturn :: 0 :: 0 ::
        (kernelFrame m (t.kernelStackSpaceBegin + UInt32.ofNat (0xFFFC - 4 * a.numArgs)) processCode).words) ∧
      Holds r (t.kernelStackSpaceBegin + UInt32.ofNat (0xFFFC - 4 * a.numArgs)) (0 :: arguments a) := by
  have hn : a.numArgs ≤ 5 := ha
  obtain ⟨mem1, hstore, hargs⟩ := storeArguments_spec a t.kernelStackSpaceBegin (k := 0xFFFC) (by omega) (by decide) mem
  have hlength : (m.interruptHandlerReturn :: 0 :: 0 ::
      (kernelFrame m (t.kernelStackSpaceBegin + UInt32.ofNat (0xFFFC - 4 * a.numArgs)) processCode).words).length = 17 := by
    rw [List.length_cons, List.length_cons, List.length_cons, kernelFrame_length]
  obtain ⟨mem2, hpush, hframe, hkept⟩ := pushes_below _ (k := 0xFFFC - 4 * a.numArgs) (by rw [hlength]; omega) (by omega)
    (by rw [List.length_cons, arguments_length]; omega) hargs
  have hoffset : 0xFFFC - 4 * a.numArgs - 4 * 17 = 0xFFB8 - 4 * a.numArgs := by omega
  rw [hlength, hoffset] at hpush hframe
  refine ⟨mem2, ?_, hframe, hkept⟩
  unfold KernelTaskObject.setProcessCode
  simp only [Traced.val_ite, Traced.val_bind, Traced.val_pure]
  rw [if_neg (Nat.not_lt.mpr ha), if_neg hspace]
  have hstart : t.kernelStackSpaceBegin + UInt32.ofNat KERNEL_STACK_SIZE - 4 = t.kernelStackSpaceBegin + UInt32.ofNat 0xFFFC := by
    rw [add_sub_assoc]
    rfl
  rw [hstart, hstore]
  dsimp only
  rw [createIntStackForKernelPriv_eq]
  exact congrArg (fun r : UInt32 × Mem => ({ t with updatedKernelStack := r.1 }, r.2)) hpush

end

/-! ## The first switch to a task -/

/-- Whatever was interrupted before: the switch to a task whose stack pointer
is `esp`, and which sees `mem` in `area`, is acknowledged as a timer interrupt
and goes on with the registers `r` and the words `stack`. -/
def Begins (interruptHandlerReturn esp : UInt32) (area : Span) (mem : Mem) (r : Registers) (stack : List UInt32) : Prop :=
  ∀ (inp : UInt16 → UInt8) (call : Cpu → Cpu) (c : Cpu), c.ring = 0 → c.ss = 2 * 8 → c.fs = 6 * 8 →
    Switches esp c.beforeSwitch (call c.beforeSwitch) → (∀ x, area.Mem x → (call c.beforeSwitch).mem x = mem x) →
      (c.yieldTaskSwitchIntHandler call).eip = interruptHandlerReturn ∧
        ((c.yieldTaskSwitchIntHandler call).interruptHandlerReturn inp).toRegisters = r ∧
        ((c.yieldTaskSwitchIntHandler call).interruptHandlerReturn inp).out = (call c.beforeSwitch).out ++ [(0x20, 0x20)] ∧
        Holds ((c.yieldTaskSwitchIntHandler call).interruptHandlerReturn inp).mem r.esp stack

theorem readWord_within {mem mem' : Mem} {area : Span} {p : UInt32} (hsame : ∀ x, area.Mem x → mem' x = mem x)
    (hp : Span.Within ⟨p, 4⟩ area) : readWord mem' p = readWord mem p :=
  readWord_congr fun x hx => hsame x (hp x hx)

/-- The registers of the kernel before the return to a task. -/
theorem loaded_congr (f : Frame) {r r' : Registers} (hesp : r'.esp = r.esp) (hss : r'.ss = r.ss) (hfs : r'.fs = r.fs) :
    f.loaded r' = f.loaded r := by
  unfold Frame.loaded
  rw [hesp, hss, hfs]

theorem begins_of_holds {f : Frame} {ret param arg esp : UInt32} {area : Span} {mem : Mem} {stack : List UInt32} {r : Registers}
    (hf : f.Valid) (hnumber : f.number = PITTimer) (h : Holds mem esp (ret :: param :: arg :: f.words))
    (hwords : ∀ i, i < f.words.length + 3 → Span.Within ⟨slot esp i, 4⟩ area) (hr : r.esp = esp + 4 ∧ r.ss = 2 * 8 ∧ r.fs = 6 * 8)
    (hstack : Holds mem (f.loaded r).esp stack) (hbehind : ∀ i, i < stack.length → Span.Within ⟨slot (f.loaded r).esp i, 4⟩ area) :
    Begins ret esp area mem (f.loaded r) stack := by
  intro inp call c hring hss hfs hcall hsame
  have hthere : Holds (call c.beforeSwitch).mem esp (ret :: param :: arg :: f.words) :=
    h.frame fun i hi => readWord_within hsame (hwords i hi)
  obtain ⟨hesp', heip, hmem, hcs', hss', hfs'⟩ := afterSwitch_loads hcall
  have hkernel : (c.yieldTaskSwitchIntHandler call).cs = c.cs ∧ (c.yieldTaskSwitchIntHandler call).ss = c.ss ∧
      (c.yieldTaskSwitchIntHandler call).fs = c.fs :=
    ⟨hcs'.trans hcall.cs, hss'.trans hcall.ss, hfs'.trans hcall.fs⟩
  have hrest : Holds (c.yieldTaskSwitchIntHandler call).mem (c.yieldTaskSwitchIntHandler call).esp (param :: arg :: f.words) := by
    rw [Cpu.yieldTaskSwitchIntHandler, hmem, hesp']
    exact hthere.2
  refine ⟨heip.trans hthere.1, ?_, ?_, ?_⟩
  · rw [Cpu.interruptHandlerReturn_loads (by rw [Registers.ring, hkernel.1]; exact hring) hf hrest]
    exact loaded_congr f (hesp'.trans hr.1.symm) (hkernel.2.1.trans (hss.trans hr.2.1.symm)) (hkernel.2.2.trans (hfs.trans hr.2.2.symm))
  · rw [Cpu.interruptHandlerReturn_out (n := 32) (by decide) hnumber hrest]
    rfl
  · rw [Cpu.interruptHandlerReturn_mem, Cpu.yieldTaskSwitchIntHandler, hmem]
    exact hstack.frame fun i hi => readWord_within hsame (hbehind i hi)

/-- The registers of a kernel task at its first instruction. -/
def kernelBegin (m : Machine) (kernelStack processCode : UInt32) : Registers where
  eax := PITTimer
  ecx := kernelStack
  edx := m.esp
  ebx := processCode
  esp := kernelStack
  ebp := m.ebp
  esi := m.esi
  edi := m.edi
  eip := processCode
  eflags := m.eflags
  cs := 1 * 8
  ss := 2 * 8
  ds := 2 * 8
  es := 2 * 8
  fs := 6 * 8
  gs := 2 * 8

/-- The registers of a user task at its first instruction. -/
def userBegin (m : Machine) (kernelStack userStack processEntry : UInt32) : Registers where
  eax := PITTimer
  ecx := kernelStack
  edx := m.esp
  ebx := processEntry
  esp := userStack
  ebp := m.ebp
  esi := m.esi
  edi := m.edi
  eip := processEntry
  eflags := m.eflags
  cs := 3 * 8 ||| 3
  ss := 4 * 8 ||| 3
  ds := 4 * 8 ||| 3
  es := 4 * 8 ||| 3
  fs := 0
  gs := 4 * 8 ||| 3

theorem userFrame_loaded (m : Machine) (kernelStack userStack processEntry : UInt32) {r : Registers} (hfs : r.fs = 6 * 8) :
    (userFrame m kernelStack userStack processEntry).loaded r = userBegin m kernelStack userStack processEntry := by
  unfold Frame.loaded userFrame userBegin
  dsimp only
  rw [hfs]
  rfl

theorem kernelFrame_loaded (m : Machine) (kernelStack processCode : UInt32) {r : Registers} (hfs : r.fs = 6 * 8) (hss : r.ss = 2 * 8)
    (hesp : r.esp + 64 = kernelStack) : (kernelFrame m kernelStack processCode).loaded r = kernelBegin m kernelStack processCode := by
  unfold Frame.loaded kernelFrame kernelBegin userFrame
  dsimp only
  rw [hfs, hss, hesp]
  rfl

section
variable {T : Nat}

/-- A kernel task that is given its code and at most five arguments and is
started begins at its code, in ring 0, on its stack, with a return address of
0 and the arguments in order. -/
theorem kernel_task_begins (m : Machine) (t : KernelTaskObject T) (c : CpuCore T) (processCode : UInt32) (a : TaskArguments)
    (ha : a.numArgs ≤ MAX_TASK_ARGS) (hspace : t.kernelStackSpaceBegin ≠ 0) (hrunning : t.task.isRunning = false) (taskID : Fin T)
    (unusedTasks : List (Fin T)) (hunused : c.unusedTasks = taskID :: unusedTasks) :
    ∃ t' r v, (t.setProcessCode m processCode a c.mem).val = (t', r) ∧
      (t'.setToRunningState { c with mem := r }).2.2.activeTasks = (taskID, v) :: c.activeTasks ∧
      v.pageDirectoryPhysicalAddr = c.currentPageDirectory ∧
      Begins m.interruptHandlerReturn v.taskEsp ⟨t.kernelStackSpaceBegin, KERNEL_STACK_SIZE⟩ r
        (kernelBegin m (t.kernelStackSpaceBegin + UInt32.ofNat (0xFFFC - 4 * a.numArgs)) processCode) (0 :: arguments a) := by
  obtain ⟨r, hval, hframe, hargs⟩ := setProcessCode_spec m t processCode a c.mem ha hspace
  refine ⟨_, r, ⟨t.kernelStackSpaceBegin + UInt32.ofNat (0xFFB8 - 4 * a.numArgs),
    t.kernelStackSpaceBegin + UInt32.ofNat KERNEL_STACK_SIZE - 4, c.currentPageDirectory⟩, hval, ?_, rfl, ?_⟩
  · unfold KernelTaskObject.setToRunningState startTask
    dsimp only
    rw [hrunning, if_neg (by decide), if_neg hspace, hunused]
  · have hn : a.numArgs ≤ 5 := ha
    have htop : t.kernelStackSpaceBegin + UInt32.ofNat (0xFFB8 - 4 * a.numArgs) + 4 + 64 =
        t.kernelStackSpaceBegin + UInt32.ofNat (0xFFFC - 4 * a.numArgs) := by
      rw [show 0xFFFC - 4 * a.numArgs = 0xFFB8 - 4 * a.numArgs + 68 by omega, UInt32.ofNat_add, add_assoc, add_assoc]
      rfl
    have hloaded := kernelFrame_loaded m (t.kernelStackSpaceBegin + UInt32.ofNat (0xFFFC - 4 * a.numArgs)) processCode
      (r := { kernelBegin m 0 0 with esp := t.kernelStackSpaceBegin + UInt32.ofNat (0xFFB8 - 4 * a.numArgs) + 4 }) rfl rfl htop
    rw [← hloaded]
    refine begins_of_holds (kernelFrame_valid _ _ _) rfl hframe (fun i hi => ?_) ⟨rfl, rfl, rfl⟩ ?_ ?_
    · rw [kernelFrame_length] at hi
      rw [slot_offset]
      exact Span.within_of_le (by unfold KERNEL_STACK_SIZE; omega) (by decide)
    · rw [hloaded]
      exact hargs
    · intro i hi
      rw [List.length_cons, arguments_length] at hi
      rw [hloaded]
      show Span.Within ⟨slot (t.kernelStackSpaceBegin + UInt32.ofNat (0xFFFC - 4 * a.numArgs)) i, 4⟩ _
      rw [slot_offset]
      exact Span.within_of_le (by unfold KERNEL_STACK_SIZE; omega) (by decide)

/-- The stack from 0x100000 on and two arguments. -/
theorem kernel_task_begins_two : ∃ r esp, Begins 0 esp ⟨0x100000, KERNEL_STACK_SIZE⟩ r
    (kernelBegin sampleMachine 0x10FFF4 0x12340) [0, 7, 8] := by
  obtain ⟨t', r, v, -, -, -, h⟩ := kernel_task_begins sampleMachine ⟨⟨none, false⟩, 0x100000, 0⟩ (exhaustedCore true) 0x12340
    ⟨fun i => 7 + UInt32.ofNat i, 2⟩ (by decide) (by decide) rfl (0 : Fin (49 + 1)) ((List.finRange 49).map Fin.succ) List.finRange_succ
  exact ⟨r, v.taskEsp, h⟩

end

/-! ## Memory through the page directory of a task -/

/-- What the user task whose paging structures are at `pTask8MBRegion` sees of
physical memory. -/
def view (k : Kernel) (g : Garbage) (other : UInt32 → PageTable) (pTask8MBRegion base : UInt32) (mem : Mem) : Mem := fun x =>
  match walk ((newUserTask k g pTask8MBRegion base).memory k (pTask8MBRegion.toNat / 4096) other)
      (newUserTask k g pTask8MBRegion base).pTaskPageDirectory.pageDirectoryEntries (x.toNat / 4096) with
  | some (page, _) => mem (page + UInt32.ofNat (x.toNat % 4096))
  | none => 0

section
variable {this cr0 : UInt32} (hthis : Aligned this) (enabled : cr0 &&& 0x80000000 ≠ 0) (g : Garbage) (other : UInt32 → PageTable)
  {pTask8MBRegion base : UInt32} {r : Region}

/-- Page `i` of the task, if it is mapped, is page `i` of its region. -/
theorem view_page (hR : pTask8MBRegion.toNat = 0x1000 * r.first) (hfit : r.first + 2048 ≤ 1023 * 1024) (hplaced : Placed r)
    (hbase : base.toNat % (1024 * 4096) = 0) (hb : base.toNat / (1024 * 4096) + 1 < 1023) {i o : Nat} (hi : i < 2048)
    (hindex : (r.first + i) % 1024 ≠ 1023) (ho : o < 4096) (mem : Mem) :
    view (PagingStructures.kernel this hthis cr0 enabled) g other pTask8MBRegion base mem (base + UInt32.ofNat (4096 * i + o)) =
      mem (pTask8MBRegion + UInt32.ofNat (4096 * i + o)) := by
  have hpage : pTask8MBRegion.toNat / 4096 = r.first := by omega
  have haligned : Aligned pTask8MBRegion := by
    rw [aligned_iff]
    omega
  have hne : (PagingStructures.kernel this hthis cr0 enabled).physPage (pTask8MBRegion.toNat / 4096 + 2) ≠
      (PagingStructures.kernel this hthis cr0 enabled).physPage (pTask8MBRegion.toNat / 4096 + 3) := by
    rw [PagingStructures.kernel_physPage, PagingStructures.kernel_physPage, hpage]
    intro heq
    have hval := congrArg UInt32.toNat heq
    rw [UInt32.toNat_ofNat', UInt32.toNat_ofNat'] at hval
    omega
  have hmapped := pageMapped_of_ne (PagingStructures.kernel this hthis cr0 enabled) g other haligned (by omega) hbase hb
    (by rw [hpage]; exact hplaced.table1) (by rw [hpage]; exact hplaced.table2) hne hi (by rw [hpage]; exact hindex)
  have hx : (base + UInt32.ofNat (4096 * i + o)).toNat = base.toNat + (4096 * i + o) := by
    rw [UInt32.toNat_add, UInt32.toNat_ofNat']
    omega
  have hxpage : (base + UInt32.ofNat (4096 * i + o)).toNat / 4096 = base.toNat / 4096 + i := by omega
  have hxoffset : (base + UInt32.ofNat (4096 * i + o)).toNat % 4096 = o := by omega
  unfold view
  rw [hxpage, hxoffset, hmapped]
  dsimp only
  rw [PagingStructures.kernel_physPage, hpage]
  have hregion : pTask8MBRegion = UInt32.ofNat (0x1000 * r.first) := by
    rw [← hR, UInt32.ofNat_toNat]
  rw [hregion, ← UInt32.ofNat_add, ← UInt32.ofNat_add]
  congr 2
  ring

theorem readWord_moved {mem mem' : Mem} {p q : UInt32}
    (h : ∀ j, j < 4 → mem' (q + UInt32.ofNat j) = mem (p + UInt32.ofNat j)) : readWord mem' q = readWord mem p := by
  have h0 : mem' q = mem p := by simpa using h 0 (by decide)
  have h1 : mem' (q + 1) = mem (p + 1) := h 1 (by decide)
  have h2 : mem' (q + 2) = mem (p + 2) := h 2 (by decide)
  have h3 : mem' (q + 3) = mem (p + 3) := h 3 (by decide)
  unfold readWord
  rw [h0, h1, h2, h3]

/-- A word of a mapped page. -/
theorem view_word (hR : pTask8MBRegion.toNat = 0x1000 * r.first) (hfit : r.first + 2048 ≤ 1023 * 1024) (hplaced : Placed r)
    (hbase : base.toNat % (1024 * 4096) = 0) (hb : base.toNat / (1024 * 4096) + 1 < 1023) {i o : Nat} (hi : i < 2048)
    (hindex : (r.first + i) % 1024 ≠ 1023) (ho : o + 4 ≤ 4096) (mem : Mem) :
    readWord (view (PagingStructures.kernel this hthis cr0 enabled) g other pTask8MBRegion base mem) (base + UInt32.ofNat (4096 * i + o)) =
      readWord mem (pTask8MBRegion + UInt32.ofNat (4096 * i + o)) := by
  have hbyte (j : Nat) (hj : j < 4) : view (PagingStructures.kernel this hthis cr0 enabled) g other pTask8MBRegion base mem
      (base + UInt32.ofNat (4096 * i + o) + UInt32.ofNat j) = mem (pTask8MBRegion + UInt32.ofNat (4096 * i + o) + UInt32.ofNat j) := by
    rw [add_assoc, add_assoc, ← UInt32.ofNat_add, Nat.add_assoc]
    exact view_page hthis enabled g other hR hfit hplaced hbase hb hi hindex (by omega) mem
  exact readWord_moved hbyte

theorem translate_region (hR : pTask8MBRegion.toNat = 0x1000 * r.first) (hplaced : Placed r) (uninit : PTE) :
    (PagingStructures.kernel this hthis cr0 enabled).translateVirtualToPhysicalAddress uninit pTask8MBRegion = pTask8MBRegion := by
  have hpage : pTask8MBRegion.toNat / 4096 = r.first := by omega
  have haligned : Aligned pTask8MBRegion := by
    rw [aligned_iff]
    omega
  rw [Kernel.translate_page _ _ haligned, Kernel.getPTE_addr _ _ (by rw [hpage]; exact hplaced.directory),
    PagingStructures.kernel_physPage, hpage, Nat.mul_comm, ← hR, UInt32.ofNat_toNat]

variable {T : Nat}

/-- A user task that is given at most five arguments and is started begins at
its entry point, in ring 3, on its user stack, with a return address of 0 and
the arguments in order, as long as the pages of its stacks are mapped. -/
theorem user_task_begins (m : Machine) (hm : m.kernel = PagingStructures.kernel this hthis cr0 enabled) (t : UserTaskObject T)
    (c : CpuCore T) (hR : t.pTask8MBRegion.toNat = 0x1000 * r.first) (hfirst : 0 < r.first) (hfit : r.first + 2048 ≤ 1023 * 1024)
    (hplaced : Placed r) (hkernelStack : (r.first + 19) % 1024 ≠ 1023) (huserStack : (r.first + 35) % 1024 ≠ 1023)
    (hbase : t.taskSpaceBeginVirtualAddr.toNat % (1024 * 4096) = 0) (hb : t.taskSpaceBeginVirtualAddr.toNat / (1024 * 4096) + 1 < 1023)
    (a : TaskArguments) (ha : a.numArgs ≤ MAX_TASK_ARGS) (hrunning : t.task.isRunning = false) (taskID : Fin T)
    (unusedTasks : List (Fin T)) (hunused : c.unusedTasks = taskID :: unusedTasks) :
    ∃ t' mem v, (t.setTaskArguments m a c.mem).val = (t', mem) ∧
      (t'.setToRunningState m { c with mem := mem }).2.2.activeTasks = (taskID, v) :: c.activeTasks ∧
      v.pageDirectoryPhysicalAddr = t.pTask8MBRegion ∧
      Begins m.interruptHandlerReturn v.taskEsp ⟨t.taskSpaceBeginVirtualAddr, 0x24000⟩
        (view m.kernel g other t.pTask8MBRegion t.taskSpaceBeginVirtualAddr mem)
        (userBegin m (t.pTask8MBRegion + UInt32.ofNat USER_TASK_KERNEL_STACK_OFFSET)
          (t.taskSpaceBeginVirtualAddr + UInt32.ofNat (USER_TASK_USER_STACK_OFFSET - 4 * a.numArgs))
          (t.taskSpaceBeginVirtualAddr + UInt32.ofNat USER_TASK_PROCESS_ENTRY_OFFSET)) (0 :: arguments a) := by
  have hn : a.numArgs ≤ 5 := ha
  have hmemory : t.pTask8MBRegion ≠ 0 := by
    intro hzero
    rw [hzero] at hR
    have hzero' : (0 : UInt32).toNat = 0 := rfl
    omega
  obtain ⟨mem, hval, hframe, hargs⟩ := setTaskArguments_spec m t a c.mem ha hmemory
  refine ⟨_, mem, ⟨t.taskSpaceBeginVirtualAddr + UInt32.ofNat 0x13FB0, t.taskSpaceBeginVirtualAddr + UInt32.ofNat USER_TASK_KERNEL_STACK_OFFSET,
    t.pTask8MBRegion⟩, hval, ?_, rfl, ?_⟩
  · unfold UserTaskObject.setToRunningState startTask
    dsimp only
    rw [hrunning, if_neg (by decide), if_neg hmemory, hunused, hm, translate_region hthis enabled hR hplaced, add_sub_cancel_left,
      add_comm (UInt32.ofNat 0x13FB0)]
  · have hseen {i o : Nat} (hi : i < 2048) (hindex : (r.first + i) % 1024 ≠ 1023) (ho : o + 4 ≤ 4096) :=
      view_word hthis enabled g other hR hfit hplaced hbase hb hi hindex ho mem
    rw [← hm] at hseen
    have hframe' : Holds (view m.kernel g other t.pTask8MBRegion t.taskSpaceBeginVirtualAddr mem)
        (t.taskSpaceBeginVirtualAddr + UInt32.ofNat 0x13FB0) _ := hframe.moved fun i hi => by
      rw [slot_offset, slot_offset]
      simp only [List.length_cons, userFrame_length] at hi
      have hword := hseen (i := 19) (o := 0xFB0 + 4 * i) (by decide) hkernelStack (by omega)
      rw [← Nat.add_assoc] at hword
      exact hword
    have hargs' : Holds (view m.kernel g other t.pTask8MBRegion t.taskSpaceBeginVirtualAddr mem)
        (t.taskSpaceBeginVirtualAddr + UInt32.ofNat (0x23FFC - 4 * a.numArgs)) _ := hargs.moved fun i hi => by
      rw [slot_offset, slot_offset]
      rw [List.length_cons, arguments_length] at hi
      have hword := hseen (i := 35) (o := 0xFFC - 4 * a.numArgs + 4 * i) (by decide) huserStack (by omega)
      rw [← Nat.add_assoc, ← Nat.add_sub_assoc (by omega)] at hword
      exact hword
    rw [← userFrame_loaded m _ _ _ (r := { kernelBegin m 0 0 with esp := t.taskSpaceBeginVirtualAddr + UInt32.ofNat 0x13FB0 + 4 }) rfl]
    refine begins_of_holds (userFrame_valid _ _ _ _) rfl hframe' (fun i hi => ?_) ⟨rfl, rfl, rfl⟩ hargs' fun i hi => ?_
    · rw [userFrame_length] at hi
      rw [slot_offset]
      exact Span.within_of_le (by omega) (by decide)
    · rw [List.length_cons, arguments_length] at hi
      show Span.Within ⟨slot (t.taskSpaceBeginVirtualAddr + UInt32.ofNat (0x23FFC - 4 * a.numArgs)) i, 4⟩ _
      rw [slot_offset]
      exact Span.within_of_le (by omega) (by decide)

end

/-- A task with pages 1025 to 3072 and one argument. -/
theorem user_task_begins_one : ∃ mem esp, Begins 0 esp ⟨0x2000000, 0x24000⟩
    (view sampleKernel (Garbage.const 0) (fun _ => PageTable.new) 0x401000 0x2000000 mem)
    (userBegin sampleMachine 0x414FFC 0x2023FF8 0x2024000) [0, 7] := by
  obtain ⟨t', mem, v, -, -, -, h⟩ := user_task_begins (by decide : Aligned 0x100000) (by decide : (0x80000001 : UInt32) &&& 0x80000000 ≠ 0)
    (Garbage.const 0) (fun _ => PageTable.new) (r := ⟨1025, 2048, by decide⟩) sampleMachine rfl ⟨⟨none, false⟩, 0x2000000, 0x401000, 0⟩
    (exhaustedCore true) (by decide) (by decide) (by decide) (by decide) (by decide) (by decide) (by decide) (by decide)
    ⟨fun i => 7 + UInt32.ofNat i, 1⟩ (by decide) rfl (0 : Fin (49 + 1)) ((List.finRange 49).map Fin.succ) List.finRange_succ
  exact ⟨mem, v.taskEsp, h⟩

end CpuScheduler.L9
