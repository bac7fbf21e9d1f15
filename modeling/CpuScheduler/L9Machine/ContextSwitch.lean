import CpuScheduler.L9Machine.InterruptReturn
import CpuScheduler.L5Concurrency.TaskContext

/-!
# A task switch, down to the registers

`yieldTaskSwitchIntHandler` (cpu_core_assembly.asm) is the handler of the
interrupt that `yield` raises. It moves to a stack of its own, hands
`yieldTaskSwitch` the address at which it has put the stack pointer, and takes
the one that it finds there afterwards. `TaskContext` follows the stack
pointers through a whole run; here they lead to the frames of the interrupts,
so that a task that is switched out goes on with its registers when it is
selected again (`task_resumes`).

`yieldTaskSwitch` runs under two page directories, the old one and the new
one. What it makes of memory is not followed: `Switches` says where it leaves
the stack pointer, and whether the frame of the resumed task is intact is said
about memory as that task sees it.
-/
namespace CpuScheduler.L9

open L3 L4 L5 WordStack CpuState

namespace Cpu

/-- Up to the call of `yieldTaskSwitch`. mirrors cpu_core_assembly.asm:10-18 -/
def beforeSwitch (c : Cpu) : Cpu :=
  let c := { c with eax := c.esp }
  let c := { c with esp := readWord c.mem (c.eax + 4) }
  let c := { c with esp := c.esp + 4 * 999 }
  let c := c.push c.eax
  let c := { c with edx := c.esp }
  let c := c.push c.edx
  c.push (readWord c.mem (c.eax + 4))

/-- From the return of `yieldTaskSwitch` on. mirrors cpu_core_assembly.asm:22-27 -/
def afterSwitch (c : Cpu) : Cpu :=
  let c := { c with esp := c.esp + 8 }
  let (eax, c) := c.pop
  let c := { c with eax := eax, esp := eax }
  let (eip, c) := c.pop
  { c with eip := eip }

/-- `call` is the call of `yieldTaskSwitch`. -/
def yieldTaskSwitchIntHandler (call : Cpu → Cpu) (c : Cpu) : Cpu := (call c.beforeSwitch).afterSwitch

end Cpu

/-- The call has popped its return address, and left `esp` at the address that
it was given: that of the word above its two parameters. -/
structure Switches (esp : UInt32) (c c' : Cpu) : Prop where
  stack : c'.esp = c.esp
  result : readWord c'.mem (slot c.esp 2) = esp
  cs : c'.cs = c.cs
  ss : c'.ss = c.ss
  fs : c'.fs = c.fs

section
variable {c c' : Cpu} {param esp : UInt32}

/-- What `yieldTaskSwitch` is given: the core, and the address of the word
that holds the stack pointer of the handler. -/
theorem beforeSwitch_passes (hparam : readWord c.mem (c.esp + 4) = param)
    (hapart : Span.Apart ⟨c.beforeSwitch.esp, 12⟩ ⟨c.esp + 4, 4⟩) :
    Holds c.beforeSwitch.mem c.beforeSwitch.esp [param, slot c.beforeSwitch.esp 2, c.esp] := by
  obtain ⟨d, hd, hcall⟩ : ∃ d : Cpu, Cpu.Stacked [c.esp, param + 4 * 999 - 4] (param + 4 * 999) c.mem d ∧
      c.beforeSwitch = d.push (readWord d.mem (c.esp + 4)) := by
    refine ⟨({ c with eax := c.esp, esp := param + 4 * 999, edx := param + 4 * 999 - 4 }.push c.esp).push (param + 4 * 999 - 4), ?_, ?_⟩
    · exact .push (.push (.start { c with esp := param + 4 * 999 } []) c.esp) (param + 4 * 999 - 4)
    · unfold Cpu.beforeSwitch
      dsimp only
      rw [hparam]
      rfl
  rw [hcall] at hapart ⊢
  have hkept : readWord d.mem (c.esp + 4) = param := by
    rw [hd.frame (by rw [List.length_cons, List.length_singleton]; omega) (hapart.mono ?_ fun _ h => h), hparam]
    have hnext : d.esp = slot (d.push (readWord d.mem (c.esp + 4))).esp 1 := (slot_sub _ 1).symm
    nth_rewrite 1 [hnext]
    exact within_slot (by rw [List.length_cons, List.length_singleton]) (by decide)
  rw [hkept]
  have hall : Cpu.Stacked [c.esp, param + 4 * 999 - 4, param] (param + 4 * 999) c.mem (d.push param) := hd.push param
  have hesp : slot (d.push param).esp 2 = param + 4 * 999 - 4 := by
    rw [hall.esp]
    generalize param + 4 * 999 = top
    show top - 12 + 8 = top - 4
    rw [sub_add]
    rfl
  rw [hesp]
  exact hall.holds (by simp only [List.length_cons, List.length_nil]; omega)

theorem afterSwitch_loads (h : Switches esp c c') :
    c'.afterSwitch.esp = esp + 4 ∧ c'.afterSwitch.eip = readWord c'.mem esp ∧ c'.afterSwitch.mem = c'.mem ∧
      c'.afterSwitch.cs = c'.cs ∧ c'.afterSwitch.ss = c'.ss ∧ c'.afterSwitch.fs = c'.fs := by
  have hread : readWord c'.mem (c'.esp + 8) = esp := by
    rw [h.stack]
    exact h.result
  unfold Cpu.afterSwitch Cpu.pop
  dsimp only
  rw [hread]
  exact ⟨rfl, rfl, rfl, rfl, rfl, rfl⟩

end

/-! ## The result -/

variable {T : Nat}

/-- The task `X` is interrupted in ring 3 or in the kernel, and its interrupt
reaches `yieldTaskSwitchIntHandler`, which switches it out. When the next
switch to `X` has come, and the frame is as it was, the return from the
interrupt that is then under way goes on with the registers of `X`, under its
page directory and with its kernel stack for the next interrupt. -/
theorem task_resumes [NeZero T] (M : Fin T) (s : CpuState T) (hs : (scheduler M).Reachable s) (X d : Fin T) (hX : s.currentTask = some X)
    (hnext : s.nextTask = some d) (ls : List (SchedulerCall T)) (t : CpuState T)
    (hr : ((scheduler M).Guarded fun u l => ¬ Starts X u l).Run s.yieldTaskSwitch ls t) (sel : List (Fin T))
    (hsel : t.selected = s.yieldTaskSwitch.selected ++ sel) (hnot : X ∉ sel) (hback : t.nextTask = some X)
    (k : KernelImage) (before : Nat → IdtGate) (ss0 : UInt16) (inp : UInt16 → UInt8) (c : Cpu) (hc : Interruptible c.toRegisters)
    (htable : Span.Apart ⟨(c.enter k before s.esp0 ss0 49 none).esp, 4 * frameSize c.toRegisters⟩ ⟨k.entry 49, 8⟩)
    (hswitch : Span.Apart ⟨(c.enter k before s.esp0 ss0 49 none).beforeSwitch.esp, 12⟩ ⟨(c.enter k before s.esp0 ss0 49 none).esp + 4, 4⟩)
    (hesp : s.esp = (c.enter k before s.esp0 ss0 49 none).esp) (c2 : Cpu) (hring : c2.ring = 0) (hfs : c2.fs = 6 * 8)
    (hss : c.ring = 0 → c2.ss = c.ss) (call : Cpu → Cpu) (hcall : Switches t.yieldTaskSwitch.esp c2.beforeSwitch (call c2.beforeSwitch))
    (hframe : ∀ i, i < frameSize c.toRegisters → readWord (call c2.beforeSwitch).mem (slot s.esp i) =
      readWord (c.enter k before s.esp0 ss0 49 none).mem (slot s.esp i)) :
    readWord (c.enter k before s.esp0 ss0 49 none).beforeSwitch.mem (slot (c.enter k before s.esp0 ss0 49 none).beforeSwitch.esp 2) = s.esp ∧
      (c2.yieldTaskSwitchIntHandler call).eip = k.interruptHandlerReturn ∧
      ((c2.yieldTaskSwitchIntHandler call).interruptHandlerReturn inp).toRegisters = restored c.toRegisters ∧
      t.yieldTaskSwitch.pageDirectory = s.pageDirectory ∧ t.yieldTaskSwitch.esp0 = (s.value X).kernelEspStackBegin := by
  have hinv := (inv_inductive M).reachable s hs
  have hout : s.yieldTaskSwitch = s.switchTo d := by rw [CpuState.yieldTaskSwitch, hnext]
  have hin : t.yieldTaskSwitch = t.switchTo X := by rw [CpuState.yieldTaskSwitch, hback]
  rw [hout] at hr hsel
  obtain ⟨hstack, hdirectory, hesp0⟩ := resumed hinv hX hnext hr hsel hnot hback
  rw [← hin] at hstack hdirectory hesp0
  have hgate : 49 ∈ installed.map Prod.fst := by decide
  have hnocode : (none : Option UInt32).isSome = expectsErrorCode 49 := rfl
  obtain ⟨esp, code, hholds, hentered, -, -, -, hss', -⟩ := enter_spec k before s.esp0 ss0 hgate hnocode c htable
  obtain ⟨hesp', heip, hmem, hcs', hssa, hfs'⟩ := afterSwitch_loads hcall
  have hlength : (k.interruptHandlerReturn :: readWord c.mem (k.entry (UInt32.ofNat 49)) :: c.eax ::
      (frameOf c.toRegisters esp code (UInt32.ofNat 49)).words).length = frameSize c.toRegisters := by
    simp only [List.length_cons, frameOf_length]
    unfold frameSize
    split <;> rfl
  have hpassed := beforeSwitch_passes rfl hswitch
  rw [← hesp] at hholds hentered hpassed
  have hthere : Holds (call c2.beforeSwitch).mem s.esp (k.interruptHandlerReturn :: readWord c.mem (k.entry (UInt32.ofNat 49)) :: c.eax ::
      (frameOf c.toRegisters esp code (UInt32.ofNat 49)).words) := hholds.frame fun i hi => hframe i (hlength ▸ hi)
  have hreturn : (c2.yieldTaskSwitchIntHandler call).eip = k.interruptHandlerReturn := by
    rw [Cpu.yieldTaskSwitchIntHandler, heip, hstack]
    exact hthere.1
  have hrest : Holds (c2.yieldTaskSwitchIntHandler call).mem (s.esp + 4) (readWord c.mem (k.entry (UInt32.ofNat 49)) :: c.eax ::
      (frameOf c.toRegisters esp code (UInt32.ofNat 49)).words) := by
    rw [Cpu.yieldTaskSwitchIntHandler, hmem]
    exact hthere.2
  have hkernel : (c2.yieldTaskSwitchIntHandler call).cs = c2.cs ∧ (c2.yieldTaskSwitchIntHandler call).ss = c2.ss ∧
      (c2.yieldTaskSwitchIntHandler call).fs = c2.fs :=
    ⟨hcs'.trans hcall.cs, hssa.trans hcall.ss, hfs'.trans hcall.fs⟩
  obtain ⟨hregs, -⟩ := frame_restores hc inp (by decide) hrest (hesp'.trans (by rw [hstack])) (by rw [Registers.ring, hkernel.1]; exact hring)
    (hkernel.2.2.trans hfs) fun hinner => ⟨by rw [hentered]; exact frameBase_inner s.esp0 hinner, hkernel.2.1.trans (hss hinner)⟩
  exact ⟨hpassed.read_slot (i := 2) (by simp only [List.length_cons, List.length_nil]; omega), hreturn, hregs, hdirectory, hesp0⟩

/-- The network task, with its kernel stack at 0x2013FFC, runs and has come to
the handler of its `yield`. -/
def yieldingState : CpuState 2 :=
  { (twoTasks ⟨1, 2, 3⟩ ⟨4, 0x2013FFC, 6⟩).switchTo ⟨1, Nat.one_lt_two⟩ with esp := yieldingEntry.esp, pageDirectory := 8 }

/-- It is switched out, the management task yields at once, and it goes on. -/
theorem task_resumes_twoTasks :
    ((yieldingEntry.yieldTaskSwitchIntHandler id).interruptHandlerReturn fun _ => 0).toRegisters = restored yieldingTask.toRegisters := by
  have hfirst : (scheduler 0).Reachable ((twoTasks ⟨1, 2, 3⟩ ⟨4, 0x2013FFC, 6⟩).switchTo 1) :=
    (twoTasks_reachable ⟨1, 2, 3⟩ ⟨4, 0x2013FFC, 6⟩).step .yieldTaskSwitch
  have hrun : (scheduler 0).Reachable yieldingState := hfirst.step (.execute yieldingEntry.esp 8)
  have hswitch : Span.Apart ⟨yieldingEntry.beforeSwitch.esp, 12⟩ ⟨yieldingEntry.esp + 4, 4⟩ := by
    have hstack : yieldingEntry.beforeSwitch.esp = yieldingEntry.beforeSwitch.esp + UInt32.ofNat 0 := by decide +kernel
    have hword : yieldingEntry.esp + 4 = yieldingEntry.beforeSwitch.esp + UInt32.ofNat 0x2013024 := by decide +kernel
    rw [hword]
    nth_rewrite 1 [hstack]
    exact Span.apart_of_le (by decide) (by decide)
  exact (task_resumes 0 yieldingState hrun 1 0 rfl rfl [] _ (.nil _) [] (List.append_nil _).symm (by simp) rfl sampleImage emptyIdt
    (2 * 8) (fun _ => 0) yieldingTask (by decide) yieldingEntry_apart hswitch rfl yieldingEntry (by decide +kernel) (by decide +kernel)
    (fun h => absurd h (by decide)) id ⟨rfl, by decide +kernel, rfl, rfl, rfl⟩ (by decide +kernel)).2.2.1

end CpuScheduler.L9
