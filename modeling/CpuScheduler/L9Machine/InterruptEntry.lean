import CpuScheduler.Core.WordStack
import CpuScheduler.L7Heap.FreeList

/-!
# Into the kernel and back

What the processor and the assembly of interrupt_handler_manager_assembly.asm
do between an interrupt and the return from it: the processor pushes its part
of the frame, on the stack that the TSS names if user code was interrupted;
the stub of the vector pushes the rest of it; `call_handler` pushes the
registers, loads the kernel's segments and calls the handler of the vector
through the segment of the handler table. At `interruptHandlerReturn` the
interrupt is acknowledged and everything is popped again.

An instruction is a function on `Cpu`. The arithmetic flags are not followed:
`iret` pops the flags. What the two interrupt controllers have in the register
that the code reads is a parameter (`inp`).
-/
namespace CpuScheduler.L9

open L3 L4 WordStack

instance : WordMemory Mem where
  read := readWord
  write := writeWord
  read_write_self := L7.readWord_writeWord
  read_write_apart mem a b v h := by
    refine readWord_congr fun x hx => ?_
    rw [writeWord, writeBytes, if_neg]
    exact fun hxa => h x hxa hx

structure Registers where
  eax : UInt32
  ecx : UInt32
  edx : UInt32
  ebx : UInt32
  esp : UInt32
  ebp : UInt32
  esi : UInt32
  edi : UInt32
  eip : UInt32
  eflags : UInt32
  cs : UInt16
  ss : UInt16
  ds : UInt16
  es : UInt16
  fs : UInt16
  gs : UInt16
  deriving DecidableEq, Repr

/-- A core: its registers, memory as it sees it, and the bytes that it has
sent to ports. -/
structure Cpu extends Registers where
  mem : Mem
  out : List (UInt16 × UInt8)

/-- Where the linker and the core have put things: the stubs, the return
address of the handlers and the table of handlers. -/
structure KernelImage where
  stub : Nat → UInt32
  interruptHandlerReturn : UInt32
  interruptHandlers : UInt32

/-- The entry of the handler table for vector `n`: the parameter, then the handler. -/
def KernelImage.entry (k : KernelImage) (n : UInt32) : UInt32 := k.interruptHandlers + n * 8

/-! ## The tables -/

structure IdtGate where
  low_offset : UInt16
  sel : UInt16
  always0 : UInt8
  flags : UInt8
  high_offset : UInt16
  deriving DecidableEq, Repr

def KERNEL_CS : UInt16 := 0x08

/-- mirrors interrupt_handler_manager.cpp:142-161 -/
def setIdtGate (idt : Nat → IdtGate) (n : Nat) (handler : UInt32) (allowUserPrivilege : Bool) : Nat → IdtGate :=
  Function.update idt n
    ⟨(handler &&& 0xFFFF).toUInt16, KERNEL_CS, 0, if allowUserPrivilege then 0xEE else 0x8E,
      ((handler >>> 16) &&& 0xFFFF).toUInt16⟩

/-- The calls of `setIdtGate` in the constructor, in their order.
mirrors interrupt_handler_manager.cpp:174-234 -/
def installed : List (Nat × Bool) :=
  (List.range 32).map (·, false) ++ (List.range' 32 24).map (·, true) ++ [(80, false)]

/-- `before` is what the memory of the table held. -/
def KernelImage.idt (k : KernelImage) (before : Nat → IdtGate) : Nat → IdtGate :=
  installed.foldl (fun idt g => setIdtGate idt g.1 (k.stub g.1) g.2) before

/-- The privilege of a segment, by the table of gdt_table.asm. -/
def dpl (sel : UInt16) : Nat := if (sel >>> 3).toNat = 3 ∨ (sel >>> 3).toNat = 4 then 3 else 0

def IsNull (sel : UInt16) : Prop := sel >>> 3 = 0

instance (sel : UInt16) : Decidable (IsNull sel) := inferInstanceAs (Decidable (_ = _))

/-- The ring of the code that runs. -/
def Registers.ring (r : Registers) : UInt16 := r.cs &&& 3

/-! ## Instructions -/

/-- A move to the low half of a register. -/
def setLow (r : UInt32) (h : UInt16) : UInt32 := (r &&& 0xFFFF0000) ||| h.toUInt32

/-- A move to the low byte of a register. -/
def setByte (r : UInt32) (b : UInt8) : UInt32 := (r &&& 0xFFFFFF00) ||| b.toUInt32

namespace Cpu

def push (c : Cpu) (w : UInt32) : Cpu := { c with esp := c.esp - 4, mem := writeWord c.mem (c.esp - 4) w }

def pop (c : Cpu) : UInt32 × Cpu := (readWord c.mem c.esp, { c with esp := c.esp + 4 })

def pushes (c : Cpu) (ws : List UInt32) : Cpu := ws.foldl push c

def pusha (c : Cpu) : Cpu := c.pushes [c.eax, c.ecx, c.edx, c.ebx, c.esp, c.ebp, c.esi, c.edi]

/-- The saved stack pointer is popped, but not loaded. -/
def popa (c : Cpu) : Cpu :=
  let (edi, c) := c.pop
  let (esi, c) := c.pop
  let (ebp, c) := c.pop
  let (_, c) := c.pop
  let (ebx, c) := c.pop
  let (edx, c) := c.pop
  let (ecx, c) := c.pop
  let (eax, c) := c.pop
  { c with eax := eax, ecx := ecx, edx := edx, ebx := ebx, ebp := ebp, esi := esi, edi := edi }

/-- Loading the selectors `ds`, `es` and `gs` from `bx`. -/
def loadData (c : Cpu) : Cpu := { c with ds := c.ebx.toUInt16, es := c.ebx.toUInt16, gs := c.ebx.toUInt16 }

/-- A data selector that the outer ring may not use is cleared. -/
def outerSelector (sel : UInt16) : UInt16 := if IsNull sel then sel else if dpl sel < 3 then 0 else sel

/-- The return from an interrupt handler: to the same ring, or out to the ring
of the selector on the stack, which has its stack below. -/
def iret (c : Cpu) : Cpu :=
  let (eip, c) := c.pop
  let (cs, c) := c.pop
  let (eflags, c) := c.pop
  let ring := c.ring
  let c := { c with eip := eip, cs := cs.toUInt16, eflags := eflags }
  if c.ring = ring then c
  else
    let (esp, c) := c.pop
    let (ss, c) := c.pop
    { c with
      esp := esp
      ss := ss.toUInt16
      ds := outerSelector c.ds
      es := outerSelector c.es
      fs := outerSelector c.fs
      gs := outerSelector c.gs }

/-! ## The way in -/

/-- An interrupt arrives through `gate`. `esp0` and `ss0` are the fields of
the TSS. The gate is an interrupt gate: it clears the flags IF, TF, NT, RF and VM. -/
def deliver (c : Cpu) (esp0 : UInt32) (ss0 : UInt16) (gate : IdtGate) (errorCode : Option UInt32) : Cpu :=
  let d := if c.ring = 0 then c else { c with esp := esp0, ss := ss0 }.pushes [c.ss.toUInt32, c.esp]
  let d := d.pushes [c.eflags, c.cs.toUInt32, c.eip]
  let d := d.pushes errorCode.toList
  { d with
    cs := gate.sel
    eip := gate.high_offset.toUInt32 <<< 16 ||| gate.low_offset.toUInt32
    eflags := c.eflags &&& ~~~0x34300 }

end Cpu

/-- The vectors whose stub takes the word on the stack for an error code. -/
def expectsErrorCode (n : Nat) : Bool := n = 8 ∨ 10 ≤ n ∧ n ≤ 14

/-- What the stub of vector `n` pushes.
mirrors interrupt_handler_manager_assembly.asm:137-504 -/
def stubWords (n : Nat) : List UInt32 :=
  if expectsErrorCode n then [UInt32.ofNat n]
  else if 33 ≤ n ∧ n ≤ 47 then [UInt32.ofNat (n - 32), UInt32.ofNat n]
  else [0, UInt32.ofNat n]

namespace Cpu

/-- mirrors interrupt_handler_manager_assembly.asm:4-14 -/
def saveRegisters (c : Cpu) : Cpu :=
  let c := c.pusha
  let c := { c with ebx := setLow c.ebx c.ds }
  let c := c.push c.ebx
  let c := { c with ebx := setLow c.ebx (2 * 8) }.loadData
  let c := { c with ebx := setLow c.ebx (6 * 8) }
  let c := { c with fs := c.ebx.toUInt16 }
  c.push c.eax

/-- The call of the handler: `fs` is the segment of the handler table.
mirrors interrupt_handler_manager_assembly.asm:16-22 -/
def callEntry (k : KernelImage) (c : Cpu) : Cpu :=
  let c := { c with eax := readWord c.mem (slot c.esp 10), ecx := 8 }
  let product := c.eax.toNat * c.ecx.toNat
  let c := { c with eax := UInt32.ofNat product, edx := UInt32.ofNat (product / 2 ^ 32) }
  let c := c.push (readWord c.mem (k.interruptHandlers + c.eax))
  let c := { c with eax := c.eax + 4 }
  let handler := readWord c.mem (k.interruptHandlers + c.eax)
  { c.push k.interruptHandlerReturn with eip := handler }

/-- Up to the first instruction of the handler. -/
def callHandler (k : KernelImage) (c : Cpu) : Cpu := c.saveRegisters.callEntry k

/-- From the interrupt with vector `n` to the handler. -/
def enter (k : KernelImage) (before : Nat → IdtGate) (esp0 : UInt32) (ss0 : UInt16) (n : Nat) (errorCode : Option UInt32) (c : Cpu) : Cpu :=
  ((c.deliver esp0 ss0 (k.idt before n) errorCode).pushes (stubWords n)).callHandler k

/-! ## The way out -/

/-- Acknowledges at the master controller.
mirrors interrupt_handler_manager_assembly.asm:59-62 -/
def acknowledgeMaster (c : Cpu) : Cpu :=
  { c with eax := setByte c.eax 0x20, edx := setLow c.edx 0x20, out := c.out ++ [(0x20, 0x20)] }

/-- mirrors interrupt_handler_manager_assembly.asm:50-62; IRQ 7 is looked up
in the register of the master controller. -/
def ge_32_and_l_40_jump (inp : UInt16 → UInt8) (c : Cpu) : Cpu :=
  if c.eax ≠ 39 then c.acknowledgeMaster
  else
    let c := { c with eax := setByte c.eax (inp 0x20) }
    if c.eax.toUInt8 &&& 0x80 = 0 then c else c.acknowledgeMaster

/-- mirrors interrupt_handler_manager_assembly.asm:45-48 -/
def ge_40_and_l_47_jump (inp : UInt16 → UInt8) (c : Cpu) : Cpu :=
  ge_32_and_l_40_jump inp
    { c with eax := setByte c.eax 0x20, edx := setLow c.edx 0xA0, out := c.out ++ [(0xA0, 0x20)] }

/-- The comparisons are signed.
mirrors interrupt_handler_manager_assembly.asm:26-62 -/
def acknowledge (inp : UInt16 → UInt8) (c : Cpu) : Cpu :=
  if c.eax.toInt32 < 32 then c
  else if c.eax.toInt32 ≥ 48 then c
  else if c.eax.toInt32 < 40 then c.ge_32_and_l_40_jump inp
  else if c.eax ≠ 47 then c.ge_40_and_l_47_jump inp
  else
    let c := { c with eax := setByte c.eax (inp 0xA0) }
    if c.eax.toUInt8 &&& 0x80 = 0 then c else c.ge_40_and_l_47_jump inp

/-- mirrors interrupt_handler_manager_assembly.asm:23-74 -/
def interruptHandlerReturn (inp : UInt16 → UInt8) (c : Cpu) : Cpu :=
  let c := { c with esp := c.esp + 4 }
  let c := { c with eax := readWord c.mem (slot c.esp 10) }
  let c := c.acknowledge inp
  let (eax, c) := c.pop
  let c := { c with eax := eax }
  let (ebx, c) := c.pop
  let c := { c with ebx := ebx }.loadData
  let c := c.popa
  let c := { c with esp := c.esp + 8 }
  c.iret

end Cpu

/-! ## Halves and bytes of registers -/

theorem toUInt16_setLow (r : UInt32) (h : UInt16) : (setLow r h).toUInt16 = h := by
  have hmask : (0xFFFF0000 : UInt32).toUInt16 = 0 := rfl
  unfold setLow
  rw [UInt32.toUInt16_or, UInt16.toUInt16_toUInt32, UInt32.toUInt16_and, hmask, UInt16.and_zero, UInt16.zero_or]

/-- The two halves of an address in a gate. -/
theorem gate_offset (a : UInt32) :
    ((a >>> 16) &&& 0xFFFF).toUInt16.toUInt32 <<< 16 ||| (a &&& 0xFFFF).toUInt16.toUInt32 = a := by
  have ha := a.toNat_lt
  have hmask (x : Nat) : x &&& 65535 = x % 2 ^ 16 := Nat.and_two_pow_sub_one_eq_mod x 16
  apply UInt32.toNat_inj.mp
  simp only [UInt32.toNat_or, UInt32.toNat_shiftLeft, UInt16.toNat_toUInt32, UInt32.toNat_toUInt16, UInt32.toNat_and,
    UInt32.toNat_shiftRight, UInt32.reduceToNat, hmask, Nat.mod_mod, Nat.reduceMod, Nat.shiftRight_eq_div_pow]
  rw [Nat.mod_eq_of_lt (by omega : a.toNat / 2 ^ 16 < 2 ^ 16), Nat.mod_eq_of_lt (by rw [Nat.shiftLeft_eq]; omega),
    ← Nat.shiftLeft_add_eq_or_of_lt (Nat.mod_lt _ (by decide)), Nat.shiftLeft_eq]
  omega

namespace Cpu

variable {c : Cpu}

/-! ## What is pushed on the way in -/

/-- The stack of `c` is what `ws` pushed from `p` in the memory `m`. -/
def Stacked (ws : List UInt32) (p : UInt32) (m : Mem) (c : Cpu) : Prop := (c.esp, c.mem) = WordStack.pushes ws p m

variable {ws us : List UInt32} {p w : UInt32} {m : Mem}

theorem Stacked.push (h : Stacked ws p m c) (w : UInt32) : Stacked (ws ++ [w]) p m (c.push w) := by
  unfold Stacked at h ⊢
  rw [pushes_append, ← h]
  rfl

theorem Stacked.pushes (h : Stacked ws p m c) (us : List UInt32) : Stacked (ws ++ us) p m (c.pushes us) := by
  induction us generalizing c ws with
  | nil => rwa [List.append_nil]
  | cons u us ih =>
    have hnext := ih (h.push u)
    rwa [List.append_assoc] at hnext

theorem Stacked.esp (h : Stacked ws p m c) : c.esp = p - UInt32.ofNat (4 * ws.length) :=
  (congrArg Prod.fst h).trans (pushes_fst ws p m)

theorem Stacked.holds (h : Stacked ws p m c) (hsize : 4 * ws.length ≤ 2 ^ 32) : Holds c.mem c.esp ws.reverse := by
  have hpushed : Holds (WordStack.pushes ws p m).2 (WordStack.pushes ws p m).1 (ws.reverse ++ []) :=
    holds_pushes trivial (by rwa [List.length_nil, Nat.add_zero])
  rw [List.append_nil, ← h] at hpushed
  exact hpushed

theorem pushes_toRegisters (c : Cpu) (us : List UInt32) :
    (c.pushes us).toRegisters = { c.toRegisters with esp := (c.pushes us).esp } := by
  induction us generalizing c with
  | nil => rfl
  | cons u us ih => exact ih (c.push u)

theorem pushes_cs (c : Cpu) (us : List UInt32) : (c.pushes us).cs = c.cs := by
  rw [pushes_toRegisters]

theorem pushes_ss (c : Cpu) (us : List UInt32) : (c.pushes us).ss = c.ss := by
  rw [pushes_toRegisters]

theorem pushes_out (c : Cpu) (us : List UInt32) : (c.pushes us).out = c.out := by
  induction us generalizing c with
  | nil => rfl
  | cons u us ih => exact ih (c.push u)

theorem Stacked.start (c : Cpu) (us : List UInt32) : Stacked us c.esp c.mem (c.pushes us) := by
  have h : Stacked [] c.esp c.mem c := rfl
  exact h.pushes us

/-- The word at a distance from the top. -/
theorem Stacked.word (h : Stacked (ws ++ [w] ++ us) p m c) (hsize : 4 * (ws.length + 1 + us.length) ≤ 2 ^ 32) :
    readWord c.mem (slot c.esp us.length) = w := by
  have hholds := h.holds (by simpa only [List.length_append, List.length_singleton] using hsize)
  rw [List.reverse_append, List.reverse_append, List.reverse_singleton] at hholds
  have hbelow := hholds.drop
  rw [List.length_reverse] at hbelow
  exact hbelow.1

/-- A word outside of the stack is what it was. -/
theorem Stacked.frame (h : Stacked ws p m c) (hsize : 4 * ws.length ≤ 2 ^ 32) {a : UInt32}
    (ha : Span.Apart ⟨c.esp, 4 * ws.length⟩ ⟨a, 4⟩) : readWord c.mem a = readWord m a := by
  have hesp : c.esp = (WordStack.pushes ws p m).1 := congrArg Prod.fst h
  have hmem : c.mem = (WordStack.pushes ws p m).2 := congrArg Prod.snd h
  rw [hesp] at ha
  rw [hmem]
  exact pushes_frame ha hsize

/-- The words that `call_handler` pushes before the parameter. -/
def savedWords (r : Registers) : List UInt32 :=
  [r.eax, r.ecx, r.edx, r.ebx, r.esp, r.ebp, r.esi, r.edi, setLow r.ebx r.ds, r.eax]

theorem saveRegisters_out (c : Cpu) : c.saveRegisters.out = c.out := by
  simp only [saveRegisters, loadData, pusha, pushes, List.foldl_cons, List.foldl_nil, push]

theorem saveRegisters_eq (c : Cpu) : ∃ ebx, c.saveRegisters =
    { c.pushes (savedWords c.toRegisters) with ebx := ebx, ds := 2 * 8, es := 2 * 8, gs := 2 * 8, fs := 6 * 8 } := by
  refine ⟨setLow (setLow (setLow c.ebx c.ds) (2 * 8)) (6 * 8), ?_⟩
  simp only [saveRegisters, loadData, pusha, pushes, List.foldl_cons, List.foldl_nil, push, savedWords, toUInt16_setLow]

theorem mul_eight (n : UInt32) : UInt32.ofNat (n.toNat * (8 : UInt32).toNat) = n * 8 := by
  rw [UInt32.ofNat_mul, UInt32.ofNat_toNat, UInt32.ofNat_toNat]

theorem callEntry_eq (k : KernelImage) (hw : readWord c.mem (slot c.esp 10) = w) : ∃ eax ecx edx, c.callEntry k =
    { (c.push (readWord c.mem (k.entry w))).push k.interruptHandlerReturn with
      eax := eax, ecx := ecx, edx := edx
      eip := readWord (c.push (readWord c.mem (k.entry w))).mem (k.entry w + 4) } := by
  unfold callEntry
  dsimp only
  rw [hw, mul_eight, ← add_assoc]
  exact ⟨_, _, _, rfl⟩

/-- The frame without what was there before, the parameter and the return
address are on the stack, and the handler is the one of the table. -/
theorem callHandler_spec (k : KernelImage) (h : Stacked (ws ++ [w]) p m c) (hsize : 4 * (ws.length + 13) ≤ 2 ^ 32)
    (htable : Span.Apart ⟨(c.callHandler k).esp, 4 * (ws.length + 13)⟩ ⟨k.entry w, 8⟩) :
    Stacked (ws ++ [w] ++ savedWords c.toRegisters ++ [readWord m (k.entry w), k.interruptHandlerReturn]) p m (c.callHandler k) ∧
      (c.callHandler k).eip = readWord m (k.entry w + 4) ∧ (c.callHandler k).fs = 6 * 8 ∧
      (c.callHandler k).cs = c.cs ∧ (c.callHandler k).ss = c.ss ∧ (c.callHandler k).out = c.out := by
  obtain ⟨ebx, hsave⟩ := saveRegisters_eq c
  have hsaved : Stacked (ws ++ [w] ++ savedWords c.toRegisters) p m c.saveRegisters := by
    rw [hsave]
    exact h.pushes (savedWords c.toRegisters)
  have hnumber : readWord c.saveRegisters.mem (slot c.saveRegisters.esp 10) = w :=
    hsaved.word (by simp only [savedWords, List.length_cons, List.length_nil]; omega)
  obtain ⟨eax, ecx, edx, hcall⟩ := callEntry_eq k hnumber
  have hesp : (c.callHandler k).esp = c.saveRegisters.esp - 4 - 4 := by
    rw [callHandler, hcall]
    rfl
  rw [hesp] at htable
  have hlength : (ws ++ [w] ++ savedWords c.toRegisters).length = ws.length + 11 := by
    simp only [savedWords, List.length_append, List.length_cons, List.length_nil]
  have htop : c.saveRegisters.esp = slot (c.saveRegisters.esp - 4 - 4) 2 := (slot_sub _ 2).symm.trans (by rw [sub_sub]; rfl)
  have hnext : c.saveRegisters.esp - 4 = slot (c.saveRegisters.esp - 4 - 4) 1 := (slot_sub _ 1).symm
  have hentry : k.entry w = slot (k.entry w) 0 := (slot_zero _).symm
  have hparam : readWord c.saveRegisters.mem (k.entry w) = readWord m (k.entry w) := by
    refine hsaved.frame (by omega) (htable.mono ?_ ?_)
    · rw [hlength]
      nth_rewrite 1 [htop]
      exact within_slot (by omega) hsize
    · nth_rewrite 1 [hentry]
      exact within_slot (by decide) (by decide)
  have hpushed := hsaved.push (readWord m (k.entry w))
  have hlength' : (ws ++ [w] ++ savedWords c.toRegisters ++ [readWord m (k.entry w)]).length = ws.length + 12 := by
    rw [List.length_append, hlength, List.length_singleton]
  have hhandler : readWord (c.saveRegisters.push (readWord m (k.entry w))).mem (k.entry w + 4) = readWord m (k.entry w + 4) := by
    refine hpushed.frame (by omega) (htable.mono ?_ ?_)
    · rw [hlength']
      show Span.Within ⟨c.saveRegisters.esp - 4, _⟩ _
      nth_rewrite 1 [hnext]
      exact within_slot (by omega) hsize
    · exact within_slot (i := 1) (by decide) (by decide)
  rw [hparam, hhandler] at hcall
  have hreturn := hpushed.push k.interruptHandlerReturn
  rw [List.append_assoc, List.singleton_append] at hreturn
  rw [callHandler, hcall]
  have hfs : c.saveRegisters.fs = 6 * 8 := by rw [hsave]
  have hcs : c.saveRegisters.cs = c.cs := by
    rw [hsave]
    exact pushes_cs c (savedWords c.toRegisters)
  have hss : c.saveRegisters.ss = c.ss := by
    rw [hsave]
    exact pushes_ss c (savedWords c.toRegisters)
  exact ⟨hreturn, rfl, hfs, hcs, hss, c.saveRegisters_out⟩

/-! ## The processor's part -/

/-- Where the frame begins. -/
def frameBase (r : Registers) (esp0 : UInt32) : UInt32 := if r.ring = 0 then r.esp else esp0

/-- What the processor pushes, the error code apart. -/
def iretWords (r : Registers) : List UInt32 :=
  (if r.ring = 0 then [] else [r.ss.toUInt32, r.esp]) ++ [r.eflags, r.cs.toUInt32, r.eip]

theorem deliver_spec (c : Cpu) (esp0 : UInt32) (ss0 : UInt16) (gate : IdtGate) (errorCode : Option UInt32) :
    Stacked (iretWords c.toRegisters ++ errorCode.toList) (frameBase c.toRegisters esp0) c.mem (c.deliver esp0 ss0 gate errorCode) ∧
      (c.deliver esp0 ss0 gate errorCode).toRegisters =
        { c.toRegisters with
          esp := (c.deliver esp0 ss0 gate errorCode).esp
          ss := if c.ring = 0 then c.ss else ss0
          cs := gate.sel
          eip := gate.high_offset.toUInt32 <<< 16 ||| gate.low_offset.toUInt32
          eflags := c.eflags &&& ~~~0x34300 } ∧
      (c.deliver esp0 ss0 gate errorCode).out = c.out := by
  have hstack : Stacked (iretWords c.toRegisters ++ errorCode.toList) (frameBase c.toRegisters esp0) c.mem
      (((if c.ring = 0 then c else { c with esp := esp0, ss := ss0 }.pushes [c.ss.toUInt32, c.esp]).pushes
        [c.eflags, c.cs.toUInt32, c.eip]).pushes errorCode.toList) := by
    refine Stacked.pushes ?_ _
    by_cases hring : c.ring = 0
    · rw [iretWords, frameBase, if_pos hring, if_pos hring, if_pos hring, List.nil_append]
      exact .start c _
    · rw [iretWords, frameBase, if_neg hring, if_neg hring, if_neg hring]
      refine Stacked.pushes ?_ _
      exact .start { c with esp := esp0, ss := ss0 } _
  refine ⟨hstack, ?_, ?_⟩
  · unfold deliver
    dsimp only
    rw [pushes_toRegisters, pushes_toRegisters]
    split
    · rfl
    · rw [pushes_toRegisters]
  · unfold deliver
    dsimp only
    rw [pushes_out, pushes_out]
    split
    · rfl
    · exact pushes_out { c with esp := esp0, ss := ss0 } [c.ss.toUInt32, c.esp]

/-! ## The gate of a vector -/

def gateTo (handler : UInt32) (allowUserPrivilege : Bool) : IdtGate := setIdtGate (fun _ => ⟨0, 0, 0, 0, 0⟩) 0 handler allowUserPrivilege 0

theorem setIdtGate_self (idt : Nat → IdtGate) (n : Nat) (handler : UInt32) (u : Bool) :
    setIdtGate idt n handler u n = gateTo handler u := by
  unfold gateTo setIdtGate
  rw [Function.update_self, Function.update_self]

theorem setIdtGate_of_ne (idt : Nat → IdtGate) {n i : Nat} (handler : UInt32) (u : Bool) (h : i ≠ n) :
    setIdtGate idt n handler u i = idt i := by
  unfold setIdtGate
  rw [Function.update_of_ne h]

/-- Calls that agree on the privilege of `n` leave the gate that they have set. -/
theorem foldl_setIdtGate (k : KernelImage) (l : List (Nat × Bool)) (idt : Nat → IdtGate) {n : Nat} {u : Bool}
    (hall : ∀ e ∈ l, e.1 = n → e.2 = u) (h : idt n = gateTo (k.stub n) u ∨ ∃ e ∈ l, e.1 = n) :
    l.foldl (fun idt e => setIdtGate idt e.1 (k.stub e.1) e.2) idt n = gateTo (k.stub n) u := by
  induction l generalizing idt with
  | nil =>
    rcases h with h | ⟨e, he, -⟩
    · exact h
    · cases he
  | cons e l ih =>
    rw [List.foldl_cons]
    refine ih _ (fun d hd => hall d (List.mem_cons_of_mem e hd)) ?_
    by_cases hen : e.1 = n
    · left
      rw [hen, setIdtGate_self, hall e List.mem_cons_self hen]
    · rcases h with h | ⟨d, hd, hdn⟩
      · left
        rw [setIdtGate_of_ne idt _ _ (Ne.symm hen), h]
      · rcases List.mem_cons.mp hd with rfl | hd
        · exact absurd hdn hen
        · exact .inr ⟨d, hd, hdn⟩

/-- User code may raise the vectors 32 to 55. -/
theorem installed_user : ∀ e ∈ installed, e.2 = decide (32 ≤ e.1 ∧ e.1 < 56) := by decide

theorem idt_installed (k : KernelImage) (before : Nat → IdtGate) {n : Nat} (hn : n ∈ installed.map Prod.fst) :
    k.idt before n = gateTo (k.stub n) (decide (32 ≤ n ∧ n < 56)) := by
  obtain ⟨e, he, hen⟩ := List.mem_map.mp hn
  refine foldl_setIdtGate k installed before (fun d hd hdn => ?_) (.inr ⟨e, he, hen⟩)
  rw [installed_user d hd, hdn]

theorem gateTo_offset (handler : UInt32) (u : Bool) :
    (gateTo handler u).high_offset.toUInt32 <<< 16 ||| (gateTo handler u).low_offset.toUInt32 = handler :=
  gate_offset handler

theorem gateTo_sel (handler : UInt32) (u : Bool) : (gateTo handler u).sel = KERNEL_CS := rfl

end Cpu

end CpuScheduler.L9
