import CpuScheduler.L9Machine.InterruptEntry

/-!
# An interrupt leaves no trace

Whatever a handler does, as long as it returns in the way of C and leaves the
words of the frame alone, the interrupted code goes on with the registers that
it had: a frame is read back by `interruptHandlerReturn_loads`, and
`enter_spec` says which frame an interrupt makes. The selectors `es` and `gs`
are not saved; they come back as `ds`, and `fs` as the segment of the handler
table or, in user code, cleared by the processor.

The processor pushes an error code for some exceptions. A stub that does not
expect it takes it for the return address, so `interrupt_transparent` asks
that the two agree.
-/
namespace CpuScheduler.L9

open L3 L4 WordStack

/-! ## The frame -/

/-- What lies on the stack above the return address and the parameters of the
handler, the top first. -/
structure Frame where
  ds : UInt32
  edi : UInt32
  esi : UInt32
  ebp : UInt32
  esp : UInt32
  ebx : UInt32
  edx : UInt32
  ecx : UInt32
  eax : UInt32
  number : UInt32
  errorCode : UInt32
  eip : UInt32
  cs : UInt32
  eflags : UInt32
  /-- `esp` and `ss`, if another ring was interrupted -/
  outer : Option (UInt32 × UInt32)

namespace Frame

def words (f : Frame) : List UInt32 :=
  [f.ds, f.edi, f.esi, f.ebp, f.esp, f.ebx, f.edx, f.ecx, f.eax, f.number, f.errorCode, f.eip, f.cs, f.eflags] ++
    match f.outer with
    | none => []
    | some (esp, ss) => [esp, ss]

/-- The frame says whether it leads to another ring. -/
def Valid (f : Frame) : Prop := f.outer = none ↔ f.cs.toUInt16 &&& 3 = 0

/-- What the return loads; `r` are the registers before it. -/
def loaded (f : Frame) (r : Registers) : Registers :=
  let same : Registers :=
    { eax := f.eax, ecx := f.ecx, edx := f.edx, ebx := f.ebx, esp := r.esp + 64, ebp := f.ebp, esi := f.esi, edi := f.edi
      eip := f.eip, eflags := f.eflags, cs := f.cs.toUInt16, ss := r.ss
      ds := f.ds.toUInt16, es := f.ds.toUInt16, fs := r.fs, gs := f.ds.toUInt16 }
  match f.outer with
  | none => same
  | some (esp, ss) =>
    { same with
      esp := esp
      ss := ss.toUInt16
      ds := Cpu.outerSelector same.ds
      es := Cpu.outerSelector same.es
      fs := Cpu.outerSelector same.fs
      gs := Cpu.outerSelector same.gs }

end Frame

namespace Cpu

variable {inp : UInt16 → UInt8} {c : Cpu}

/-- Acknowledging uses two registers. -/
def SameButScratch (c d : Cpu) : Prop := ∃ eax edx out, d = { c with eax := eax, edx := edx, out := out }

theorem SameButScratch.trans {b c d : Cpu} (h1 : SameButScratch b c) (h2 : SameButScratch c d) : SameButScratch b d := by
  obtain ⟨_, _, _, rfl⟩ := h1
  obtain ⟨eax, edx, out, rfl⟩ := h2
  exact ⟨eax, edx, out, rfl⟩

theorem ge_32_and_l_40_jump_same (inp : UInt16 → UInt8) (c : Cpu) : SameButScratch c (c.ge_32_and_l_40_jump inp) := by
  unfold ge_32_and_l_40_jump acknowledgeMaster
  split
  · exact ⟨_, _, _, rfl⟩
  · dsimp only
    split <;> exact ⟨_, _, _, rfl⟩

theorem ge_40_and_l_47_jump_same (inp : UInt16 → UInt8) (c : Cpu) : SameButScratch c (c.ge_40_and_l_47_jump inp) :=
  .trans ⟨_, _, _, rfl⟩ (ge_32_and_l_40_jump_same inp _)

theorem acknowledge_same (inp : UInt16 → UInt8) (c : Cpu) : SameButScratch c (c.acknowledge inp) := by
  unfold acknowledge
  split
  · exact ⟨_, _, _, rfl⟩
  split
  · exact ⟨_, _, _, rfl⟩
  split
  · exact ge_32_and_l_40_jump_same inp c
  split
  · exact ge_40_and_l_47_jump_same inp c
  · dsimp only
    split
    · exact ⟨_, _, _, rfl⟩
    · exact .trans ⟨_, _, _, rfl⟩ (ge_40_and_l_47_jump_same inp _)

/-- `add esp, 8` -/
theorem add_eight (p : UInt32) : p + 8 = p + 4 + 4 := by
  rw [add_assoc]
  rfl

/-- The words of a frame and the two parameters. -/
theorem add_frame (p : UInt32) : p + 4 + 4 + 4 + 4 + 4 + 4 + 4 + 4 + 4 + 4 + 4 + 4 + 4 + 4 + 4 + 4 = p + 64 := by
  simp only [add_assoc]
  rfl

/-- Everything that the return loads comes from the frame, or stays. -/
theorem interruptHandlerReturn_loads {f : Frame} {param arg : UInt32} (hring : c.ring = 0) (hf : f.Valid)
    (h : Holds c.mem c.esp (param :: arg :: f.words)) :
    (c.interruptHandlerReturn inp).toRegisters = f.loaded c.toRegisters := by
  obtain ⟨eax, edx, out, hack⟩ := acknowledge_same inp { c with esp := c.esp + 4, eax := readWord c.mem (slot (c.esp + 4) 10) }
  have hread : (WordMemory.read : Mem → UInt32 → UInt32) = readWord := rfl
  simp only [Frame.words, List.cons_append, List.nil_append, WordStack.Holds, hread] at h
  obtain ⟨-, -, hds, hedi, hesi, hebp, -, hebx, hedx, hecx, heax, -, -, heip, hcs, heflags, houter⟩ := h
  unfold interruptHandlerReturn
  dsimp only
  rw [hack]
  simp only [pop, popa, loadData, iret, add_eight, hds, hedi, hesi, hebp, hebx, hedx, hecx, heax, heip, hcs, heflags]
  have hhere : c.toRegisters.ring = 0 := hring
  cases ho : f.outer with
  | none =>
    have hsame : f.cs.toUInt16 &&& 3 = 0 := hf.mp ho
    rw [if_pos]
    · simp only [Frame.loaded, ho, add_frame]
    · show f.cs.toUInt16 &&& 3 = c.cs &&& 3
      rw [hsame]
      exact hhere.symm
  | some o =>
    have hother : f.cs.toUInt16 &&& 3 ≠ 0 := fun h0 => by
      have := hf.mpr h0
      rw [ho] at this
      cases this
    rw [ho] at houter
    obtain ⟨hesp, hss, -⟩ := houter
    rw [if_neg]
    · simp only [Frame.loaded, ho]
      rw [← hesp, ← hss]
      rfl
    · show ¬ f.cs.toUInt16 &&& 3 = c.cs &&& 3
      rw [show c.cs &&& 3 = 0 from hhere]
      exact hother

/-! ## The end of an interrupt -/

/-- What the kernel tells the interrupt controllers after vector `n`: nothing
for an interrupt that was not theirs or that their register does not show. -/
def endOfInterrupt (inp : UInt16 → UInt8) (n : Nat) : List (UInt16 × UInt8) :=
  if n < 32 ∨ 48 ≤ n then []
  else if n = 39 ∧ inp 0x20 &&& 0x80 = 0 ∨ n = 47 ∧ inp 0xA0 &&& 0x80 = 0 then []
  else if n < 40 then [(0x20, 0x20)]
  else [(0xA0, 0x20), (0x20, 0x20)]

theorem toUInt8_setByte (r : UInt32) (b : UInt8) : (setByte r b).toUInt8 = b := by
  have hmask : (0xFFFFFF00 : UInt32).toUInt8 = 0 := rfl
  unfold setByte
  rw [UInt32.toUInt8_or, UInt8.toUInt8_toUInt32, UInt32.toUInt8_and, hmask, UInt8.and_zero, UInt8.zero_or]

theorem setByte_ne (r : UInt32) : setByte r 0x20 ≠ 39 := by
  intro h
  have hbyte := congrArg UInt32.toUInt8 h
  rw [toUInt8_setByte] at hbyte
  exact absurd hbyte (by decide)

theorem ge_40_and_l_47_jump_out (inp : UInt16 → UInt8) (c : Cpu) :
    (c.ge_40_and_l_47_jump inp).out = c.out ++ [(0xA0, 0x20), (0x20, 0x20)] := by
  unfold ge_40_and_l_47_jump ge_32_and_l_40_jump
  rw [if_pos (setByte_ne _)]
  simp only [acknowledgeMaster, List.append_assoc, List.cons_append, List.nil_append]

theorem toInt32_lt {n m : Nat} (hn : n < 256) (hm : m < 256) : (UInt32.ofNat n).toInt32 < Int32.ofNat m ↔ n < m := by
  have hword (k : Nat) (hk : k < 256) : (Int32.ofNat k).toInt = k := Int32.toInt_ofNat_of_lt (by omega)
  have hsame : (UInt32.ofNat n).toInt32 = Int32.ofNat n := rfl
  rw [hsame, Int32.lt_iff_toInt_lt, hword n hn, hword m hm]
  omega

theorem ofNat_eq_iff {n m : Nat} (hn : n < 256) (hm : m < 256) : UInt32.ofNat n = UInt32.ofNat m ↔ n = m := by
  rw [← UInt32.toNat_inj, UInt32.toNat_ofNat', UInt32.toNat_ofNat']
  omega

theorem acknowledge_out (inp : UInt16 → UInt8) {n : Nat} (hn : n < 256) (h : c.eax = UInt32.ofNat n) :
    (c.acknowledge inp).out = c.out ++ endOfInterrupt inp n := by
  have hlt (m : Nat) (hm : m < 256) : c.eax.toInt32 < Int32.ofNat m ↔ n < m := by rw [h, toInt32_lt hn hm]
  have heq (m : Nat) (hm : m < 256) : c.eax = UInt32.ofNat m ↔ n = m := by rw [h, ofNat_eq_iff hn hm]
  have h32 : c.eax.toInt32 < 32 ↔ n < 32 := hlt 32 (by decide)
  have h48 : c.eax.toInt32 ≥ 48 ↔ 48 ≤ n := by
    rw [ge_iff_le, ← Int32.not_lt, ← not_lt]
    exact not_congr (hlt 48 (by decide))
  have h40 : c.eax.toInt32 < 40 ↔ n < 40 := hlt 40 (by decide)
  have h47 : c.eax = 47 ↔ n = 47 := heq 47 (by decide)
  have h39 : c.eax = 39 ↔ n = 39 := heq 39 (by decide)
  unfold acknowledge endOfInterrupt
  dsimp only
  rw [toUInt8_setByte]
  by_cases hlow : n < 32
  · rw [if_pos (h32.mpr hlow), if_pos (.inl hlow), List.append_nil]
  by_cases hhigh : 48 ≤ n
  · rw [if_neg (h32.not.mpr hlow), if_pos (h48.mpr hhigh), if_pos (.inr hhigh), List.append_nil]
  rw [if_neg (h32.not.mpr hlow), if_neg (h48.not.mpr hhigh), if_neg (not_or.mpr ⟨hlow, hhigh⟩)]
  by_cases hmaster : n < 40
  · rw [if_pos (h40.mpr hmaster), if_pos hmaster]
    unfold ge_32_and_l_40_jump
    dsimp only
    rw [toUInt8_setByte]
    by_cases hseven : n = 39
    · rw [if_neg (not_not.mpr (h39.mpr hseven))]
      by_cases hbit : inp 0x20 &&& 0x80 = 0
      · rw [if_pos hbit, if_pos (.inl ⟨hseven, hbit⟩), List.append_nil]
      · rw [if_neg hbit, if_neg (by simp [hbit, hseven])]
        rfl
    · rw [if_pos (h39.not.mpr hseven), if_neg (by omega)]
      rfl
  · rw [if_neg (h40.not.mpr hmaster), if_neg hmaster]
    by_cases hlast : n = 47
    · rw [if_neg (not_not.mpr (h47.mpr hlast))]
      by_cases hbit : inp 0xA0 &&& 0x80 = 0
      · rw [if_pos hbit, if_pos (.inr ⟨hlast, hbit⟩), List.append_nil]
      · rw [if_neg hbit, if_neg (by simp [hbit, hlast]), ge_40_and_l_47_jump_out]
    · rw [if_pos (h47.not.mpr hlast), if_neg (by omega), ge_40_and_l_47_jump_out]

theorem iret_mem (c : Cpu) : c.iret.mem = c.mem := by
  unfold iret
  dsimp only
  split <;> rfl

/-- The way out writes nothing. -/
theorem interruptHandlerReturn_mem (inp : UInt16 → UInt8) (c : Cpu) : (c.interruptHandlerReturn inp).mem = c.mem := by
  obtain ⟨eax, edx, out, hack⟩ := acknowledge_same inp { c with esp := c.esp + 4, eax := readWord c.mem (slot (c.esp + 4) 10) }
  unfold interruptHandlerReturn
  dsimp only
  rw [iret_mem, hack]
  rfl

theorem iret_out (c : Cpu) : c.iret.out = c.out := by
  unfold iret
  dsimp only
  split <;> rfl

theorem interruptHandlerReturn_out {f : Frame} {param arg : UInt32} {n : Nat} (hn : n < 256) (hnumber : f.number = UInt32.ofNat n)
    (h : Holds c.mem c.esp (param :: arg :: f.words)) :
    (c.interruptHandlerReturn inp).out = c.out ++ endOfInterrupt inp n := by
  have hword : readWord c.mem (slot (c.esp + 4) 10) = UInt32.ofNat n := by
    rw [slot_succ, ← hnumber]
    exact h.read_slot (i := 11) (by simp only [Frame.words, List.length_cons, List.length_append]; omega)
  unfold interruptHandlerReturn
  dsimp only
  rw [iret_out]
  exact acknowledge_out inp hn hword

end Cpu

/-! ## The frame of an interrupt -/

/-- The frame that an interrupt with vector `number` makes of the registers. -/
def frameOf (r : Registers) (esp code number : UInt32) : Frame where
  ds := setLow r.ebx r.ds
  edi := r.edi
  esi := r.esi
  ebp := r.ebp
  esp := esp
  ebx := r.ebx
  edx := r.edx
  ecx := r.ecx
  eax := r.eax
  number := number
  errorCode := code
  eip := r.eip
  cs := r.cs.toUInt32
  eflags := r.eflags
  outer := if r.ring = 0 then none else some (r.esp, r.ss.toUInt32)

/-- What can be interrupted: the code of the kernel and of the tasks, with a
data selector that it may use. -/
def Interruptible (r : Registers) : Prop := r.cs = KERNEL_CS ∨ r.cs = 3 * 8 ||| 3 ∧ (IsNull r.ds ∨ dpl r.ds = 3)

instance (r : Registers) : Decidable (Interruptible r) := inferInstanceAs (Decidable (_ ∨ _))

theorem frameOf_valid (r : Registers) (esp code number : UInt32) : (frameOf r esp code number).Valid := by
  unfold Frame.Valid frameOf
  dsimp only
  rw [UInt16.toUInt16_toUInt32]
  show (if r.cs &&& 3 = 0 then none else _) = none ↔ _
  by_cases h : r.cs &&& 3 = 0
  · simp only [h, if_true]
  · simp only [h, if_false, reduceCtorEq]

/-- The registers after the interrupt. -/
def restored (r : Registers) : Registers :=
  { r with es := r.ds, gs := r.ds, fs := if r.ring = 0 then 6 * 8 else 0 }

theorem outerSelector_data {sel : UInt16} (h : IsNull sel ∨ dpl sel = 3) : Cpu.outerSelector sel = sel := by
  unfold Cpu.outerSelector
  split
  · rfl
  · rename_i hnull
    rw [if_neg]
    rw [h.resolve_left hnull]
    decide

/-- The frame of an interrupt loads the registers of the interrupted code;
`r'` are the registers of the kernel before the return. -/
theorem frameOf_loaded {r r' : Registers} (hr : Interruptible r) (esp code number : UInt32) (hfs : r'.fs = 6 * 8)
    (hinner : r.ring = 0 → r'.esp + 64 = r.esp ∧ r'.ss = r.ss) : (frameOf r esp code number).loaded r' = restored r := by
  have hds : (setLow r.ebx r.ds).toUInt16 = r.ds := toUInt16_setLow _ _
  unfold Frame.loaded frameOf restored
  dsimp only
  by_cases hring : r.ring = 0
  · obtain ⟨hesp, hss⟩ := hinner hring
    simp only [if_pos hring, hds, hfs, hesp, hss, UInt16.toUInt16_toUInt32]
  · have hdata : IsNull r.ds ∨ dpl r.ds = 3 := by
      rcases hr with hkernel | ⟨-, hdata⟩
      · exact absurd (by rw [Registers.ring, hkernel]; decide) hring
      · exact hdata
    have hcleared : Cpu.outerSelector (6 * 8) = 0 := by decide
    simp only [if_neg hring, hds, hfs, UInt16.toUInt16_toUInt32, outerSelector_data hdata, hcleared]

/-- The stub and the processor have put one word below the number, each time. -/
theorem stub_words {n : Nat} {errorCode : Option UInt32} (hcode : errorCode.isSome = expectsErrorCode n) :
    ∃ code, errorCode.toList ++ stubWords n = [code, UInt32.ofNat n] := by
  unfold stubWords
  cases errorCode with
  | none =>
    rw [← hcode, if_neg (by decide)]
    split
    · exact ⟨_, rfl⟩
    · exact ⟨_, rfl⟩
  | some code =>
    rw [← hcode, Option.isSome_some, if_pos rfl]
    exact ⟨code, rfl⟩

/-- The words of the frame, with the return address and the two parameters. -/
def frameSize (r : Registers) : Nat := if r.ring = 0 then 17 else 19

/-- All that an interrupt pushes. -/
def pushed (r : Registers) (esp code number param ret : UInt32) : List UInt32 :=
  Cpu.iretWords r ++ [code] ++ [number] ++
    [r.eax, r.ecx, r.edx, r.ebx, esp, r.ebp, r.esi, r.edi, setLow r.ebx r.ds, r.eax] ++ [param, ret]

theorem pushed_length (r : Registers) (esp code number param ret : UInt32) :
    (pushed r esp code number param ret).length = frameSize r := by
  unfold pushed Cpu.iretWords frameSize
  split <;> rfl

theorem pushed_reverse (r : Registers) (esp code number param ret : UInt32) :
    (pushed r esp code number param ret).reverse = ret :: param :: r.eax :: (frameOf r esp code number).words := by
  unfold pushed Cpu.iretWords Frame.words frameOf
  dsimp only
  split <;> rfl

theorem frameSize_le (r : Registers) : 4 * frameSize r ≤ 2 ^ 32 := by
  unfold frameSize
  split <;> decide

/-- What the handler finds: it is the one of the table, in ring 0, and the
frame lies behind the return address, the parameter of the table and `eax`. -/
theorem enter_spec (k : KernelImage) (before : Nat → IdtGate) (esp0 : UInt32) (ss0 : UInt16) {n : Nat}
    (hn : n ∈ installed.map Prod.fst) {errorCode : Option UInt32} (hcode : errorCode.isSome = expectsErrorCode n) (c : Cpu)
    (htable : Span.Apart ⟨(c.enter k before esp0 ss0 n errorCode).esp, 4 * frameSize c.toRegisters⟩ ⟨k.entry (UInt32.ofNat n), 8⟩) :
    ∃ esp code, Holds (c.enter k before esp0 ss0 n errorCode).mem (c.enter k before esp0 ss0 n errorCode).esp
        (k.interruptHandlerReturn :: readWord c.mem (k.entry (UInt32.ofNat n)) :: c.eax ::
          (frameOf c.toRegisters esp code (UInt32.ofNat n)).words) ∧
      (c.enter k before esp0 ss0 n errorCode).esp = Cpu.frameBase c.toRegisters esp0 - UInt32.ofNat (4 * frameSize c.toRegisters) ∧
      (c.enter k before esp0 ss0 n errorCode).eip = readWord c.mem (k.entry (UInt32.ofNat n) + 4) ∧
      (c.enter k before esp0 ss0 n errorCode).fs = 6 * 8 ∧ (c.enter k before esp0 ss0 n errorCode).ring = 0 ∧
      (c.enter k before esp0 ss0 n errorCode).ss = (if c.ring = 0 then c.ss else ss0) ∧
      (c.enter k before esp0 ss0 n errorCode).out = c.out := by
  obtain ⟨code, hwords⟩ := stub_words hcode
  obtain ⟨hstacked, hregs, hout⟩ := Cpu.deliver_spec c esp0 ss0 (k.idt before n) errorCode
  have hpushed := hstacked.pushes (stubWords n)
  rw [List.append_assoc, hwords, List.append_cons] at hpushed
  have hlength : (Cpu.iretWords c.toRegisters ++ [code]).length + 13 = frameSize c.toRegisters := by
    unfold Cpu.iretWords frameSize
    split <;> rfl
  have hsaved : Cpu.savedWords ((c.deliver esp0 ss0 (k.idt before n) errorCode).pushes (stubWords n)).toRegisters =
      [c.eax, c.ecx, c.edx, c.ebx, ((c.deliver esp0 ss0 (k.idt before n) errorCode).pushes (stubWords n)).esp, c.ebp, c.esi, c.edi,
        setLow c.ebx c.ds, c.eax] := by
    rw [Cpu.pushes_toRegisters, hregs]
    rfl
  obtain ⟨hall, heip, hfs, hcs, hss, hout'⟩ := Cpu.callHandler_spec k hpushed (by rw [hlength]; exact frameSize_le _)
    (by rw [hlength]; exact htable)
  rw [hsaved] at hall
  have hframe : Cpu.Stacked (pushed c.toRegisters ((c.deliver esp0 ss0 (k.idt before n) errorCode).pushes (stubWords n)).esp code
      (UInt32.ofNat n) (readWord c.mem (k.entry (UInt32.ofNat n))) k.interruptHandlerReturn)
      (Cpu.frameBase c.toRegisters esp0) c.mem (c.enter k before esp0 ss0 n errorCode) := hall
  have hholds := hframe.holds (by rw [pushed_length]; exact frameSize_le _)
  have hesp := hframe.esp
  rw [pushed_reverse] at hholds
  rw [pushed_length] at hesp
  have hgate : (k.idt before n).sel = KERNEL_CS := by
    rw [Cpu.idt_installed k before hn, Cpu.gateTo_sel]
  refine ⟨_, code, hholds, hesp, heip, hfs, ?_, ?_, ?_⟩
  · show (c.enter k before esp0 ss0 n errorCode).cs &&& 3 = 0
    rw [Cpu.enter, hcs, Cpu.pushes_cs, hregs]
    dsimp only
    rw [hgate]
    decide
  · rw [Cpu.enter, hss, Cpu.pushes_ss, hregs]
  · rw [Cpu.enter, hout', Cpu.pushes_out, hout]

/-! ## The result -/

/-- A handler that returns in the way of C: it has popped the return address,
kept the segments of the kernel, and left the words above its two parameters
alone. -/
structure HandlerReturns (words : Nat) (c c' : Cpu) : Prop where
  esp : c'.esp = c.esp + 4
  cs : c'.cs = c.cs
  ss : c'.ss = c.ss
  fs : c'.fs = c.fs
  frame : ∀ i, i < words → readWord c'.mem (slot c.esp (i + 3)) = readWord c.mem (slot c.esp (i + 3))

theorem frameOf_length (r : Registers) (esp code number : UInt32) : (frameOf r esp code number).words.length = frameSize r - 3 := by
  unfold Frame.words frameOf frameSize
  dsimp only
  by_cases hring : r.ring = 0
  · rw [if_pos hring, if_pos hring]
    rfl
  · rw [if_neg hring, if_neg hring]
    rfl

/-- A handler that returns leaves the frame on the stack. -/
theorem HandlerReturns.holds {c c' : Cpu} {ws : List UInt32} {ret param arg : UInt32} (h : HandlerReturns ws.length c c')
    (hholds : Holds c.mem c.esp (ret :: param :: arg :: ws)) :
    Holds c'.mem c'.esp (readWord c'.mem (c.esp + 4) :: readWord c'.mem (c.esp + 4 + 4) :: ws) := by
  rw [h.esp]
  refine ⟨rfl, rfl, hholds.2.2.2.frame fun i hi => ?_⟩
  rw [slot_succ, slot_succ, slot_succ]
  exact h.frame i hi

/-- A frame that is as the interrupt has left it brings the registers back. -/
theorem frame_restores {r : Registers} (hr : Interruptible r) (inp : UInt16 → UInt8) {n : Nat} (hn : n < 256)
    {c' : Cpu} {p param arg esp code : UInt32} (h : Holds c'.mem p (param :: arg :: (frameOf r esp code (UInt32.ofNat n)).words))
    (hesp : c'.esp = p) (hring : c'.ring = 0) (hfs : c'.fs = 6 * 8) (hinner : r.ring = 0 → p + 64 = r.esp ∧ c'.ss = r.ss) :
    (c'.interruptHandlerReturn inp).toRegisters = restored r ∧
      (c'.interruptHandlerReturn inp).out = c'.out ++ Cpu.endOfInterrupt inp n := by
  subst hesp
  constructor
  · rw [Cpu.interruptHandlerReturn_loads hring (frameOf_valid r esp code (UInt32.ofNat n)) h]
    exact frameOf_loaded hr esp code (UInt32.ofNat n) hfs hinner
  · exact Cpu.interruptHandlerReturn_out hn rfl h

theorem frameBase_inner {r : Registers} (esp0 : UInt32) (h : r.ring = 0) :
    Cpu.frameBase r esp0 - UInt32.ofNat (4 * frameSize r) + 4 + 64 = r.esp := by
  rw [Cpu.frameBase, frameSize, if_pos h, if_pos h, add_assoc]
  exact sub_add_cancel _ _

/-- For every vector with a gate, whatever code of the kernel or of a task is
interrupted: the gate leads to the stub of the vector, the handler that runs
is the one of the handler table with the parameter of the table, and when it
has returned, the interrupted code goes on with its registers, and the
interrupt controllers have been told. -/
theorem interrupt_transparent (k : KernelImage) (before : Nat → IdtGate) (esp0 : UInt32) (ss0 : UInt16) (inp : UInt16 → UInt8) (n : Nat)
    (hn : n ∈ installed.map Prod.fst) (errorCode : Option UInt32) (hcode : errorCode.isSome = expectsErrorCode n) (c : Cpu)
    (hc : Interruptible c.toRegisters)
    (htable : Span.Apart ⟨(c.enter k before esp0 ss0 n errorCode).esp, 4 * frameSize c.toRegisters⟩ ⟨k.entry (UInt32.ofNat n), 8⟩)
    (c' : Cpu) (hret : HandlerReturns (frameSize c.toRegisters - 3) (c.enter k before esp0 ss0 n errorCode) c') :
    (c.deliver esp0 ss0 (k.idt before n) errorCode).eip = k.stub n ∧
      (c.enter k before esp0 ss0 n errorCode).eip = readWord c.mem (k.entry (UInt32.ofNat n) + 4) ∧
      readWord (c.enter k before esp0 ss0 n errorCode).mem ((c.enter k before esp0 ss0 n errorCode).esp + 4) =
        readWord c.mem (k.entry (UInt32.ofNat n)) ∧
      (c'.interruptHandlerReturn inp).toRegisters = restored c.toRegisters ∧
      (c'.interruptHandlerReturn inp).out = c'.out ++ Cpu.endOfInterrupt inp n := by
  have hlt : n < 256 := by
    have hall : ∀ i ∈ installed.map Prod.fst, i < 256 := by decide
    exact hall n hn
  obtain ⟨esp, code, hholds, hesp, heip, hfs, hring, hss, -⟩ := enter_spec k before esp0 ss0 hn hcode c htable
  have hparam := hholds.2.1
  have hbehind := hholds.2.2.2
  have hoffset : (c.deliver esp0 ss0 (k.idt before n) errorCode).eip = k.stub n := by
    rw [(Cpu.deliver_spec c esp0 ss0 (k.idt before n) errorCode).2.1, Cpu.idt_installed k before hn]
    exact Cpu.gateTo_offset _ _
  rw [← frameOf_length c.toRegisters esp code (UInt32.ofNat n)] at hret
  obtain ⟨hregs, hout⟩ := frame_restores hc inp hlt (hret.holds hholds) rfl (by rw [Registers.ring, hret.cs]; exact hring)
    (hret.fs.trans hfs) (fun hinner => by
      refine ⟨?_, ?_⟩
      · rw [hret.esp, hesp]
        exact frameBase_inner esp0 hinner
      · rw [hret.ss, hss]
        exact if_pos hinner)
  exact ⟨hoffset, heip, hparam, hregs, hout⟩

/-- A task that yields, with a handler that returns at once. -/
def yieldingTask : Cpu where
  eax := 1
  ecx := 2
  edx := 3
  ebx := 4
  esp := 0x2020000
  ebp := 5
  esi := 6
  edi := 7
  eip := 0x2028010
  eflags := 0x202
  cs := 3 * 8 ||| 3
  ss := 4 * 8 ||| 3
  ds := 4 * 8 ||| 3
  es := 4 * 8 ||| 3
  fs := 0
  gs := 4 * 8 ||| 3
  mem := fun _ => 0
  out := []

def sampleImage : KernelImage where
  stub := fun n => 0x10000 + 8 * UInt32.ofNat n
  interruptHandlerReturn := 0x10800
  interruptHandlers := 0x200000

def emptyIdt : Nat → IdtGate := fun _ => ⟨0, 0, 0, 0, 0⟩

def yieldingEntry : Cpu := yieldingTask.enter sampleImage emptyIdt 0x2013FFC (2 * 8) 49 none

theorem yieldingEntry_apart :
    Span.Apart ⟨yieldingEntry.esp, 4 * frameSize yieldingTask.toRegisters⟩ ⟨sampleImage.entry (UInt32.ofNat 49), 8⟩ := by
  have hstack : yieldingEntry.esp = sampleImage.entry (UInt32.ofNat 49) + UInt32.ofNat 0x1E13E28 := by decide +kernel
  have hentry : sampleImage.entry (UInt32.ofNat 49) = sampleImage.entry (UInt32.ofNat 49) + UInt32.ofNat 0 := by decide
  rw [hstack]
  nth_rewrite 2 [hentry]
  exact (Span.apart_of_le (by decide) (by decide)).symm

theorem interrupt_transparent_yield : ({ yieldingEntry with esp := yieldingEntry.esp + 4 }.interruptHandlerReturn fun _ => 0).toRegisters =
    { yieldingTask.toRegisters with fs := 0 } := by
  have h := interrupt_transparent sampleImage emptyIdt 0x2013FFC (2 * 8) (fun _ => 0) 49 (by decide) none (by decide) yieldingTask
    (by decide) yieldingEntry_apart { yieldingEntry with esp := yieldingEntry.esp + 4 } ⟨rfl, rfl, rfl, rfl, fun _ _ => rfl⟩
  exact h.2.2.2.1

end CpuScheduler.L9
