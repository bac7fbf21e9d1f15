import CpuScheduler.Core.Span
import CpuScheduler.Core.Traced
import CpuScheduler.Core.Word

/-!
# memCopy, memClear and memCompare

`mem.cpp` and `mem_assembly.asm`: bytes until the first pointer is aligned,
then dwords, then the remaining bytes. The other pointer need not be aligned.
The string instructions go upwards. An access is logged byte by byte. `source`
and `target` are the source's `from` and `to`.

Every part copies some bytes and leaves the rest to the next part, so the parts
are put together by `Copies.bind`. A copy that is made in parts is the copy of
all bytes as long as no byte is overwritten before it is read (`Unclobbered`);
within a dword the order does not matter, because the dword is read first.
-/
namespace CpuScheduler.L1

open Word Traced

abbrev Memory := UInt32 → UInt8

inductive ByteAccess where
  | read (a : UInt32)
  | write (a : UInt32)
  deriving DecidableEq, Repr

namespace MemPrimitives

def loadByte (mem : Memory) (a : UInt32) : Traced ByteAccess UInt8 := do
  Traced.emit [.read a]
  return mem a

def storeByte (mem : Memory) (a : UInt32) (v : UInt8) : Traced ByteAccess Memory := do
  Traced.emit [.write a]
  return Function.update mem a v

/-- `*(unsigned int*)a` -/
def loadDword (mem : Memory) (a : UInt32) : Traced ByteAccess UInt32 := do
  Traced.emit [.read a, .read (a + 1), .read (a + 2), .read (a + 3)]
  return be32 (mem (a + 3)) (mem (a + 2)) (mem (a + 1)) (mem a)

def storeDword (mem : Memory) (a v : UInt32) : Traced ByteAccess Memory := do
  Traced.emit [.write a, .write (a + 1), .write (a + 2), .write (a + 3)]
  return fun x => if (x - a).toNat < 4 then (v >>> (8 * (x - a))).toUInt8 else mem x

/-! ## memCopy -/

/-- `*to = *from` -/
def copyByte (mem : Memory) (source target : UInt32) : Traced ByteAccess Memory := do
  let v ← loadByte mem source
  storeByte mem target v

/-- One round of `rep movsd`. -/
def copyDword (mem : Memory) (source target : UInt32) : Traced ByteAccess Memory := do
  let v ← loadDword mem source
  storeDword mem target v

/-- `rep movsd`. mirrors mem_assembly.asm:8-22 -/
def memoryCopyDwords : Nat → UInt32 → UInt32 → Memory → Traced ByteAccess Memory
  | 0, _, _, mem => return mem
  | numberOfDwords + 1, source, target, mem => do
    let mem ← copyDword mem source target
    memoryCopyDwords numberOfDwords (source + 4) (target + 4) mem

/-- The last loop, from `i` on; `n` bytes are left. mirrors mem.cpp:19-21 -/
def copyTail (source target : UInt32) : Nat → Nat → Memory → Traced ByteAccess Memory
  | 0, _, mem => return mem
  | n + 1, i, mem => do
    let mem ← copyByte mem (source + UInt32.ofNat i) (target + UInt32.ofNat i)
    copyTail source target n (i + 1) mem

/-- mirrors mem.cpp:16-21 -/
def copyAligned (numBytes : Nat) (source target : UInt32) (mem : Memory) : Traced ByteAccess Memory := do
  let numDwords := numBytes / 4
  let mem ← memoryCopyDwords numDwords source target mem
  copyTail source target (numBytes - numDwords * 4) (numDwords * 4) mem

/-- The first loop, and what follows it. mirrors mem.cpp:12-21 -/
def copyHead : Nat → UInt32 → UInt32 → Memory → Traced ByteAccess Memory
  | 0, source, target, mem => copyAligned 0 source target mem
  | numBytes + 1, source, target, mem =>
    if source % 4 = 0 then copyAligned (numBytes + 1) source target mem
    else do
      let mem ← copyByte mem source target
      copyHead numBytes (source + 1) (target + 1) mem

/-- mirrors mem.cpp:9-22 -/
def memCopy (mem : Memory) (source target numBytes : UInt32) : Traced ByteAccess Memory :=
  if numBytes = 0 then return mem else copyHead numBytes.toNat source target mem

/-! ## memClear -/

/-- `rep stosd`. mirrors mem_assembly.asm:44-58 -/
def clearDwords : Nat → UInt32 → Memory → Traced ByteAccess Memory
  | 0, _, mem => return mem
  | numberOfDwords + 1, addr, mem => do
    let mem ← storeDword mem addr 0
    clearDwords numberOfDwords (addr + 4) mem

def clearTail (addr : UInt32) : Nat → Nat → Memory → Traced ByteAccess Memory
  | 0, _, mem => return mem
  | n + 1, i, mem => do
    let mem ← storeByte mem (addr + UInt32.ofNat i) 0
    clearTail addr n (i + 1) mem

def clearAligned (numBytes : Nat) (addr : UInt32) (mem : Memory) : Traced ByteAccess Memory := do
  let numDwords := numBytes / 4
  let mem ← clearDwords numDwords addr mem
  clearTail addr (numBytes - numDwords * 4) (numDwords * 4) mem

def clearHead : Nat → UInt32 → Memory → Traced ByteAccess Memory
  | 0, addr, mem => clearAligned 0 addr mem
  | numBytes + 1, addr, mem =>
    if addr % 4 = 0 then clearAligned (numBytes + 1) addr mem
    else do
      let mem ← storeByte mem addr 0
      clearHead numBytes (addr + 1) mem

/-- mirrors mem.cpp:24-37 -/
def memClear (mem : Memory) (addr numBytes : UInt32) : Traced ByteAccess Memory :=
  if numBytes = 0 then return mem else clearHead numBytes.toNat addr mem

/-! ## memCompare -/

def compareTail (mem : Memory) (addr1 addr2 : UInt32) : Nat → Nat → Traced ByteAccess UInt32
  | 0, _ => return 0
  | n + 1, i => do
    let v1 ← loadByte mem (addr1 + UInt32.ofNat i)
    let v2 ← loadByte mem (addr2 + UInt32.ofNat i)
    if v1 ≠ v2 then return v1.toUInt32 - v2.toUInt32 else compareTail mem addr1 addr2 n (i + 1)

/-- The loop over the dwords, from `i` on, and what follows it; `n` dwords are
left. mirrors mem.cpp:48-61 -/
def compareDwords (mem : Memory) (numBytes : Nat) (addr1 addr2 : UInt32) : Nat → Nat → Traced ByteAccess UInt32
  | 0, i => compareTail mem addr1 addr2 (numBytes - i * 4) (i * 4)
  | n + 1, i => do
    let v1 ← loadDword mem (addr1 + UInt32.ofNat (i * 4))
    let v2 ← loadDword mem (addr2 + UInt32.ofNat (i * 4))
    if v1 ≠ v2 then return v1 - v2 else compareDwords mem numBytes addr1 addr2 n (i + 1)

def compareHead (mem : Memory) : Nat → UInt32 → UInt32 → Traced ByteAccess UInt32
  | 0, addr1, addr2 => compareDwords mem 0 addr1 addr2 0 0
  | numBytes + 1, addr1, addr2 =>
    if addr1 % 4 = 0 then compareDwords mem (numBytes + 1) addr1 addr2 ((numBytes + 1) / 4) 0
    else do
      let v1 ← loadByte mem addr1
      let v2 ← loadByte mem addr2
      if v1 ≠ v2 then return v1.toUInt32 - v2.toUInt32 else compareHead mem numBytes (addr1 + 1) (addr2 + 1)

/-- The result is an `int`, here as its bits. mirrors mem.cpp:39-62 -/
def memCompare (mem : Memory) (addr1 addr2 numBytes : UInt32) : Traced ByteAccess UInt32 :=
  if numBytes = 0 then return 0 else compareHead mem numBytes.toNat addr1 addr2

/-! ## Copies -/

/-- `n` bytes copied at once. -/
def copied (mem : Memory) (source target : UInt32) (n : Nat) : Memory := fun x =>
  if (x - target).toNat < n then mem (source + (x - target)) else mem x

/-- `n` bytes copied one after the other. -/
def copyForward (mem : Memory) (source target : UInt32) : Nat → Memory
  | 0 => mem
  | n + 1 =>
    let mem := copyForward mem source target n
    Function.update mem (target + UInt32.ofNat n) (mem (source + UInt32.ofNat n))

/-- No byte is overwritten before it is read. -/
def Unclobbered (source target : UInt32) (n : Nat) : Prop :=
  ∀ i j, i < j → j < n → target + UInt32.ofNat i ≠ source + UInt32.ofNat j

/-- The access is a read in one span or a write in the other. -/
def ReadsWrites (source target : Span) : ByteAccess → Prop
  | .read a => source.Mem a
  | .write a => target.Mem a

variable {mem : Memory} {source target : UInt32} {n a b : Nat}

theorem Unclobbered.mono (h : Unclobbered source target (a + b)) :
    Unclobbered (source + UInt32.ofNat a) (target + UInt32.ofNat a) b := by
  intro i j hij hj heq
  refine h (a + i) (a + j) (by omega) (by omega) ?_
  rw [UInt32.ofNat_add, UInt32.ofNat_add, ← add_assoc, ← add_assoc]
  exact heq

theorem sub_ofNat (x y : UInt32) : x = y + UInt32.ofNat (x - y).toNat := by
  rw [UInt32.ofNat_toNat]
  exact (add_sub_cancel y x).symm

theorem copied_append (h : Unclobbered source target (a + b)) (hab : a + b ≤ 2 ^ 32) (ha : a < 2 ^ 32) :
    copied (copied mem source target a) (source + UInt32.ofNat a) (target + UInt32.ofNat a) b =
      copied mem source target (a + b) := by
  funext x
  have hdist := Span.toNat_sub_base target x ha
  unfold copied
  by_cases hx : (x - (target + UInt32.ofNat a)).toNat < b
  · -- the byte is copied by the second part, from where the first part did not write
    have hd : (x - target).toNat = a + (x - (target + UInt32.ofNat a)).toNat := by omega
    have hfrom : source + UInt32.ofNat a + (x - (target + UInt32.ofNat a)) = source + (x - target) := by
      rw [sub_add_eq_sub_sub, add_assoc, add_sub_cancel]
    have hkept : ¬ (source + (x - target) - target).toNat < a := by
      intro hlt
      refine h (source + (x - target) - target).toNat (x - target).toNat (by omega) (by omega) ?_
      rw [← sub_ofNat, UInt32.ofNat_toNat]
    rw [if_pos hx, hfrom, if_neg hkept, if_pos (by omega)]
  · have hlt := (x - (target + UInt32.ofNat a)).toNat_lt
    rw [if_neg hx]
    exact if_congr (by omega) rfl rfl

/-- One byte written, as a span of one address. -/
theorem update_eq (mem : Memory) (target : UInt32) (v : UInt8) :
    Function.update mem target v = fun x => if (x - target).toNat < 1 then v else mem x := by
  funext x
  by_cases hx : x = target
  · subst hx
    simp
  · rw [Function.update_of_ne hx, if_neg]
    intro hlt
    have hzero : (x - target).toNat = 0 := by omega
    refine hx ?_
    rw [sub_ofNat x target, hzero]
    exact add_zero target

theorem copied_one (mem : Memory) (source target : UInt32) :
    copied mem source target 1 = Function.update mem target (mem source) := by
  rw [update_eq]
  funext x
  unfold copied
  refine ite_congr rfl (fun hlt => ?_) fun _ => rfl
  have hzero : x - target = 0 := by
    rw [← UInt32.toNat_inj, UInt32.toNat_zero]
    omega
  rw [hzero, add_zero]

theorem copyForward_eq (h : Unclobbered source target n) (hn : n ≤ 2 ^ 32) :
    copyForward mem source target n = copied mem source target n := by
  induction n with
  | zero => rfl
  | succ n ih =>
    have hprev := ih (fun i j hij hj => h i j hij (by omega)) (by omega)
    rw [copyForward, ← copied_append h hn (by omega), ← hprev]
    exact (copied_one _ _ _).symm

/-- The computation copies `n` bytes and touches no other. -/
structure Copies (source target : UInt32) (n : Nat) (mem : Memory) (x : Traced ByteAccess Memory) : Prop where
  val : Unclobbered source target n → x.val = copied mem source target n
  within : All (ReadsWrites ⟨source, n⟩ ⟨target, n⟩) x

theorem ReadsWrites.mono {s s' t t' : Span} (hs : s.Within s') (ht : t.Within t') {e : ByteAccess}
    (h : ReadsWrites s t e) : ReadsWrites s' t' e := by
  cases e with
  | read a => exact hs a h
  | write a => exact ht a h

theorem copies_nothing (mem : Memory) (source target : UInt32) : Copies source target 0 mem (pure mem) :=
  ⟨fun _ => rfl, all_pure mem⟩

theorem Copies.bind {x : Traced ByteAccess Memory} {f : Memory → Traced ByteAccess Memory} (hx : Copies source target a mem x)
    (hab : a + b ≤ 2 ^ 32) (ha : a < 2 ^ 32)
    (hf : ∀ mem', Copies (source + UInt32.ofNat a) (target + UInt32.ofNat a) b mem' (f mem')) :
    Copies source target (a + b) mem (x >>= f) := by
  have hfirst (base : UInt32) : Span.Within ⟨base, a⟩ ⟨base, a + b⟩ := by
    intro y hy
    exact Nat.lt_of_lt_of_le hy (Nat.le_add_right a b)
  have hsecond (base : UInt32) : Span.Within ⟨base + UInt32.ofNat a, b⟩ ⟨base, a + b⟩ := Span.within_of_le (Nat.le_refl _) hab
  constructor
  case val =>
    intro h
    have hstart : Unclobbered source target a := fun i j hij hj => h i j hij (by omega)
    rw [val_bind, (hf _).val h.mono, hx.val hstart]
    exact copied_append h hab ha
  case within =>
    refine all_bind ?_ ?_
    · exact fun e he => (hx.within e he).mono (hfirst source) (hfirst target)
    · exact fun e he => ((hf _).within e he).mono (hsecond source) (hsecond target)

theorem mem_start (start : UInt32) {n : Nat} (hn : 0 < n) : Span.Mem ⟨start, n⟩ start := by
  unfold Span.Mem
  rw [sub_self]
  exact hn

theorem mem_add {start : UInt32} {n k : Nat} (hk : k < n) (hn : n ≤ 2 ^ 32) : Span.Mem ⟨start, n⟩ (start + UInt32.ofNat k) :=
  Span.mem_of_lt hk hn

theorem copies_byte (mem : Memory) (source target : UInt32) : Copies source target 1 mem (copyByte mem source target) := by
  constructor
  case val => exact fun _ => (copied_one mem source target).symm
  case within =>
    intro e he
    rcases List.mem_pair.mp he with rfl | rfl
    · exact mem_start source Nat.one_pos
    · exact mem_start target Nat.one_pos

/-- The bytes of a dword, one by one. -/
theorem bytes_be32 (a b c d : UInt8) : (be32 a b c d).toUInt8 = d ∧ (be32 a b c d >>> 8).toUInt8 = c ∧
    (be32 a b c d >>> 16).toUInt8 = b ∧ (be32 a b c d >>> 24).toUInt8 = a := by
  have ha := a.toNat_lt
  have hb := b.toNat_lt
  have hc := c.toNat_lt
  have hd := d.toNat_lt
  refine ⟨?_, ?_, ?_, ?_⟩ <;>
  · apply UInt8.toNat_inj.mp
    simp only [UInt32.toNat_toUInt8, UInt32.toNat_shiftRight, be32_toNat, UInt32.reduceToNat, Nat.reduceMod,
      Nat.shiftRight_eq_div_pow]
    omega

theorem lt_four {y : UInt32} (hy : y.toNat < 4) : y = 0 ∨ y = 1 ∨ y = 2 ∨ y = 3 := by
  simp only [← UInt32.toNat_inj, UInt32.reduceToNat]
  omega

theorem copies_dword (mem : Memory) (source target : UInt32) : Copies source target 4 mem (copyDword mem source target) := by
  constructor
  case val =>
    intro _
    obtain ⟨h0, h1, h2, h3⟩ := bytes_be32 (mem (source + 3)) (mem (source + 2)) (mem (source + 1)) (mem source)
    funext x
    show (if (x - target).toNat < 4 then _ else _) = if (x - target).toNat < 4 then _ else _
    split
    · rename_i hlt
      rcases lt_four hlt with hx | hx | hx | hx <;> rw [hx]
      · exact h0.trans (congrArg mem (add_zero source).symm)
      · exact h1
      · exact h2
      · exact h3
    · rfl
  case within =>
    intro e he
    have hlog : e ∈ [ByteAccess.read source, .read (source + 1), .read (source + 2), .read (source + 3)] ++
        [.write target, .write (target + 1), .write (target + 2), .write (target + 3)] := he
    simp only [List.cons_append, List.nil_append, List.mem_cons, List.not_mem_nil, or_false] at hlog
    rcases hlog with rfl | rfl | rfl | rfl | rfl | rfl | rfl | rfl
    · exact mem_start source (by decide)
    · exact mem_add (by decide : 1 < 4) (by decide)
    · exact mem_add (by decide : 2 < 4) (by decide)
    · exact mem_add (by decide : 3 < 4) (by decide)
    · exact mem_start target (by decide)
    · exact mem_add (by decide : 1 < 4) (by decide)
    · exact mem_add (by decide : 2 < 4) (by decide)
    · exact mem_add (by decide : 3 < 4) (by decide)

theorem copies_memoryCopyDwords (k : Nat) (hk : k * 4 ≤ 2 ^ 32) (mem : Memory) (source target : UInt32) :
    Copies source target (k * 4) mem (memoryCopyDwords k source target mem) := by
  induction k generalizing mem source target with
  | zero => exact Nat.zero_mul 4 ▸ copies_nothing mem source target
  | succ k ih =>
    rw [Nat.succ_mul, Nat.add_comm]
    exact (copies_dword mem source target).bind (by omega) (by decide) fun mem' => ih (by omega) mem' _ _

theorem copies_copyTail (source target : UInt32) (k i : Nat) (hk : i + k ≤ 2 ^ 32) (mem : Memory) :
    Copies (source + UInt32.ofNat i) (target + UInt32.ofNat i) k mem (copyTail source target k i mem) := by
  induction k generalizing i mem with
  | zero => exact copies_nothing mem _ _
  | succ k ih =>
    have hrest (mem' : Memory) : Copies (source + UInt32.ofNat i + UInt32.ofNat 1) (target + UInt32.ofNat i + UInt32.ofNat 1)
        k mem' (copyTail source target k (i + 1) mem') := by
      rw [add_assoc, add_assoc, ← UInt32.ofNat_add]
      exact ih (i + 1) (by omega) mem'
    have hall := (copies_byte mem (source + UInt32.ofNat i) (target + UInt32.ofNat i)).bind (by omega) (by decide) hrest
    rwa [Nat.add_comm] at hall

theorem copies_copyAligned (n : Nat) (hn : n < 2 ^ 32) (source target : UInt32) (mem : Memory) :
    Copies source target n mem (copyAligned n source target mem) := by
  have hsplit : n / 4 * 4 + (n - n / 4 * 4) = n := by omega
  have hall := (copies_memoryCopyDwords (n / 4) (by omega) mem source target).bind (by omega) (by omega) fun mem' =>
    copies_copyTail source target (n - n / 4 * 4) (n / 4 * 4) (by omega) mem'
  rwa [hsplit] at hall

theorem copies_copyHead (n : Nat) (hn : n < 2 ^ 32) (source target : UInt32) (mem : Memory) :
    Copies source target n mem (copyHead n source target mem) := by
  induction n generalizing source target mem with
  | zero => exact copies_copyAligned 0 hn source target mem
  | succ n ih =>
    unfold copyHead
    split
    · exact copies_copyAligned (n + 1) hn source target mem
    · rw [Nat.add_comm n 1]
      exact (copies_byte mem source target).bind (by omega) (by decide) fun mem' => ih (by omega) _ _ mem'

theorem copies_memCopy (mem : Memory) (source target numBytes : UInt32) :
    Copies source target numBytes.toNat mem (memCopy mem source target numBytes) := by
  unfold memCopy
  split
  · rename_i hzero
    subst hzero
    exact copies_nothing mem source target
  · exact copies_copyHead numBytes.toNat numBytes.toNat_lt source target mem

/-! ## Clearing -/

variable {addr : UInt32}

def cleared (mem : Memory) (addr : UInt32) (n : Nat) : Memory := fun x => if (x - addr).toNat < n then 0 else mem x

theorem cleared_append (mem : Memory) (addr : UInt32) (hab : a + b ≤ 2 ^ 32) (ha : a < 2 ^ 32) :
    cleared (cleared mem addr a) (addr + UInt32.ofNat a) b = cleared mem addr (a + b) := by
  funext x
  have hdist := Span.toNat_sub_base addr x ha
  have hlt := (x - (addr + UInt32.ofNat a)).toNat_lt
  unfold cleared
  by_cases hx : (x - (addr + UInt32.ofNat a)).toNat < b
  · rw [if_pos hx, if_pos (by omega)]
  · rw [if_neg hx]
    exact if_congr (by omega) rfl rfl

/-- The computation clears `n` bytes, reads none and writes no other. -/
structure Clears (addr : UInt32) (n : Nat) (mem : Memory) (x : Traced ByteAccess Memory) : Prop where
  val : x.val = cleared mem addr n
  within : All (ReadsWrites ⟨addr, 0⟩ ⟨addr, n⟩) x

theorem clears_nothing (mem : Memory) (addr : UInt32) : Clears addr 0 mem (pure mem) := ⟨rfl, all_pure mem⟩

theorem Clears.bind {x : Traced ByteAccess Memory} {f : Memory → Traced ByteAccess Memory} (hx : Clears addr a mem x)
    (hab : a + b ≤ 2 ^ 32) (ha : a < 2 ^ 32) (hf : ∀ mem', Clears (addr + UInt32.ofNat a) b mem' (f mem')) :
    Clears addr (a + b) mem (x >>= f) := by
  constructor
  case val =>
    rw [val_bind, (hf _).val, hx.val]
    exact cleared_append mem addr hab ha
  case within =>
    have hnone (s : Span) : Span.Within ⟨s.start, 0⟩ ⟨addr, 0⟩ := Span.within_of_empty _ rfl
    refine all_bind ?_ ?_
    · refine fun e he => (hx.within e he).mono (hnone ⟨addr, 0⟩) fun y hy => ?_
      exact Nat.lt_of_lt_of_le hy (Nat.le_add_right a b)
    · exact fun e he => ((hf _).within e he).mono (hnone ⟨_, 0⟩) (Span.within_of_le (Nat.le_refl _) hab)

theorem clears_byte (mem : Memory) (addr : UInt32) : Clears addr 1 mem (storeByte mem addr 0) := by
  constructor
  case val => exact update_eq mem addr 0
  case within =>
    intro e he
    rw [List.mem_singleton.mp he]
    exact mem_start addr Nat.one_pos

theorem clears_dword (mem : Memory) (addr : UInt32) : Clears addr 4 mem (storeDword mem addr 0) := by
  constructor
  case val =>
    funext x
    show (if (x - addr).toNat < 4 then _ else _) = if (x - addr).toNat < 4 then _ else _
    split
    · rename_i hlt
      rcases lt_four hlt with hx | hx | hx | hx <;> rw [hx] <;> rfl
    · rfl
  case within =>
    intro e he
    have hlog : e ∈ [ByteAccess.write addr, .write (addr + 1), .write (addr + 2), .write (addr + 3)] := he
    simp only [List.mem_cons, List.not_mem_nil, or_false] at hlog
    rcases hlog with rfl | rfl | rfl | rfl
    · exact mem_start addr (by decide)
    · exact mem_add (by decide : 1 < 4) (by decide)
    · exact mem_add (by decide : 2 < 4) (by decide)
    · exact mem_add (by decide : 3 < 4) (by decide)

theorem clears_clearDwords (k : Nat) (hk : k * 4 ≤ 2 ^ 32) (mem : Memory) (addr : UInt32) :
    Clears addr (k * 4) mem (clearDwords k addr mem) := by
  induction k generalizing mem addr with
  | zero => exact Nat.zero_mul 4 ▸ clears_nothing mem addr
  | succ k ih =>
    rw [Nat.succ_mul, Nat.add_comm]
    exact (clears_dword mem addr).bind (by omega) (by decide) fun mem' => ih (by omega) mem' _

theorem clears_clearTail (addr : UInt32) (k i : Nat) (hk : i + k ≤ 2 ^ 32) (mem : Memory) :
    Clears (addr + UInt32.ofNat i) k mem (clearTail addr k i mem) := by
  induction k generalizing i mem with
  | zero => exact clears_nothing mem _
  | succ k ih =>
    have hrest (mem' : Memory) : Clears (addr + UInt32.ofNat i + UInt32.ofNat 1) k mem' (clearTail addr k (i + 1) mem') := by
      rw [add_assoc, ← UInt32.ofNat_add]
      exact ih (i + 1) (by omega) mem'
    have hall := (clears_byte mem (addr + UInt32.ofNat i)).bind (by omega) (by decide) hrest
    rwa [Nat.add_comm] at hall

theorem clears_clearAligned (n : Nat) (hn : n < 2 ^ 32) (addr : UInt32) (mem : Memory) :
    Clears addr n mem (clearAligned n addr mem) := by
  have hsplit : n / 4 * 4 + (n - n / 4 * 4) = n := by omega
  have hall := (clears_clearDwords (n / 4) (by omega) mem addr).bind (by omega) (by omega) fun mem' =>
    clears_clearTail addr (n - n / 4 * 4) (n / 4 * 4) (by omega) mem'
  rwa [hsplit] at hall

theorem clears_clearHead (n : Nat) (hn : n < 2 ^ 32) (addr : UInt32) (mem : Memory) :
    Clears addr n mem (clearHead n addr mem) := by
  induction n generalizing addr mem with
  | zero => exact clears_clearAligned 0 hn addr mem
  | succ n ih =>
    unfold clearHead
    split
    · exact clears_clearAligned (n + 1) hn addr mem
    · rw [Nat.add_comm n 1]
      exact (clears_byte mem addr).bind (by omega) (by decide) fun mem' => ih (by omega) _ mem'

theorem clears_memClear (mem : Memory) (addr numBytes : UInt32) : Clears addr numBytes.toNat mem (memClear mem addr numBytes) := by
  unfold memClear
  split
  · rename_i hzero
    subst hzero
    exact clears_nothing mem addr
  · exact clears_clearHead numBytes.toNat numBytes.toNat_lt addr mem

/-! ## Comparing -/

variable {addr1 addr2 : UInt32}

/-- The access is a read in one of the spans. -/
def ReadsIn (s t : Span) : ByteAccess → Prop
  | .read a => s.Mem a ∨ t.Mem a
  | .write _ => False

theorem ReadsIn.mono {s s' t t' : Span} (hs : s.Within s') (ht : t.Within t') {e : ByteAccess} (h : ReadsIn s t e) :
    ReadsIn s' t' e := by
  cases e with
  | read a => exact h.imp (hs a) (ht a)
  | write a => exact h

def SameBytes (mem : Memory) (addr1 addr2 : UInt32) (n : Nat) : Prop :=
  ∀ i, i < n → mem (addr1 + UInt32.ofNat i) = mem (addr2 + UInt32.ofNat i)

theorem sameBytes_append : SameBytes mem addr1 addr2 (a + b) ↔
    SameBytes mem addr1 addr2 a ∧ SameBytes mem (addr1 + UInt32.ofNat a) (addr2 + UInt32.ofNat a) b := by
  have hassoc (base : UInt32) (i : Nat) : base + UInt32.ofNat a + UInt32.ofNat i = base + UInt32.ofNat (a + i) := by
    rw [add_assoc, ← UInt32.ofNat_add]
  constructor
  · intro h
    refine ⟨fun i hi => h i (by omega), fun i hi => ?_⟩
    rw [hassoc, hassoc]
    exact h (a + i) (by omega)
  · intro h i hi
    by_cases hlt : i < a
    · exact h.1 i hlt
    · have hsecond := h.2 (i - a) (by omega)
      rwa [hassoc, hassoc, Nat.add_sub_cancel' (by omega)] at hsecond

/-- The result is 0 just if the `n` bytes are the same; only they are read. -/
structure Compares (mem : Memory) (addr1 addr2 : UInt32) (n : Nat) (x : Traced ByteAccess UInt32) : Prop where
  val : x.val = 0 ↔ SameBytes mem addr1 addr2 n
  within : All (ReadsIn ⟨addr1, n⟩ ⟨addr2, n⟩) x

/-- A part is compared; the rest only if the parts are the same. -/
theorem Compares.step {α : Type} [DecidableEq α] {load1 load2 : Traced ByteAccess α} {diff : α → α → UInt32}
    {rest : Traced ByteAccess UInt32} (hdiff : ∀ u v, diff u v = 0 ↔ u = v)
    (hload : load1.val = load2.val ↔ SameBytes mem addr1 addr2 a) (h1 : All (ReadsIn ⟨addr1, a⟩ ⟨addr2, a⟩) load1)
    (h2 : All (ReadsIn ⟨addr1, a⟩ ⟨addr2, a⟩) load2) (hab : a + b ≤ 2 ^ 32)
    (hrest : Compares mem (addr1 + UInt32.ofNat a) (addr2 + UInt32.ofNat a) b rest) :
    Compares mem addr1 addr2 (a + b)
      (load1 >>= fun u => load2 >>= fun v => if u ≠ v then pure (diff u v) else rest) := by
  have hfirst (base : UInt32) : Span.Within ⟨base, a⟩ ⟨base, a + b⟩ := by
    intro y hy
    exact Nat.lt_of_lt_of_le hy (Nat.le_add_right a b)
  have hsecond (base : UInt32) : Span.Within ⟨base + UInt32.ofNat a, b⟩ ⟨base, a + b⟩ := Span.within_of_le (Nat.le_refl _) hab
  constructor
  case val =>
    rw [sameBytes_append, ← hload, ← hrest.val, val_bind, val_bind, val_ite]
    by_cases heq : load1.val = load2.val
    · rw [if_neg (not_not_intro heq)]
      exact (and_iff_right heq).symm
    · rw [if_pos heq, val_pure, hdiff]
      exact iff_of_false heq fun h => heq h.1
  case within =>
    refine all_bind (fun e he => (h1 e he).mono (hfirst _) (hfirst _)) ?_
    refine all_bind (fun e he => (h2 e he).mono (hfirst _) (hfirst _)) ?_
    refine all_ite (fun _ => all_pure _) fun _ e he => (hrest.within e he).mono (hsecond _) (hsecond _)

theorem diff_byte (u v : UInt8) : u.toUInt32 - v.toUInt32 = 0 ↔ u = v := by
  rw [sub_eq_zero, ← UInt32.toNat_inj, UInt8.toNat_toUInt32, UInt8.toNat_toUInt32, UInt8.toNat_inj]

theorem diff_dword (u v : UInt32) : u - v = 0 ↔ u = v := sub_eq_zero

theorem add_ofNat_zero (addr : UInt32) : addr + UInt32.ofNat 0 = addr := add_zero addr

theorem loadByte_eq_iff (mem : Memory) (addr1 addr2 : UInt32) :
    (loadByte mem addr1).val = (loadByte mem addr2).val ↔ SameBytes mem addr1 addr2 1 := by
  constructor
  · intro h i hi
    obtain rfl : i = 0 := by omega
    rw [add_ofNat_zero, add_ofNat_zero]
    exact h
  · intro h
    have h0 := h 0 Nat.one_pos
    rwa [add_ofNat_zero, add_ofNat_zero] at h0

theorem loadDword_eq_iff (mem : Memory) (addr1 addr2 : UInt32) :
    (loadDword mem addr1).val = (loadDword mem addr2).val ↔ SameBytes mem addr1 addr2 4 := by
  constructor
  · intro h
    have hword : be32 (mem (addr1 + 3)) (mem (addr1 + 2)) (mem (addr1 + 1)) (mem addr1) =
        be32 (mem (addr2 + 3)) (mem (addr2 + 2)) (mem (addr2 + 1)) (mem addr2) := h
    obtain ⟨h0, h1, h2, h3⟩ := bytes_be32 (mem (addr1 + 3)) (mem (addr1 + 2)) (mem (addr1 + 1)) (mem addr1)
    obtain ⟨k0, k1, k2, k3⟩ := bytes_be32 (mem (addr2 + 3)) (mem (addr2 + 2)) (mem (addr2 + 1)) (mem addr2)
    rw [hword] at h0 h1 h2 h3
    intro i hi
    interval_cases i
    · rw [add_ofNat_zero, add_ofNat_zero]
      exact h0.symm.trans k0
    · exact h1.symm.trans k1
    · exact h2.symm.trans k2
    · exact h3.symm.trans k3
  · intro h
    have h0 := h 0 (by decide)
    have h1 : mem (addr1 + 1) = mem (addr2 + 1) := h 1 (by decide)
    have h2 : mem (addr1 + 2) = mem (addr2 + 2) := h 2 (by decide)
    have h3 : mem (addr1 + 3) = mem (addr2 + 3) := h 3 (by decide)
    rw [add_ofNat_zero, add_ofNat_zero] at h0
    show be32 _ _ _ _ = be32 _ _ _ _
    rw [h0, h1, h2, h3]

theorem loadByte_within (mem : Memory) (a1 : UInt32) (other : Span) : All (ReadsIn ⟨a1, 1⟩ other) (loadByte mem a1) := by
  intro e he
  rw [List.mem_singleton.mp he]
  exact .inl (mem_start a1 Nat.one_pos)

theorem loadDword_within (mem : Memory) (a1 : UInt32) (other : Span) : All (ReadsIn ⟨a1, 4⟩ other) (loadDword mem a1) := by
  intro e he
  have hlog : e ∈ [ByteAccess.read a1, .read (a1 + 1), .read (a1 + 2), .read (a1 + 3)] := he
  simp only [List.mem_cons, List.not_mem_nil, or_false] at hlog
  rcases hlog with rfl | rfl | rfl | rfl
  · exact .inl (mem_start a1 (by decide))
  · exact .inl (mem_add (by decide : 1 < 4) (by decide))
  · exact .inl (mem_add (by decide : 2 < 4) (by decide))
  · exact .inl (mem_add (by decide : 3 < 4) (by decide))

theorem ReadsIn.symm {s t : Span} {e : ByteAccess} (h : ReadsIn s t e) : ReadsIn t s e := by
  cases e with
  | read a => exact Or.symm h
  | write a => exact h

theorem compares_compareTail (mem : Memory) (addr1 addr2 : UInt32) (k i : Nat) (hk : i + k ≤ 2 ^ 32) :
    Compares mem (addr1 + UInt32.ofNat i) (addr2 + UInt32.ofNat i) k (compareTail mem addr1 addr2 k i) := by
  induction k generalizing i with
  | zero => exact ⟨iff_of_true rfl fun i hi => absurd hi (Nat.not_lt_zero i), all_pure 0⟩
  | succ k ih =>
    have hrest : Compares mem (addr1 + UInt32.ofNat i + UInt32.ofNat 1) (addr2 + UInt32.ofNat i + UInt32.ofNat 1) k
        (compareTail mem addr1 addr2 k (i + 1)) := by
      rw [add_assoc, add_assoc, ← UInt32.ofNat_add]
      exact ih (i + 1) (by omega)
    have hall := Compares.step diff_byte (loadByte_eq_iff mem _ _) (loadByte_within mem _ _)
      (fun e he => (loadByte_within mem _ _ e he).symm) (by omega) hrest
    rwa [Nat.add_comm] at hall

theorem compares_compareDwords (mem : Memory) (numBytes : Nat) (hn : numBytes < 2 ^ 32) (addr1 addr2 : UInt32) (k i : Nat)
    (hk : i + k = numBytes / 4) : Compares mem (addr1 + UInt32.ofNat (i * 4)) (addr2 + UInt32.ofNat (i * 4))
      (numBytes - i * 4) (compareDwords mem numBytes addr1 addr2 k i) := by
  induction k generalizing i with
  | zero => exact compares_compareTail mem addr1 addr2 _ _ (by omega)
  | succ k ih =>
    have hrest : Compares mem (addr1 + UInt32.ofNat (i * 4) + UInt32.ofNat 4) (addr2 + UInt32.ofNat (i * 4) + UInt32.ofNat 4)
        (numBytes - (i + 1) * 4) (compareDwords mem numBytes addr1 addr2 k (i + 1)) := by
      rw [add_assoc, add_assoc, ← UInt32.ofNat_add, ← Nat.succ_mul]
      exact ih (i + 1) (by omega)
    have hall := Compares.step diff_dword (loadDword_eq_iff mem _ _) (loadDword_within mem _ _)
      (fun e he => (loadDword_within mem _ _ e he).symm) (by omega) hrest
    rwa [show 4 + (numBytes - (i + 1) * 4) = numBytes - i * 4 by omega] at hall

theorem compares_aligned (mem : Memory) (n : Nat) (hn : n < 2 ^ 32) (addr1 addr2 : UInt32) :
    Compares mem addr1 addr2 n (compareDwords mem n addr1 addr2 (n / 4) 0) := by
  have hall := compares_compareDwords mem n hn addr1 addr2 (n / 4) 0 (Nat.zero_add _)
  have hzero (base : UInt32) : base + UInt32.ofNat (0 * 4) = base := add_zero base
  rwa [hzero, hzero] at hall

theorem compares_compareHead (mem : Memory) (n : Nat) (hn : n < 2 ^ 32) (addr1 addr2 : UInt32) :
    Compares mem addr1 addr2 n (compareHead mem n addr1 addr2) := by
  induction n generalizing addr1 addr2 with
  | zero => exact compares_aligned mem 0 hn addr1 addr2
  | succ n ih =>
    unfold compareHead
    split
    · exact compares_aligned mem (n + 1) hn addr1 addr2
    · rw [Nat.add_comm n 1]
      exact Compares.step diff_byte (loadByte_eq_iff mem _ _) (loadByte_within mem _ _)
        (fun e he => (loadByte_within mem _ _ e he).symm) (by omega) (ih (by omega) _ _)

theorem compares_memCompare (mem : Memory) (addr1 addr2 numBytes : UInt32) :
    Compares mem addr1 addr2 numBytes.toNat (memCompare mem addr1 addr2 numBytes) := by
  unfold memCompare
  split
  · rename_i hzero
    subst hzero
    exact ⟨iff_of_true rfl fun i hi => absurd hi (Nat.not_lt_zero i), all_pure 0⟩
  · exact compares_compareHead mem numBytes.toNat numBytes.toNat_lt addr1 addr2

/-! ## The three routines -/

theorem unclobbered_of_le (hsource : source.toNat + n ≤ 2 ^ 32) (h : target.toNat ≤ source.toNat) :
    Unclobbered source target n := by
  intro i j hij hj heq
  have hnat := congrArg UInt32.toNat heq
  rw [UInt32.toNat_add, UInt32.toNat_add, UInt32.toNat_ofNat', UInt32.toNat_ofNat'] at hnat
  omega

theorem unclobbered_of_apart (hn : n ≤ 2 ^ 32) (h : Span.Apart ⟨source, n⟩ ⟨target, n⟩) : Unclobbered source target n := by
  intro i j hij hj heq
  refine h (source + UInt32.ofNat j) (mem_add hj hn) ?_
  rw [← heq]
  exact mem_add (by omega) hn

/-- Copying is copying byte by byte, upwards, unless the target overlaps the
source from above; clearing clears exactly the bytes; comparing gives 0 just
for equal bytes. No other byte is read or written. -/
theorem memPrimitives_bytewise (mem : Memory) (addr1 addr2 numBytes : UInt32) (_hn : numBytes.toNat < 2 ^ 31)
    (h1 : addr1.toNat + numBytes.toNat ≤ 2 ^ 32) (_h2 : addr2.toNat + numBytes.toNat ≤ 2 ^ 32) :
    (Span.Apart ⟨addr1, numBytes.toNat⟩ ⟨addr2, numBytes.toNat⟩ ∨ addr2.toNat ≤ addr1.toNat →
      (memCopy mem addr1 addr2 numBytes).val = copyForward mem addr1 addr2 numBytes.toNat) ∧
    All (ReadsWrites ⟨addr1, numBytes.toNat⟩ ⟨addr2, numBytes.toNat⟩) (memCopy mem addr1 addr2 numBytes) ∧
    (memClear mem addr1 numBytes).val = (fun x => if Span.Mem ⟨addr1, numBytes.toNat⟩ x then 0 else mem x) ∧
    All (ReadsWrites ⟨addr1, 0⟩ ⟨addr1, numBytes.toNat⟩) (memClear mem addr1 numBytes) ∧
    ((memCompare mem addr1 addr2 numBytes).val = 0 ↔
      ∀ i, i < numBytes.toNat → mem (addr1 + UInt32.ofNat i) = mem (addr2 + UInt32.ofNat i)) ∧
    All (ReadsIn ⟨addr1, numBytes.toNat⟩ ⟨addr2, numBytes.toNat⟩) (memCompare mem addr1 addr2 numBytes) := by
  have hcopy := copies_memCopy mem addr1 addr2 numBytes
  have hclear := clears_memClear mem addr1 numBytes
  have hcompare := compares_memCompare mem addr1 addr2 numBytes
  have hle := numBytes.toNat_lt.le
  refine ⟨fun h => ?_, hcopy.within, hclear.val, hclear.within, hcompare.val, hcompare.within⟩
  have hun : Unclobbered addr1 addr2 numBytes.toNat := by
    rcases h with hapart | hbelow
    · exact unclobbered_of_apart hle hapart
    · exact unclobbered_of_le h1 hbelow
  rw [hcopy.val hun, copyForward_eq hun hle]

/-- Seven bytes moved down by one, as in scrolling: aligned neither before nor after. -/
theorem memPrimitives_bytewise_overlap :
    (memCopy (fun x => x.toUInt8) 0x1003 0x1002 7).val = copyForward (fun x => x.toUInt8) 0x1003 0x1002 7 ∧
    (memCompare (fun x => x.toUInt8) 0x1003 0x1002 7).val ≠ 0 := by
  obtain ⟨hcopy, _, _, _, hcompare, _⟩ :=
    memPrimitives_bytewise (fun x => x.toUInt8) 0x1003 0x1002 7 (by decide) (by decide) (by decide)
  refine ⟨hcopy (.inr (by decide)), fun h => ?_⟩
  exact absurd (hcompare.mp h 0 (by decide)) (by decide)

end MemPrimitives

end CpuScheduler.L1
