import CpuScheduler.L7Heap.FreeList

/-!
# Allocating from a block

The padding of a request is computed in 32 bits and subtracted from the size of
the block. Where it fits into the block the result is a pointer into the block,
and the rest of the block stays in the free list (`allocate_served`). Where it
does not fit the difference wraps.
-/
namespace CpuScheduler.L7

open Word L3 L4

/-! ## Rounding -/

theorem and_high_bits {n k x : Nat} (hk : k ≤ n) (hx : x < 2 ^ n) : x &&& (2 ^ n - 2 ^ k) = x - x % 2 ^ k := by
  have hpos := Nat.two_pow_pos k
  have hle := Nat.pow_le_pow_right (by decide : 0 < 2) hk
  have hmask : 2 ^ n - 2 ^ k = 2 ^ n - (2 ^ k - 1 + 1) := by omega
  have hround : x - x % 2 ^ k = 2 ^ k * (x / 2 ^ k) := by
    have := Nat.div_add_mod x (2 ^ k)
    omega
  rw [hmask, hround]
  apply Nat.eq_of_testBit_eq
  intro i
  rw [Nat.testBit_and, Nat.testBit_two_pow_sub_succ (by omega), Nat.testBit_two_pow_sub_one, Nat.testBit_two_pow_mul,
    Nat.testBit_div_two_pow]
  by_cases hi : k ≤ i
  · have hik : i - k + k = i := by omega
    rw [hik]
    by_cases hin : i < n
    · simp [hi, hin, Nat.not_lt.mpr hi]
    · have hzero : x.testBit i = false := by
        apply Nat.testBit_lt_two_pow
        exact hx.trans_le (Nat.pow_le_pow_right (by decide) (Nat.not_lt.mp hin))
      simp [hzero]
  · simp [hi, Nat.not_le.mp hi]

theorem toNat_and_fffffffc (x : UInt32) : (x &&& 0xFFFFFFFC).toNat = x.toNat - x.toNat % 4 := by
  rw [UInt32.toNat_and]
  exact and_high_bits (by decide : 2 ≤ 32) x.toNat_lt

theorem toNat_and_not {alignment : UInt32} {k : Nat} (hk : alignment.toNat = 2 ^ k) (x : UInt32) :
    (x &&& ~~~(alignment - 1)).toNat = x.toNat - x.toNat % alignment.toNat := by
  have hlt := alignment.toNat_lt
  have hpos := Nat.two_pow_pos k
  have hk32 : k ≤ 32 := by
    rw [hk] at hlt
    exact (Nat.pow_lt_pow_iff_right (by decide)).mp hlt |>.le
  have hmask : (~~~(alignment - 1)).toNat = 2 ^ 32 - 2 ^ k := by
    rw [UInt32.toNat_not, UInt32.toNat_sub_of_le _ _ (by rw [UInt32.le_iff_toNat_le, hk]; exact hpos), hk]
    show 2 ^ 32 - 1 - (2 ^ k - 1) = _
    omega
  rw [UInt32.toNat_and, hmask, hk]
  exact and_high_bits hk32 x.toNat_lt

/-- The bytes from `address` to the next multiple of `alignment`. -/
def paddingTo (alignment address : Nat) : Nat := (alignment - address % alignment) % alignment

theorem paddingTo_lt {alignment : Nat} (h : 0 < alignment) (address : Nat) : paddingTo alignment address < alignment :=
  Nat.mod_lt _ h

theorem dvd_add_paddingTo {alignment : Nat} (hpos : 0 < alignment) (address : Nat) :
    alignment ∣ address + paddingTo alignment address := by
  have hlt := Nat.mod_lt address hpos
  have hdiv := Nat.div_add_mod address alignment
  unfold paddingTo
  rcases Nat.eq_zero_or_pos (address % alignment) with hz | hz
  · rw [hz, Nat.sub_zero, Nat.mod_self, Nat.add_zero]
    exact Nat.dvd_of_mod_eq_zero hz
  · rw [Nat.mod_eq_of_lt (by omega)]
    refine ⟨address / alignment + 1, ?_⟩
    rw [Nat.mul_add, Nat.mul_one]
    omega

/-- Adding `alignment - 1` and rounding down is rounding up. -/
theorem round_up {alignment : Nat} (hpos : 0 < alignment) (address : Nat) :
    address + alignment - 1 - (address + alignment - 1) % alignment = address + paddingTo alignment address := by
  have hlt := Nat.mod_lt address hpos
  have hdiv := Nat.div_add_mod address alignment
  unfold paddingTo
  rcases Nat.eq_zero_or_pos (address % alignment) with hz | hz
  · have hmod : (address + alignment - 1) % alignment = alignment - 1 := by
      rw [← hdiv, hz, Nat.add_zero, Nat.add_sub_assoc hpos, Nat.mul_add_mod]
      exact Nat.mod_eq_of_lt (by omega)
    rw [hmod, hz, Nat.sub_zero, Nat.mod_self]
    omega
  · have hmod : (address + alignment - 1) % alignment = address % alignment - 1 := by
      have hsum : address + alignment - 1 = alignment * (address / alignment + 1) + (address % alignment - 1) := by
        rw [Nat.mul_add, Nat.mul_one]
        omega
      rw [hsum, Nat.mul_add_mod]
      exact Nat.mod_eq_of_lt (by omega)
    rw [hmod, Nat.mod_eq_of_lt (by omega : alignment - address % alignment < alignment)]
    omega

namespace MemoryManager

section
variable {alignment : UInt32} {k : Nat}

/-- The address that is handed out, before it wraps. -/
theorem toNat_alignedAddr (hk : alignment.toNat = 2 ^ k) (p : UInt32) : (alignedAddr alignment p).toNat =
    ((p + HEADER_SIZE).toNat + paddingTo alignment.toNat (p + HEADER_SIZE).toNat) % 2 ^ 32 := by
  have hlt := alignment.toNat_lt
  have hpos : 0 < alignment.toNat := hk ▸ Nat.two_pow_pos k
  have hk32 : k ≤ 32 := by
    rw [hk] at hlt
    exact ((Nat.pow_lt_pow_iff_right (by decide)).mp hlt).le
  have hdvd : alignment.toNat ∣ 2 ^ 32 := hk ▸ Nat.pow_dvd_pow 2 hk32
  have hc := (p + HEADER_SIZE).toNat_lt
  unfold alignedAddr
  rw [toNat_and_not hk, ← round_up hpos]
  generalize (p + HEADER_SIZE) = c at hc ⊢
  have hsum : (c + alignment - 1).toNat = (c.toNat + alignment.toNat - 1) % 2 ^ 32 := by
    rw [UInt32.toNat_sub, UInt32.toNat_add]
    show (2 ^ 32 - 1 + (c.toNat + alignment.toNat) % 2 ^ 32) % 2 ^ 32 = _
    omega
  have hmod : (c.toNat + alignment.toNat - 1) % 2 ^ 32 % alignment.toNat = (c.toNat + alignment.toNat - 1) % alignment.toNat :=
    Nat.mod_mod_of_dvd _ hdvd
  have hle := Nat.mod_le ((c.toNat + alignment.toNat - 1) % 2 ^ 32) alignment.toNat
  rw [hsum, hmod]
  rw [hmod] at hle
  omega

theorem toNat_padding (hk : alignment.toNat = 2 ^ k) (p : UInt32) :
    (padding alignment p).toNat = paddingTo alignment.toNat (p + HEADER_SIZE).toNat := by
  have hpos : 0 < alignment.toNat := hk ▸ Nat.two_pow_pos k
  have hlt := alignment.toNat_lt
  have hpad := paddingTo_lt hpos (p + HEADER_SIZE).toNat
  have hc := (p + HEADER_SIZE).toNat_lt
  unfold padding
  rw [UInt32.toNat_sub, toNat_alignedAddr hk]
  omega

theorem isPowerOfTwo_of_validRequest {numBytes : UInt32} (h : validRequest alignment numBytes = true) :
    0 < numBytes.toNat ∧ ∃ k, alignment.toNat = 2 ^ k := by
  unfold validRequest at h
  simp only [Bool.and_eq_true, decide_eq_true_eq] at h
  obtain ⟨⟨hbytes, hand⟩, hne⟩ := h
  have hne' : alignment.toNat ≠ 0 := fun h0 => hne (UInt32.toNat_inj.mp h0)
  have hpos : 1 ≤ alignment.toNat := Nat.one_le_iff_ne_zero.mpr hne'
  refine ⟨Nat.pos_of_ne_zero fun h0 => hbytes (UInt32.toNat_inj.mp h0), ?_⟩
  have hzero : alignment.toNat &&& (alignment.toNat - 1) = 0 := by
    have hand' := congrArg UInt32.toNat hand
    rw [UInt32.toNat_and, UInt32.toNat_sub_of_le _ _ (by rw [UInt32.le_iff_toNat_le]; exact hpos)] at hand'
    exact hand'
  exact (Nat.and_sub_one_eq_zero_iff_isPowerOfTwo hne').mp hzero

end

end MemoryManager

/-! ## Allocations -/

/-- A pointer that was handed out, for how many bytes, and from which block. -/
structure Allocation where
  block : Extent Nat
  pointer : UInt32
  numBytes : UInt32
  deriving DecidableEq

/-- The bytes of an allocation that belong to its owner. -/
def Allocation.Owns (a : Allocation) (x : Nat) : Prop := a.pointer.toNat ≤ x ∧ x < a.pointer.toNat + a.numBytes.toNat

/-- How the memory of an allocation looks: behind the size there are zeros up to
the pointer. -/
structure Allocated (mem : Mem) (a : Allocation) : Prop where
  isBlock : IsBlock a.block
  header : blockAt mem (address a.block) = a.block
  start : a.block.lo + 8 ≤ a.pointer.toNat
  zeros : ∀ x : UInt32, a.block.lo + 4 ≤ x.toNat → x.toNat < a.pointer.toNat → mem x = 0
  fits : a.pointer.toNat + a.numBytes.toNat ≤ a.block.hi
  pos : 0 < a.numBytes.toNat

theorem Allocated.mem_of_owns {mem : Mem} {a : Allocation} (h : Allocated mem a) {x : Nat} (hx : a.Owns x) :
    x ∈ a.block := by
  have h1 := h.start
  have h2 := h.fits
  obtain ⟨h3, h4⟩ := hx
  exact ⟨by omega, by omega⟩

/-- The owner may write its bytes. -/
theorem Allocated.congr {mem mem' : Mem} {a : Allocation} (h : Allocated mem a)
    (hsame : ∀ x : UInt32, x.toNat ∈ a.block → ¬ a.Owns x.toNat → mem' x = mem x) : Allocated mem' a := by
  have h1 := h.start
  have h2 := h.fits
  have h3 := h.isBlock.header
  refine ⟨h.isBlock, ?_, h.start, fun x hx1 hx2 => ?_, h.fits, h.pos⟩
  · refine (blockAt_congr h.isBlock h.header fun x hx => hsame x (h.isBlock.mem_of_inHeader hx) ?_).1
    intro ho
    have hlt := hx.2
    have hge := ho.1
    omega
  · rw [hsame x ⟨by omega, by omega⟩ fun ho => absurd ho.1 (Nat.not_le.mpr hx2)]
    exact h.zeros x hx1 hx2

theorem scanBack_zeros {mem : Mem} {x : UInt32} (hx : mem x ≠ 0) {n fuel : Nat} (hn : x.toNat + n < 2 ^ 32)
    (hz : ∀ y : UInt32, x.toNat < y.toNat → y.toNat ≤ x.toNat + n → mem y = 0) (hfuel : n < fuel) :
    scanBack mem fuel (x + UInt32.ofNat n) = some x := by
  induction n generalizing fuel with
  | zero =>
    obtain ⟨fuel, rfl⟩ : ∃ m, fuel = m + 1 := ⟨fuel - 1, by omega⟩
    have h0 : x + UInt32.ofNat 0 = x := add_zero x
    rw [h0, scanBack, if_neg hx]
  | succ n ih =>
    obtain ⟨fuel, rfl⟩ : ∃ m, fuel = m + 1 := ⟨fuel - 1, by omega⟩
    have hnat : (x + UInt32.ofNat (n + 1)).toNat = x.toNat + (n + 1) := by
      rw [UInt32.toNat_add, UInt32.toNat_ofNat']
      omega
    have hback : x + UInt32.ofNat (n + 1) - 1 = x + UInt32.ofNat n := by
      rw [UInt32.ofNat_add, ← add_assoc]
      exact add_sub_cancel_right _ _
    rw [scanBack, if_pos (hz _ (by omega) (by omega)), hback]
    exact ih (by omega) (fun y h1 h2 => hz y h1 (by omega)) (by omega)

/-- A word that is not zero has a last byte that is not zero. -/
theorem exists_last_byte {mem : Mem} {p : UInt32} (hp : p.toNat + 4 ≤ 2 ^ 32) (h : readWord mem p ≠ 0) :
    ∃ x : UInt32, p.toNat ≤ x.toNat ∧ x.toNat < p.toNat + 4 ∧ mem x ≠ 0 ∧
      ∀ y : UInt32, x.toNat < y.toNat → y.toNat < p.toNat + 4 → mem y = 0 := by
  by_contra hnone
  push Not at hnone
  -- from the last byte down, each one is zero
  have hzero (n : Nat) : ∀ y : UInt32, p.toNat ≤ y.toNat → y.toNat < p.toNat + 4 → p.toNat + 4 ≤ y.toNat + n →
      mem y = 0 := by
    induction n with
    | zero => intro y _ h2 h3; omega
    | succ n ih =>
      intro y h1 h2 h3
      by_contra hy
      obtain ⟨z, hz1, hz2, hz3⟩ := hnone y h1 h2 hy
      exact hz3 (ih z (by omega) hz2 (by omega))
  apply h
  have hsame : readWord mem p = readWord (fun _ => 0) p :=
    readWord_eq hp fun x h1 h2 => hzero 4 x h1 h2 (by omega)
  rw [hsame]
  show be32 0 0 0 0 = 0
  decide

namespace MemoryManager

theorem headerOf_spec {s : MemoryManager} {a : Allocation} (h : Allocated s.mem a) :
    s.headerOf a.pointer = some (address a.block) := by
  have hn := h.isBlock.toNat_address
  have hmod := h.isBlock.lo_mod
  have hstart := h.start
  have hheader := h.isBlock.header
  have hlt := a.pointer.toNat_lt
  have hsize : readWord s.mem (address a.block) ≠ 0 := by
    intro h0
    have hhi : (address a.block).toNat + 8 + (size s.mem (address a.block)).toNat = a.block.hi :=
      congrArg Extent.hi h.header
    have h0' : (size s.mem (address a.block)).toNat = 0 := congrArg UInt32.toNat h0
    omega
  obtain ⟨x, hx1, hx2, hx, hafter⟩ := exists_last_byte (by omega) hsize
  have hback : a.pointer - 1 = x + UInt32.ofNat (a.pointer.toNat - 1 - x.toNat) := by
    apply UInt32.toNat_inj.mp
    rw [UInt32.toNat_sub, UInt32.toNat_add, UInt32.toNat_ofNat']
    show (2 ^ 32 - 1 + a.pointer.toNat) % 2 ^ 32 = _
    omega
  have hscan : scanBack s.mem numAddresses (a.pointer - 1) = some x := by
    rw [hback]
    refine scanBack_zeros hx (by omega) (fun y h1 h2 => ?_) (by unfold numAddresses; omega)
    by_cases hy : y.toNat < (address a.block).toNat + 4
    · exact hafter y h1 hy
    · exact h.zeros y (by omega) (by omega)
  unfold headerOf
  rw [hscan, Option.map_some]
  congr 1
  apply UInt32.toNat_inj.mp
  rw [toNat_and_fffffffc, hn]
  omega

/-! ## Serving a request -/

/-- The address that a request gets in the block `i`. -/
def pointerIn (alignment : UInt32) (i : Extent Nat) : Nat := i.lo + 8 + paddingTo alignment.toNat (i.lo + 8)

/-- Where the rest of the block would begin. -/
def restIn (alignment numBytes : UInt32) (i : Extent Nat) : Nat :=
  pointerIn alignment i + numBytes.toNat + 3 - (pointerIn alignment i + numBytes.toNat + 3) % 4

/-- The block has room for the padding and the bytes. -/
def HasRoom (alignment numBytes : UInt32) (i : Extent Nat) : Prop := pointerIn alignment i + numBytes.toNat ≤ i.hi

section
variable {mem : Mem} {alignment numBytes : UInt32} {i : Extent Nat} {k : Nat}

theorem toNat_payload (hi : IsBlock i) : (address i + HEADER_SIZE).toNat = i.lo + 8 := by
  have h1 := hi.header
  have h2 := hi.hi_le
  rw [UInt32.toNat_add, hi.toNat_address]
  show (i.lo + 8) % 2 ^ 32 = _
  omega

theorem toNat_size_of_blockAt (hat : blockAt mem (address i) = i) (hi : IsBlock i) :
    (size mem (address i)).toNat = i.hi - (i.lo + 8) := by
  have hhi : (address i).toNat + 8 + (size mem (address i)).toNat = i.hi := congrArg Extent.hi hat
  rw [hi.toNat_address] at hhi
  omega

/-- The test of the loop. It is right if the padding fits into the block. -/
theorem fits_iff (hat : blockAt mem (address i) = i) (hi : IsBlock i) (hk : alignment.toNat = 2 ^ k)
    (hpad : padding alignment (address i) ≤ size mem (address i)) :
    size mem (address i) - padding alignment (address i) ≥ numBytes ↔ HasRoom alignment numBytes i := by
  have h1 := hi.header
  have hsize := toNat_size_of_blockAt hat hi
  rw [ge_iff_le, UInt32.le_iff_toNat_le, UInt32.toNat_sub_of_le _ _ hpad]
  rw [UInt32.le_iff_toNat_le] at hpad
  rw [toNat_padding hk, toNat_payload hi, hsize] at hpad ⊢
  unfold HasRoom pointerIn
  omega

/-- A block with room passes the test. -/
theorem fits_of_hasRoom (hat : blockAt mem (address i) = i) (hi : IsBlock i) (hk : alignment.toNat = 2 ^ k)
    (h : HasRoom alignment numBytes i) : size mem (address i) - padding alignment (address i) ≥ numBytes := by
  refine (fits_iff hat hi hk ?_).mpr h
  rw [UInt32.le_iff_toNat_le, toNat_padding hk, toNat_payload hi, toNat_size_of_blockAt hat hi]
  unfold HasRoom pointerIn at h
  omega

theorem toNat_pointer (hi : IsBlock i) (hk : alignment.toNat = 2 ^ k) (hn : 0 < numBytes.toNat)
    (h : HasRoom alignment numBytes i) : (alignedAddr alignment (address i)).toNat = pointerIn alignment i := by
  have h2 := hi.hi_le
  unfold HasRoom at h
  rw [toNat_alignedAddr hk, toNat_payload hi]
  show pointerIn alignment i % 2 ^ 32 = _
  omega

theorem dvd_pointerIn (hk : alignment.toNat = 2 ^ k) : alignment.toNat ∣ pointerIn alignment i :=
  dvd_add_paddingTo (hk ▸ Nat.two_pow_pos k) _

theorem restIn_spec (hi : IsBlock i) (h : HasRoom alignment numBytes i) :
    restIn alignment numBytes i % 4 = 0 ∧ pointerIn alignment i + numBytes.toNat ≤ restIn alignment numBytes i ∧
      restIn alignment numBytes i ≤ i.hi := by
  have hmod := hi.hi_mod
  unfold HasRoom at h
  unfold restIn
  omega

theorem toNat_possibleNextHeader (hi : IsBlock i) (hk : alignment.toNat = 2 ^ k) (hn : 0 < numBytes.toNat)
    (h : HasRoom alignment numBytes i) :
    (possibleNextHeader alignment numBytes (address i)).toNat = restIn alignment numBytes i % 2 ^ 32 := by
  have h2 := hi.hi_le
  have hmod := hi.hi_mod
  have hp := toNat_pointer hi hk hn h
  unfold HasRoom at h
  unfold possibleNextHeader restIn
  rw [toNat_and_fffffffc, UInt32.toNat_add, UInt32.toNat_add, hp]
  show ((pointerIn alignment i + numBytes.toNat) % 2 ^ 32 + 3) % 2 ^ 32 -
    ((pointerIn alignment i + numBytes.toNat) % 2 ^ 32 + 3) % 2 ^ 32 % 4 = _
  omega

/-- What the request and a header would take of the block. -/
theorem toNat_used (hi : IsBlock i) (hk : alignment.toNat = 2 ^ k) (hn : 0 < numBytes.toNat)
    (h : HasRoom alignment numBytes i) :
    (possibleNextHeader alignment numBytes (address i) + HEADER_SIZE - (address i + HEADER_SIZE)).toNat =
      restIn alignment numBytes i - i.lo := by
  have hpos := hi.pos
  have h2 := hi.hi_le
  have hmod := hi.lo_mod
  obtain ⟨_, hle, hend⟩ := restIn_spec hi h
  have hptr : i.lo + 8 ≤ pointerIn alignment i := Nat.le_add_right _ _
  rw [UInt32.toNat_sub, toNat_payload hi, UInt32.toNat_add, toNat_possibleNextHeader hi hk hn h]
  show (2 ^ 32 - (i.lo + 8) + (restIn alignment numBytes i % 2 ^ 32 + 8) % 2 ^ 32) % 2 ^ 32 = _
  omega

end

/-- The block `i` is divided into `b`, and `rest` behind it. -/
structure Divided (i b : Extent Nat) (rest : List (Extent Nat)) : Prop where
  lo : b.lo = i.lo
  isBlock : IsBlock b
  covers : ∀ x, x ∈ i ↔ x ∈ b ∨ Covers rest x
  behind : ∀ j ∈ rest, IsBlock j ∧ b.hi ≤ j.lo ∧ j.hi = i.hi
  length : rest.length ≤ 1

theorem Divided.whole {i : Extent Nat} (hi : IsBlock i) : Divided i i [] :=
  ⟨rfl, hi, by simp, by simp, by simp⟩

theorem Divided.at {i : Extent Nat} (hi : IsBlock i) {n : Nat} (hmod : n % 4 = 0) (h1 : i.lo + 8 < n) (h2 : n + 8 < i.hi) :
    Divided i ⟨i.lo, n, by omega⟩ [⟨n, i.hi, by omega⟩] := by
  have hpos := hi.pos
  have hend := hi.hi_le
  refine ⟨rfl, ⟨hi.pos, hi.lo_mod, hmod, h1, by show n ≤ _; omega⟩, fun x => ?_, ?_, by simp⟩
  · simp only [Extent.mem_def, covers_cons, covers_nil, or_false]
    omega
  · intro j hj
    cases List.mem_singleton.mp hj
    exact ⟨⟨by show 0 < n; omega, hmod, hi.hi_mod, h2, hend⟩, le_refl n, rfl⟩

theorem Divided.separated {i b : Extent Nat} {before rest after : List (Extent Nat)} (h : Divided i b rest)
    (hs : Separated (before ++ i :: after)) : Separated (before ++ (rest ++ after)) := by
  have hb := b.lo_lt_hi
  have hlo := h.lo
  obtain ⟨h1, h2, h3⟩ := List.pairwise_append.mp hs
  obtain ⟨h4, h5⟩ := List.pairwise_cons.mp h2
  have hrest : Separated rest := by
    have hlen := h.length
    match rest with
    | [] => exact List.Pairwise.nil
    | [j] => exact List.pairwise_singleton _ _
  refine List.pairwise_append.mpr ⟨h1, List.pairwise_append.mpr ⟨hrest, h5, fun j hj k hk => ?_⟩, fun j hj k hk => ?_⟩
  · rw [(h.behind j hj).2.2]
    exact h4 k hk
  · rcases List.mem_append.mp hk with hk | hk
    · have hji := h3 j hj i (by simp)
      have hbk := (h.behind k hk).2.1
      omega
    · exact h3 j hj k (by simp [hk])

section
variable {s : MemoryManager} {before after : List (Extent Nat)} {i : Extent Nat} {alignment numBytes : UInt32} {k : Nat}

/-- The parts of the list around a block. -/
theorem FreeBlocks.around (h : FreeBlocks s (before ++ i :: after)) :
    Chain s.mem s.freeList before (address i) ∧ blockAt s.mem (address i) = i ∧
      Chain s.mem (next s.mem (address i)) after 0 := by
  obtain ⟨r, hfirst, hat, hrest⟩ := chain_append.mp h.chain
  have hr := address_of_blockAt hat
  subst hr
  exact ⟨hfirst, hat, hrest⟩

/-- The whole block is taken out of the list. -/
theorem unlink_spec (h : FreeBlocks s (before ++ i :: after)) :
    FreeBlocks (s.relink (lastOf 0 before) (next s.mem (address i))) (before ++ after) ∧
      ∀ x, (∀ j ∈ before, ¬ InHeader j x) →
        (s.relink (lastOf 0 before) (next s.mem (address i))).mem x = s.mem x := by
  obtain ⟨hfirst, _, hrest⟩ := FreeBlocks.around h
  have hl : ∀ j ∈ before ++ after, IsBlock j := by
    intro j hj
    refine h.isBlock j ?_
    rw [List.mem_append] at hj ⊢
    exact hj.imp_right (List.mem_cons_of_mem i)
  have hs : Separated (before ++ after) :=
    (Divided.whole (h.isBlock i (by simp))).separated h.separated
  obtain ⟨hchain, hframe⟩ := chain_splice hfirst hrest hl hs.ordered
  exact ⟨⟨hchain, hl, hs⟩, hframe⟩

theorem FreeBlocks.congr {l : List (Extent Nat)} {mem : Mem} (h : FreeBlocks s l)
    (hsame : ∀ j ∈ l, ∀ x, InHeader j x → mem x = s.mem x) : FreeBlocks { s with mem := mem } l :=
  ⟨h.chain.congr h.isBlock hsame, h.isBlock, h.separated⟩

/-- The blocks of a separated list in front of one and behind it. -/
theorem FreeBlocks.not_mem_of_inHeader (h : FreeBlocks s (before ++ i :: after)) {j : Extent Nat}
    (hj : j ∈ before ++ after) {x : UInt32} (hx : InHeader j x) : x.toNat ∉ i := by
  obtain ⟨_, h2, h3⟩ := List.pairwise_append.mp h.separated
  have hx1 := hx.1
  have hx2 := hx.2
  rw [Extent.mem_def]
  rcases List.mem_append.mp hj with hj | hj
  · have hji := h3 j hj i (by simp)
    have hlt := (h.isBlock j (by simp [hj])).header
    omega
  · have hij := (List.pairwise_cons.mp h2).1 j hj
    omega

/-- The header of the rest is in the rest; it has the next block of `i`. -/
theorem writeHeader_spec {i r : Extent Nat} (hi : IsBlock i) (hr : IsBlock r) (hle : i.lo + 8 ≤ r.lo) (mem : Mem)
    {v : UInt32} (hv : r.lo + 8 + v.toNat = r.hi) :
    blockAt (writeHeader mem (address r) v (address i)) (address r) = r ∧
      next (writeHeader mem (address r) v (address i)) (address r) = next mem (address i) ∧
      ∀ x, ¬ InHeader r x → writeHeader mem (address r) v (address i) x = mem x := by
  have hni := hi.toNat_address
  have hnr := hr.toNat_address
  have hr1 := hr.header
  have hr2 := hr.hi_le
  have hend : (address r).toNat + 8 ≤ 2 ^ 32 := by omega
  unfold writeHeader
  refine ⟨Extent.ext hnr ?_, ?_, fun x hx => ?_⟩
  · show (address r).toNat + 8 + (size _ _).toNat = r.hi
    rw [size_setNext hend, size_setSize, hnr, hv]
  · dsimp only
    rw [next_setNext]
    refine next_congr (by omega) fun x _ hx => setSize_outside hend (.inl ?_)
    omega
  · unfold InHeader at hx
    rw [setNext_outside hend (by omega), setSize_outside hend (by omega)]

/-- The end `r` of the block stays in the list, with a header of its own. -/
theorem cut_spec (h : FreeBlocks s (before ++ i :: after)) {b r : Extent Nat} (hd : Divided i b [r]) {v : UInt32}
    (hv : r.lo + 8 + v.toNat = r.hi) {t : MemoryManager}
    (ht : t = relink { s with mem := writeHeader s.mem (address r) v (address i) } (lastOf 0 before) (address r)) :
    FreeBlocks t (before ++ r :: after) ∧
      ∀ x, (∀ j ∈ before, ¬ InHeader j x) → ¬ InHeader r x → t.mem x = s.mem x := by
  obtain ⟨hfirst, _, hrest⟩ := FreeBlocks.around h
  obtain ⟨hr, hbr, hri⟩ := hd.behind r (by simp)
  have hb := hd.isBlock.header
  have hblo := hd.lo
  have hr1 := hr.header
  have hl : ∀ j ∈ before ++ r :: after, IsBlock j := by
    intro j hj
    rw [List.mem_append, List.mem_cons] at hj
    rcases hj with hj | rfl | hj
    · exact h.isBlock j (by simp [hj])
    · exact hr
    · exact h.isBlock j (by simp [hj])
  have hs : Separated (before ++ r :: after) := hd.separated h.separated
  obtain ⟨hat, hnext, hout⟩ := writeHeader_spec (h.isBlock i (by simp)) hr (by omega) s.mem hv
  have hother {j : Extent Nat} (hj : j ∈ before ++ after) {x : UInt32} (hx : InHeader j x) : ¬ InHeader r x := by
    intro hxr
    refine FreeBlocks.not_mem_of_inHeader h hj hx ⟨?_, ?_⟩
    · have := hxr.1
      omega
    · have := hxr.2
      omega
  have hfirst' : Chain (writeHeader s.mem (address r) v (address i)) s.freeList before (address i) :=
    hfirst.congr (fun j hj => hl j (by simp [hj])) fun j hj x hx => hout x (hother (by simp [hj]) hx)
  have hrest' : Chain (writeHeader s.mem (address r) v (address i)) (address r) (r :: after) 0 := by
    refine ⟨hat, ?_⟩
    rw [hnext]
    exact hrest.congr (fun j hj => hl j (by simp [hj])) fun j hj x hx => hout x (hother (by simp [hj]) hx)
  obtain ⟨hchain, hframe⟩ := chain_splice (s := { s with mem := writeHeader s.mem (address r) v (address i) })
    hfirst' hrest' hl hs.ordered
  rw [← ht] at hchain hframe
  exact ⟨⟨hchain, hl, hs⟩, fun x hx hxr => (hframe x hx).trans (hout x hxr)⟩

/-- The size of the block that is served is changed. -/
theorem shorten_spec (h : FreeBlocks s (before ++ i :: after)) {b r : Extent Nat} (hd : Divided i b [r])
    {t : MemoryManager} (ht : FreeBlocks t (before ++ r :: after)) {w : UInt32} (hw : i.lo + 8 + w.toNat = b.hi) :
    FreeBlocks { t with mem := setSize t.mem (address i) w } (before ++ r :: after) ∧
      blockAt (setSize t.mem (address i) w) (address i) = b ∧
      ∀ x, x.toNat ∉ i → setSize t.mem (address i) w x = t.mem x := by
  have hi := h.isBlock i (by simp)
  have hni := hi.toNat_address
  have hheader := hi.header
  have hend := hi.hi_le
  have hb := hd.isBlock.header
  have hblo := hd.lo
  have hbr := (hd.behind r (by simp)).2.1
  have hout {x : UInt32} (hx : x.toNat < i.lo ∨ i.lo + 4 ≤ x.toNat) : setSize t.mem (address i) w x = t.mem x :=
    setSize_outside (by omega) (by omega)
  refine ⟨FreeBlocks.congr ht fun j hj x hx => hout ?_, Extent.ext ?_ ?_, fun x hx => hout ?_⟩
  · have hx1 := hx.1
    rw [List.mem_append, List.mem_cons] at hj
    rcases hj with hj | rfl | hj
    · have hxi := FreeBlocks.not_mem_of_inHeader h (by simp [hj]) hx
      rw [Extent.mem_def] at hxi
      omega
    · omega
    · have hxi := FreeBlocks.not_mem_of_inHeader h (by simp [hj]) hx
      rw [Extent.mem_def] at hxi
      omega
  · show (address i).toNat = b.lo
    omega
  · show (address i).toNat + 8 + (size _ _).toNat = b.hi
    rw [size_setSize, hni, hw]
  · rw [Extent.mem_def] at hx
    omega

/-- The list after `split`, and the block that is served. -/
theorem split_spec (h : FreeBlocks s (before ++ i :: after)) (hk : alignment.toNat = 2 ^ k) (hn : 0 < numBytes.toNat)
    (hroom : HasRoom alignment numBytes i) : ∃ b rest, Divided i b rest ∧
      pointerIn alignment i + numBytes.toNat ≤ b.hi ∧
      FreeBlocks (s.split alignment numBytes (lastOf 0 before) (address i)) (before ++ (rest ++ after)) ∧
      blockAt (s.split alignment numBytes (lastOf 0 before) (address i)).mem (address i) = b ∧
      ∀ x, (∀ j ∈ before, ¬ InHeader j x) → x.toNat ∉ i →
        (s.split alignment numBytes (lastOf 0 before) (address i)).mem x = s.mem x := by
  have hi := h.isBlock i (by simp)
  have hat := (FreeBlocks.around h).2.1
  have hptr : i.lo + 8 ≤ pointerIn alignment i := Nat.le_add_right _ _
  have hsize := toNat_size_of_blockAt hat hi
  have hused := toNat_used hi hk hn hroom
  have hni := hi.toNat_address
  have hheader := hi.header
  have hend := hi.hi_le
  obtain ⟨hmod, hle, hrest⟩ := restIn_spec hi hroom
  unfold split
  dsimp only
  by_cases hcut : restIn alignment numBytes i + 8 < i.hi
  · -- the rest gets a header
    have htest : possibleNextHeader alignment numBytes (address i) + HEADER_SIZE - (address i + HEADER_SIZE) <
        size s.mem (address i) := by
      rw [UInt32.lt_iff_toNat_lt, hused, hsize]
      omega
    have hd := Divided.at hi hmod (by omega) hcut
    have hr := (hd.behind _ (List.mem_singleton_self _)).1
    have hpRest : possibleNextHeader alignment numBytes (address i) = address _ :=
      UInt32.toNat_inj.mp (by
        rw [toNat_possibleNextHeader hi hk hn hroom, hr.toNat_address]
        exact Nat.mod_eq_of_lt (by omega))
    rw [if_pos htest]
    refine ⟨_, _, hd, hle, ?_⟩
    have hv : restIn alignment numBytes i + 8 + (size s.mem (address i) - (possibleNextHeader alignment numBytes (address i) +
        HEADER_SIZE - (address i + HEADER_SIZE))).toNat = i.hi := by
      rw [UInt32.toNat_sub_of_le _ _ (UInt32.le_of_lt htest), hused, hsize]
      omega
    have hw : i.lo + 8 + (possibleNextHeader alignment numBytes (address i) - (address i + HEADER_SIZE)).toNat =
        restIn alignment numBytes i := by
      rw [UInt32.toNat_sub, toNat_possibleNextHeader hi hk hn hroom, toNat_payload hi]
      omega
    rw [hpRest] at hv hw ⊢
    obtain ⟨hfree, hframe⟩ := cut_spec h hd hv rfl
    obtain ⟨hfree', hat', hframe'⟩ := shorten_spec h hd hfree hw
    refine ⟨hfree', hat', fun x hx hxi => (hframe' x hxi).trans (hframe x hx fun hxr => hxi ?_)⟩
    exact ((hd.covers x.toNat).mpr (.inr (covers_of_mem (List.mem_singleton_self _) (hr.mem_of_inHeader hxr))))
  · -- the whole block is served
    have htest : ¬ possibleNextHeader alignment numBytes (address i) + HEADER_SIZE - (address i + HEADER_SIZE) <
        size s.mem (address i) := by
      rw [UInt32.lt_iff_toNat_lt, hused, hsize]
      omega
    rw [if_neg htest]
    obtain ⟨hfree, hframe⟩ := unlink_spec h
    refine ⟨i, [], .whole hi, hroom, hfree, ?_, fun x hx _ => hframe x hx⟩
    refine (blockAt_congr hi hat fun x hx => hframe x fun j hj hxj => ?_).1
    exact FreeBlocks.not_mem_of_inHeader h (by simp [hj]) hxj (hi.mem_of_inHeader hx)

/-- Zeros from behind the size to the pointer, and nothing else. -/
theorem clearPadding_spec (hi : IsBlock i) (hk : alignment.toNat = 2 ^ k) (hn : 0 < numBytes.toNat)
    (hroom : HasRoom alignment numBytes i) (mem : Mem) (x : UInt32) : clearPadding mem alignment (address i) x =
      if i.lo + 4 ≤ x.toNat ∧ x.toNat < pointerIn alignment i then 0 else mem x := by
  have hni := hi.toNat_address
  have hheader := hi.header
  have hend := hi.hi_le
  have hptr : i.lo + 8 ≤ pointerIn alignment i := Nat.le_add_right _ _
  have hp := toNat_payload hi
  have h4 : (address i + 4).toNat = i.lo + 4 := by rw [toNat_add_four (by omega), hni]
  have hcount : (alignedAddr alignment (address i)).toNat - (address i + HEADER_SIZE).toNat =
      pointerIn alignment i - (i.lo + 8) := by rw [toNat_pointer hi hk hn hroom, hp]
  unfold HasRoom at hroom
  unfold clearPadding
  rw [hcount]
  by_cases hpad : i.lo + 8 ≤ x.toNat ∧ x.toNat < pointerIn alignment i
  · rw [if_pos (by omega)]
    exact writeBytes_inside (by omega) (by omega) (by omega)
  · rw [writeBytes_outside (by omega) (by omega)]
    by_cases hnext : i.lo + 4 ≤ x.toNat ∧ x.toNat < i.lo + 8
    · rw [if_pos (by omega)]
      unfold setNext writeWord
      have hzero : (fun k : Nat => ((0 : UInt32) >>> (8 * UInt32.ofNat k)).toUInt8) = fun _ => 0 := by
        funext k
        rw [UInt32.zero_shiftRight]
        rfl
      rw [hzero]
      exact writeBytes_inside (by omega) (by omega) (by omega)
    · rw [if_neg (by omega), setNext_outside (by omega) (by omega)]

/-- The block that `findBlock` finds is the first one that passes the test. -/
theorem findBlock_spec {l : List (Extent Nat)} (h : FreeBlocks s l) (alignment numBytes : UInt32) :
    ∃ before after cur, l = before ++ after ∧
      s.findBlock alignment numBytes = some (lastOf 0 before, cur) ∧ Chain s.mem cur after 0 ∧
      (∀ i ∈ before, ¬ size s.mem (address i) - padding alignment (address i) ≥ numBytes) ∧
      ∀ i ∈ after.head?, size s.mem (address i) - padding alignment (address i) ≥ numBytes := by
  obtain ⟨before, after, cur, hl, hwalk, _, hrest, hbefore, hafter⟩ :=
    walk_spec (fun pBlock => size s.mem pBlock - padding alignment pBlock ≥ numBytes) 0 h.chain h.isBlock
      (length_lt h.isBlock h.separated.ordered)
  exact ⟨before, after, cur, hl, hwalk, hrest, fun i hi => of_decide_eq_false (hbefore i hi),
    fun i hi => of_decide_eq_true (hafter i hi)⟩

/-- What a request that is served leaves behind. -/
structure Serves (s : MemoryManager) (l : List (Extent Nat)) (alignment numBytes : UInt32) (t : MemoryManager)
    (l' : List (Extent Nat)) (a : Allocation) : Prop where
  allocate : s.allocate alignment numBytes = some (a.pointer, t)
  free : FreeBlocks t l'
  allocated : Allocated t.mem a
  numBytes : a.numBytes = numBytes
  aligned : alignment.toNat ∣ a.pointer.toNat
  covers : ∀ x, Covers l x ↔ x ∈ a.block ∨ Covers l' x
  apart : ∀ x ∈ a.block, ¬ Covers l' x
  frame : ∀ x : UInt32, ¬ Covers l x.toNat → t.mem x = s.mem x

/-- The served block has no byte of a free block. -/
theorem Divided.apart {i b : Extent Nat} {before rest after : List (Extent Nat)} (hd : Divided i b rest)
    (hs : Separated (before ++ i :: after)) {x : Nat} (hx : x ∈ b) : ¬ Covers (before ++ (rest ++ after)) x := by
  obtain ⟨_, h2, h3⟩ := List.pairwise_append.mp hs
  have hxi : x ∈ i := (hd.covers x).mpr (.inl hx)
  intro hcovers
  simp only [covers_append] at hcovers
  rcases hcovers with ⟨j, hj, hxj⟩ | ⟨j, hj, hxj⟩ | ⟨j, hj, hxj⟩
  · exact Extent.disjoint_of_hi_le (h3 j hj i (by simp)).le x hxj hxi
  · exact Extent.disjoint_of_hi_le (hd.behind j hj).2.1 x hx hxj
  · exact Extent.disjoint_of_hi_le ((List.pairwise_cons.mp h2).1 j hj).le x hxi hxj

theorem allocate_served {l : List (Extent Nat)} (h : FreeBlocks s l) (hvalid : validRequest alignment numBytes = true)
    {prev cur : UInt32} (hfind : s.findBlock alignment numBytes = some (prev, cur)) (hcur : cur ≠ 0)
    (hpad : padding alignment cur ≤ size s.mem cur) : ∃ t l' b, address b = cur ∧ blockAt t.mem cur = b ∧
      Serves s l alignment numBytes t l' ⟨b, alignedAddr alignment cur, numBytes⟩ := by
  obtain ⟨hn, k, hk⟩ := isPowerOfTwo_of_validRequest hvalid
  obtain ⟨before, after, cur', rfl, hfind', hrest, _, hhead⟩ := findBlock_spec h alignment numBytes
  rw [hfind'] at hfind
  cases hfind
  cases after with
  | nil => exact absurd hrest hcur
  | cons i after =>
    have hat := hrest.1
    have haddress := address_of_blockAt hat
    subst haddress
    have hi := h.isBlock i (by simp)
    have hroom := (fits_iff hat hi hk hpad).mp (hhead i rfl)
    obtain ⟨b, rest, hd, hfits, hfree, hatb, hframe⟩ := split_spec h hk hn hroom
    have hptr : i.lo + 8 ≤ pointerIn alignment i := Nat.le_add_right _ _
    have hpointer := toNat_pointer hi hk hn hroom
    have hblo := hd.lo
    have haddr : address b = address i := congrArg UInt32.ofNat hblo
    have hni := hi.toNat_address
    have hpadding (n : Nat) (hx : i.lo + 4 ≤ n ∧ n < pointerIn alignment i) : n ∈ b := by
      rw [Extent.mem_def]
      omega
    have hclear := clearPadding_spec hi hk hn hroom (s.split alignment numBytes (lastOf 0 before) (address i)).mem
    have hcovers (x : Nat) : Covers (before ++ i :: after) x ↔ x ∈ b ∨ Covers (before ++ (rest ++ after)) x := by
      simp only [covers_append, covers_cons, hd.covers]
      tauto
    have hatb' : blockAt (clearPadding (s.split alignment numBytes (lastOf 0 before) (address i)).mem alignment
        (address i)) (address i) = b := by
      refine (blockAt_of_size (size_congr ?_ fun x _ hx => ?_)).trans hatb
      · have h1 := hi.header
        have h2 := hi.hi_le
        omega
      · rw [hclear, if_neg (by omega)]
    generalize ht : s.split alignment numBytes (lastOf 0 before) (address i) = t at hfree hatb hframe hclear hatb'
    refine ⟨{ t with mem := clearPadding t.mem alignment (address i) }, before ++ (rest ++ after), b, haddr, hatb',
      ⟨?_, FreeBlocks.congr hfree ?_, ?_, rfl, ?_, hcovers, ?_, ?_⟩⟩
    · unfold allocate
      rw [if_pos hvalid, hfind', ← ht]
      exact if_neg hcur
    · intro j hj x hx
      rw [hclear, if_neg]
      intro hx'
      exact hd.apart h.separated (hpadding _ hx') (covers_of_mem hj ((hfree.isBlock j hj).mem_of_inHeader hx))
    · refine ⟨hd.isBlock, ?_, ?_, fun x hx1 hx2 => ?_, ?_, hn⟩
      · rw [haddr]
        exact hatb'
      · rw [hpointer, hblo]
        exact hptr
      · change b.lo + 4 ≤ x.toNat at hx1
        rw [hpointer] at hx2
        exact (hclear x).trans (if_pos (by omega))
      · rw [hpointer]
        exact hfits
    · rw [hpointer]
      exact dvd_pointerIn hk
    · exact fun x hx => hd.apart h.separated hx
    · intro x hx
      have hxi : x.toNat ∉ i := fun hxi => hx (covers_of_mem (by simp) hxi)
      refine (hclear x).trans ((if_neg ?_).trans (hframe x ?_ hxi))
      · intro hx'
        exact hx ((hcovers x.toNat).mpr (.inl (hpadding _ hx')))
      · intro j hj hxj
        exact hx (covers_of_mem (by simp [hj]) ((h.isBlock j (by simp [hj])).mem_of_inHeader hxj))

/-- Nothing is served: no block has room, and nothing changes. -/
theorem allocate_refused {l : List (Extent Nat)} (h : FreeBlocks s l) (hvalid : validRequest alignment numBytes = true)
    {prev : UInt32} (hfind : s.findBlock alignment numBytes = some (prev, 0)) :
    s.allocate alignment numBytes = some (0, s) ∧ ∀ i ∈ l, ¬ HasRoom alignment numBytes i := by
  obtain ⟨_, k, hk⟩ := isPowerOfTwo_of_validRequest hvalid
  obtain ⟨before, after, cur, rfl, hfind', hrest, hbefore, _⟩ := findBlock_spec h alignment numBytes
  rw [hfind'] at hfind
  cases hfind
  refine ⟨?_, fun i hi hroom => ?_⟩
  · unfold allocate
    rw [if_pos hvalid, hfind']
    rfl
  · cases after with
    | nil =>
      rw [List.append_nil] at hi h
      obtain ⟨before, after, rfl⟩ := List.append_of_mem hi
      exact hbefore i hi (fits_of_hasRoom (FreeBlocks.around h).2.1 (h.isBlock i hi) hk hroom)
    | cons j after => exact absurd (address_of_blockAt hrest.1) (h.isBlock j (by simp)).address_ne

end

end MemoryManager

end CpuScheduler.L7
