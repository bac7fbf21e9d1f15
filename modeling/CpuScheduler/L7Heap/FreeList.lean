import CpuScheduler.L7Heap.MemoryManager

/-!
# The free list in memory

`Chain mem p l q`: from `p`, the headers in memory lead through the blocks `l`
to `q`. A block is the extent of its bytes, header included. Every operation on
the list writes only headers of blocks it is about, and what it does to the
list is said about `l`.
-/
namespace CpuScheduler.L7

open Word L3 L4

/-! ## Words in memory -/

section
variable {mem mem' : Mem} {p x v : UInt32}

theorem toNat_sub_lt_iff {n : Nat} (hp : p.toNat + n ≤ 2 ^ 32) :
    (x - p).toNat < n ↔ p.toNat ≤ x.toNat ∧ x.toNat < p.toNat + n := by
  have hx := x.toNat_lt
  rw [UInt32.toNat_sub]
  omega

theorem writeBytes_outside {bytes : Nat → UInt8} {n : Nat} (hp : p.toNat + n ≤ 2 ^ 32)
    (hx : x.toNat < p.toNat ∨ p.toNat + n ≤ x.toNat) : writeBytes mem p bytes n x = mem x := by
  unfold writeBytes
  rw [if_neg]
  rw [toNat_sub_lt_iff hp]
  omega

theorem writeBytes_inside {b : UInt8} {n : Nat} (hp : p.toNat + n ≤ 2 ^ 32) (h1 : p.toNat ≤ x.toNat)
    (h2 : x.toNat < p.toNat + n) : writeBytes mem p (fun _ => b) n x = b := by
  unfold writeBytes
  rw [if_pos]
  exact (toNat_sub_lt_iff hp).mpr ⟨h1, h2⟩

theorem readWord_eq (hp : p.toNat + 4 ≤ 2 ^ 32)
    (h : ∀ x : UInt32, p.toNat ≤ x.toNat → x.toNat < p.toNat + 4 → mem' x = mem x) : readWord mem' p = readWord mem p := by
  refine readWord_congr fun x hx => ?_
  obtain ⟨h1, h2⟩ := (toNat_sub_lt_iff hp).mp hx
  exact h x h1 h2

theorem readWord_writeWord (mem : Mem) (p v : UInt32) : readWord (writeWord mem p v) p = v := by
  have hv := v.toNat_lt
  unfold writeWord
  rw [readWord_writeBytes_self]
  apply UInt32.toNat_inj.mp
  rw [be32_toNat]
  simp only [UInt32.toNat_toUInt8, UInt32.toNat_shiftRight, UInt32.toNat_mul, UInt32.toNat_ofNat', UInt32.reduceToNat,
    Nat.shiftRight_eq_div_pow, Nat.reduceMod, Nat.reduceMul, Nat.reducePow]
  omega

end

/-! ## Headers -/

section
variable {mem mem' : Mem} {p v : UInt32}

theorem toNat_add_four (hp : p.toNat + 8 ≤ 2 ^ 32) : (p + 4).toNat = p.toNat + 4 := by
  rw [UInt32.toNat_add]
  show (p.toNat + 4) % 2 ^ 32 = _
  omega

@[simp] theorem size_setSize : size (setSize mem p v) p = v := readWord_writeWord mem p v

@[simp] theorem next_setNext : next (setNext mem p v) p = v := readWord_writeWord mem (p + 4) v

theorem setSize_outside (hp : p.toNat + 8 ≤ 2 ^ 32) {x : UInt32} (hx : x.toNat < p.toNat ∨ p.toNat + 4 ≤ x.toNat) :
    setSize mem p v x = mem x := by
  unfold setSize writeWord
  exact writeBytes_outside (by omega) hx

theorem setNext_outside (hp : p.toNat + 8 ≤ 2 ^ 32) {x : UInt32} (hx : x.toNat < p.toNat + 4 ∨ p.toNat + 8 ≤ x.toNat) :
    setNext mem p v x = mem x := by
  have h4 := toNat_add_four hp
  unfold setNext writeWord
  exact writeBytes_outside (by omega) (by omega)

theorem size_congr (hp : p.toNat + 8 ≤ 2 ^ 32)
    (h : ∀ x : UInt32, p.toNat ≤ x.toNat → x.toNat < p.toNat + 4 → mem' x = mem x) : size mem' p = size mem p :=
  readWord_eq (by omega) h

theorem next_congr (hp : p.toNat + 8 ≤ 2 ^ 32)
    (h : ∀ x : UInt32, p.toNat + 4 ≤ x.toNat → x.toNat < p.toNat + 8 → mem' x = mem x) : next mem' p = next mem p := by
  have h4 := toNat_add_four hp
  exact readWord_eq (by omega) fun x h1 h2 => h x (by omega) (by omega)

theorem size_setNext (hp : p.toNat + 8 ≤ 2 ^ 32) : size (setNext mem p v) p = size mem p :=
  size_congr hp fun _ _ h2 => setNext_outside hp (.inl h2)

end

/-! ## Blocks -/

/-- What is true of every block of the heap. -/
structure IsBlock (i : Extent Nat) : Prop where
  pos : 0 < i.lo
  lo_mod : i.lo % 4 = 0
  hi_mod : i.hi % 4 = 0
  header : i.lo + 8 < i.hi
  hi_le : i.hi ≤ 2 ^ 32

theorem isBlock_join (i j : Extent Nat) (h : i.hi = j.lo) (hi : IsBlock i) (hj : IsBlock j) : IsBlock (i.join j h) := by
  have h1 := hi.header
  have h2 := hj.header
  refine ⟨hi.pos, hi.lo_mod, hj.hi_mod, ?_, hj.hi_le⟩
  show i.lo + 8 < j.hi
  omega

theorem blockAt_lt (mem : Mem) (p : UInt32) : p.toNat < p.toNat + 8 + (size mem p).toNat := by omega

/-- The block whose header is at `p`. -/
def blockAt (mem : Mem) (p : UInt32) : Extent Nat := ⟨p.toNat, p.toNat + 8 + (size mem p).toNat, blockAt_lt mem p⟩

theorem blockAt_of_size {mem mem' : Mem} {p : UInt32} (h : size mem' p = size mem p) : blockAt mem' p = blockAt mem p := by
  unfold blockAt
  simp only [h]

/-- The address of a block. -/
def address (i : Extent Nat) : UInt32 := UInt32.ofNat i.lo

theorem IsBlock.toNat_address {i : Extent Nat} (h : IsBlock i) : (address i).toNat = i.lo := by
  have h1 := h.header
  have h2 := h.hi_le
  rw [address, UInt32.toNat_ofNat']
  omega

theorem IsBlock.address_ne {i : Extent Nat} (h : IsBlock i) : address i ≠ 0 := by
  intro h0
  have hn := h.toNat_address
  have hpos := h.pos
  rw [h0] at hn
  rw [← hn] at hpos
  exact absurd hpos (by decide)

theorem address_of_blockAt {mem : Mem} {p : UInt32} {i : Extent Nat} (h : blockAt mem p = i) : address i = p := by
  rw [← h]
  exact UInt32.ofNat_toNat

/-- The bytes of the header. -/
def InHeader (i : Extent Nat) (x : UInt32) : Prop := i.lo ≤ x.toNat ∧ x.toNat < i.lo + 8

theorem IsBlock.mem_of_inHeader {i : Extent Nat} (h : IsBlock i) {x : UInt32} (hx : InHeader i x) : x.toNat ∈ i := by
  have h1 := h.header
  exact ⟨hx.1, hx.2.trans h1⟩

theorem blockAt_congr {mem mem' : Mem} {i : Extent Nat} (hi : IsBlock i) {p : UInt32} (h : blockAt mem p = i)
    (hsame : ∀ x, InHeader i x → mem' x = mem x) : blockAt mem' p = i ∧ next mem' p = next mem p := by
  have hp : p.toNat = i.lo := by rw [← h]; rfl
  have h1 := hi.header
  have h2 := hi.hi_le
  have hsize : size mem' p = size mem p :=
    size_congr (by omega) fun x h1 h2 => hsame x ⟨by omega, by omega⟩
  exact ⟨(blockAt_of_size hsize).trans h, next_congr (by omega) fun x h1 h2 => hsame x ⟨by omega, by omega⟩⟩

/-! ## Chains -/

def Chain (mem : Mem) : UInt32 → List (Extent Nat) → UInt32 → Prop
  | p, [], q => p = q
  | p, i :: l, q => blockAt mem p = i ∧ Chain mem (next mem p) l q

theorem chain_append {mem : Mem} {p q : UInt32} {l l' : List (Extent Nat)} :
    Chain mem p (l ++ l') q ↔ ∃ r, Chain mem p l r ∧ Chain mem r l' q := by
  induction l generalizing p with
  | nil =>
    constructor
    · intro h
      exact ⟨p, rfl, h⟩
    · intro h
      obtain ⟨r, rfl, h⟩ := h
      exact h
  | cons i l ih =>
    simp only [List.cons_append, Chain, ih]
    constructor
    · intro h
      obtain ⟨hi, r, h1, h2⟩ := h
      exact ⟨r, ⟨hi, h1⟩, h2⟩
    · intro h
      obtain ⟨r, ⟨hi, h1⟩, h2⟩ := h
      exact ⟨hi, r, h1, h2⟩

/-- Only the headers matter. -/
theorem Chain.congr {mem mem' : Mem} {p q : UInt32} {l : List (Extent Nat)} (h : Chain mem p l q)
    (hl : ∀ i ∈ l, IsBlock i) (hsame : ∀ i ∈ l, ∀ x, InHeader i x → mem' x = mem x) : Chain mem' p l q := by
  induction l generalizing p with
  | nil => exact h
  | cons i l ih =>
    obtain ⟨hi, hrest⟩ := h
    obtain ⟨hi', hnext⟩ := blockAt_congr (hl i (by simp)) hi (hsame i (by simp))
    refine ⟨hi', ?_⟩
    rw [hnext]
    exact ih hrest (fun j hj => hl j (by simp [hj])) fun j hj => hsame j (by simp [hj])

/-- The last block of a part of the list, as the pointer to it. -/
def lastOf (pPreviousBlock : UInt32) : List (Extent Nat) → UInt32
  | [] => pPreviousBlock
  | i :: l => lastOf (address i) l

theorem lastOf_append (p : UInt32) (l : List (Extent Nat)) (i : Extent Nat) : lastOf p (l ++ [i]) = address i := by
  induction l generalizing p with
  | nil => rfl
  | cons j l ih => exact ih _

/-- Blocks in order have their headers apart. -/
theorem Ordered.header_apart {i j : Extent Nat} (h : i.hi ≤ j.lo) (hi : IsBlock i) {x : UInt32} (hx : InHeader j x) :
    i.lo + 8 ≤ x.toNat := by
  have h1 := hi.header
  have h2 := hx.1
  omega

/-- The last link of a chain is changed. -/
theorem Chain.setNext_last {mem : Mem} {p q q' : UInt32} {l : List (Extent Nat)} {i : Extent Nat}
    (h : Chain mem p (l ++ [i]) q) (hl : ∀ j ∈ l ++ [i], IsBlock j) (ho : Ordered (l ++ [i])) :
    Chain (setNext mem (address i) q') p (l ++ [i]) q' := by
  have hi := hl i (by simp)
  have hp : (address i).toNat = i.lo := hi.toNat_address
  have hend : (address i).toNat + 8 ≤ 2 ^ 32 := by
    have h1 := hi.header
    have h2 := hi.hi_le
    omega
  obtain ⟨r, hfirst, hlast, _⟩ := chain_append.mp h
  refine chain_append.mpr ⟨r, ?_, ?_, ?_⟩
  · refine hfirst.congr (fun j hj => hl j (by simp [hj])) fun j hj x hx => setNext_outside hend (.inl ?_)
    have hji := (List.pairwise_append.mp ho).2.2 j hj i (by simp)
    have h1 := (hl j (by simp [hj])).header
    have h2 := hx.2
    omega
  · have hr := address_of_blockAt hlast
    rw [← hr] at hlast ⊢
    exact (blockAt_of_size (size_setNext hend)).trans hlast
  · rw [address_of_blockAt hlast]
    exact next_setNext

/-! ## The loops -/

theorem walk_spec {mem : Mem} (stop : UInt32 → Bool) {fuel : Nat} (prev : UInt32) {p : UInt32} {l : List (Extent Nat)}
    (h : Chain mem p l 0) (hl : ∀ i ∈ l, IsBlock i) (hfuel : l.length < fuel) :
    ∃ before after cur, l = before ++ after ∧ walk mem stop fuel prev p = some (lastOf prev before, cur) ∧
      Chain mem p before cur ∧ Chain mem cur after 0 ∧ (∀ i ∈ before, stop (address i) = false) ∧
      ∀ i ∈ after.head?, stop (address i) = true := by
  induction l generalizing fuel prev p with
  | nil =>
    obtain ⟨fuel, rfl⟩ : ∃ n, fuel = n + 1 := ⟨fuel - 1, by simp only [List.length_nil] at hfuel; omega⟩
    cases h
    exact ⟨[], [], 0, rfl, rfl, rfl, rfl, by simp, by simp⟩
  | cons i l ih =>
    obtain ⟨fuel, rfl⟩ : ∃ n, fuel = n + 1 := ⟨fuel - 1, by omega⟩
    have hp := address_of_blockAt h.1
    have hne : p ≠ 0 := hp ▸ (hl i (by simp)).address_ne
    rw [walk, if_neg hne]
    by_cases hstop : stop p = true
    · rw [if_pos hstop]
      refine ⟨[], i :: l, p, rfl, rfl, rfl, h, by simp, ?_⟩
      intro j hj
      cases hj
      rw [hp]
      exact hstop
    · rw [if_neg hstop]
      rw [List.length_cons] at hfuel
      obtain ⟨before, after, cur, hsplit, hwalk, h1, h2, hbefore, hafter⟩ :=
        ih p h.2 (fun j hj => hl j (by simp [hj])) (by omega : l.length < fuel)
      refine ⟨i :: before, after, cur, by rw [hsplit]; rfl, ?_, ⟨h.1, h1⟩, h2, ?_, hafter⟩
      · rw [hwalk, lastOf, hp]
      · intro j hj
        rcases List.mem_cons.mp hj with rfl | hj
        · rw [hp]
          simpa using hstop
        · exact hbefore j hj

/-- Two blocks at the beginning of a chain. -/
structure TwoBlocks (mem : Mem) (p : UInt32) (i j : Extent Nat) : Prop where
  first : IsBlock i
  second : IsBlock j
  le : i.hi ≤ j.lo
  address : p.toNat = i.lo
  address_next : (next mem p).toNat = j.lo
  size : i.lo + 8 + (size mem p).toNat = i.hi
  size_next : j.lo + 8 + (L7.size mem (next mem p)).toNat = j.hi

theorem twoBlocks {mem : Mem} {p : UInt32} {i j : Extent Nat} {l : List (Extent Nat)}
    (h : Chain mem p (i :: j :: l) 0) (hl : ∀ k ∈ i :: j :: l, IsBlock k) (ho : Ordered (i :: j :: l)) :
    TwoBlocks mem p i j := by
  obtain ⟨hi, hj, _⟩ := h
  have hbi := hl i (by simp)
  have hbj := hl j (by simp)
  refine ⟨hbi, hbj, (List.pairwise_cons.mp ho).1 j (by simp), ?_, ?_, ?_, ?_⟩
  · rw [← hi]; rfl
  · rw [← hj]; rfl
  · rw [← hi]; rfl
  · rw [← hj]; rfl

/-- The test in 32 bits is about the ends of the blocks. -/
theorem TwoBlocks.touch_iff {mem : Mem} {p : UInt32} {i j : Extent Nat} (h : TwoBlocks mem p i j) :
    p + HEADER_SIZE + L7.size mem p = next mem p ↔ i.hi = j.lo := by
  have hs := h.size
  have hle := h.le
  have hj := h.second.header
  have hend := h.second.hi_le
  rw [← UInt32.toNat_inj, UInt32.toNat_add, UInt32.toNat_add, h.address_next, h.address]
  show ((i.lo + 8) % 2 ^ 32 + (L7.size mem p).toNat) % 2 ^ 32 = j.lo ↔ _
  omega

theorem TwoBlocks.header_le {mem : Mem} {p : UInt32} {i j : Extent Nat} (h : TwoBlocks mem p i j) :
    p.toNat + 8 ≤ 2 ^ 32 := by
  have hi := h.first.header
  have hend := h.first.hi_le
  rw [h.address]
  omega

theorem TwoBlocks.joinNext_outside {mem : Mem} {p : UInt32} {i j : Extent Nat} (h : TwoBlocks mem p i j) {x : UInt32}
    (hx : ¬ InHeader i x) : joinNext mem p x = mem x := by
  have hp := h.address
  unfold InHeader at hx
  unfold joinNext
  rw [setNext_outside h.header_le (by omega), setSize_outside h.header_le (by omega)]

theorem TwoBlocks.blockAt_joinNext {mem : Mem} {p : UInt32} {i j : Extent Nat} (h : TwoBlocks mem p i j)
    (htouch : i.hi = j.lo) : blockAt (joinNext mem p) p = i.join j htouch := by
  have hsi := h.size
  have hsj := h.size_next
  have hend := h.second.hi_le
  apply Extent.ext
  · exact h.address
  · show p.toNat + 8 + (L7.size (joinNext mem p) p).toNat = j.hi
    unfold joinNext
    rw [size_setNext h.header_le, size_setSize, UInt32.toNat_add, UInt32.toNat_add, h.address]
    show i.lo + 8 + ((L7.size mem p).toNat + (8 + (L7.size mem (next mem p)).toNat) % 2 ^ 32) % 2 ^ 32 = j.hi
    omega

theorem TwoBlocks.next_joinNext {mem : Mem} {p : UInt32} {i j : Extent Nat} (h : TwoBlocks mem p i j) :
    next (joinNext mem p) p = next mem (next mem p) := by
  have hp := h.address
  have hq := h.address_next
  have hle := h.le
  have hi := h.first.header
  have hj := h.second.header
  have hend := h.second.hi_le
  unfold joinNext
  dsimp only
  rw [next_setNext]
  refine next_congr (by omega) fun x h1 _ => setSize_outside h.header_le (.inr ?_)
  omega

theorem chain_joinNext {mem : Mem} {p : UInt32} {i j : Extent Nat} {l : List (Extent Nat)}
    (h : Chain mem p (i :: j :: l) 0) (hl : ∀ k ∈ i :: j :: l, IsBlock k) (ho : Ordered (i :: j :: l))
    (htouch : i.hi = j.lo) : Chain (joinNext mem p) p (i.join j htouch :: l) 0 := by
  have h2 := twoBlocks h hl ho
  refine ⟨h2.blockAt_joinNext htouch, ?_⟩
  rw [h2.next_joinNext]
  refine Chain.congr h.2.2 (fun k hk => hl k (by simp [hk])) fun k hk x hx => h2.joinNext_outside fun hxi => ?_
  have hik := Ordered.header_apart ((List.pairwise_cons.mp ho).1 k (by simp [hk])) h2.first hx
  have hlt := hxi.2
  omega

/-- Every write of the loop is to the header of a block of the list. -/
theorem mergeLoop_spec {mem : Mem} {fuel : Nat} {p : UInt32} {i : Extent Nat} {l : List (Extent Nat)}
    (h : Chain mem p (i :: l) 0) (hl : ∀ j ∈ i :: l, IsBlock j) (ho : Ordered (i :: l)) (hfuel : l.length < fuel) :
    ∃ mem', mergeLoop fuel mem p = some mem' ∧ Chain mem' p (coalesceFrom i l) 0 ∧
      ∀ x, (∀ j ∈ i :: l, ¬ InHeader j x) → mem' x = mem x := by
  have hne : p ≠ 0 := address_of_blockAt h.1 ▸ (hl i (by simp)).address_ne
  induction l generalizing mem fuel p i with
  | nil =>
    obtain ⟨fuel, rfl⟩ : ∃ n, fuel = n + 1 := ⟨fuel - 1, by simp only [List.length_nil] at hfuel; omega⟩
    have hnext : next mem p = 0 := h.2
    refine ⟨mem, ?_, h, fun _ _ => rfl⟩
    rw [mergeLoop, if_neg hne]
    simp only [hnext, if_true]
  | cons j l ih =>
    obtain ⟨fuel, rfl⟩ : ∃ n, fuel = n + 1 := ⟨fuel - 1, by omega⟩
    rw [List.length_cons] at hfuel
    have h2 := twoBlocks h hl ho
    have hnext : next mem p ≠ 0 := address_of_blockAt h.2.1 ▸ h2.second.address_ne
    obtain ⟨hio, hlo⟩ := List.pairwise_cons.mp ho
    rw [mergeLoop, if_neg hne]
    dsimp only
    rw [if_neg hnext]
    unfold coalesceFrom
    by_cases htouch : i.hi = j.lo
    · rw [if_pos (h2.touch_iff.mpr htouch), dif_pos htouch]
      have hbl : ∀ k ∈ i.join j htouch :: l, IsBlock k := by
        intro k hk
        rcases List.mem_cons.mp hk with rfl | hk
        · exact isBlock_join i j htouch h2.first h2.second
        · exact hl k (by simp [hk])
      obtain ⟨mem', hmerge, hchain', hframe⟩ :=
        ih (chain_joinNext h hl ho htouch) hbl (ordered_join ho htouch) (by omega : l.length < fuel) hne
      refine ⟨mem', hmerge, hchain', fun x hx => ?_⟩
      rw [hframe x, h2.joinNext_outside (hx i (by simp))]
      intro k hk
      rcases List.mem_cons.mp hk with rfl | hk
      · exact hx i (by simp)
      · exact hx k (by simp [hk])
    · rw [if_neg (fun ht => htouch (h2.touch_iff.mp ht)), dif_neg htouch]
      obtain ⟨mem', hmerge, hchain', hframe⟩ :=
        ih h.2 (fun k hk => hl k (List.mem_cons_of_mem _ hk)) hlo (by omega : l.length < fuel) hnext
      have hkept : ∀ x, InHeader i x → mem' x = mem x := by
        intro x hx
        refine hframe x fun k hk hxk => ?_
        have hik := Ordered.header_apart (hio k hk) h2.first hxk
        have hlt := hx.2
        omega
      obtain ⟨hi', hnext'⟩ := blockAt_congr h2.first h.1 hkept
      refine ⟨mem', hmerge, ⟨hi', by rw [hnext']; exact hchain'⟩, fun x hx => hframe x fun k hk => hx k ?_⟩
      exact List.mem_cons_of_mem _ hk

/-! ## The list of a memory manager -/

/-- The free list is `l`: blocks that go upwards, with gaps. -/
structure FreeBlocks (s : MemoryManager) (l : List (Extent Nat)) : Prop where
  chain : Chain s.mem s.freeList l 0
  isBlock : ∀ i ∈ l, IsBlock i
  separated : Separated l

theorem length_lt {l : List (Extent Nat)} (hl : ∀ i ∈ l, IsBlock i) (ho : Ordered l) : l.length < numAddresses := by
  have hlen := length_le_of_ordered ho (by decide : 1 ≤ 2 ^ 32) fun i hi => ⟨(hl i hi).pos, (hl i hi).hi_le⟩
  unfold numAddresses
  omega

namespace MemoryManager

theorem chain_relink {s : MemoryManager} {before : List (Extent Nat)} {q : UInt32}
    (h : Chain s.mem s.freeList before q) (hl : ∀ i ∈ before, IsBlock i) (ho : Ordered before) (p : UInt32) :
    Chain (s.relink (lastOf 0 before) p).mem (s.relink (lastOf 0 before) p).freeList before p ∧
      ∀ x, (∀ i ∈ before, ¬ InHeader i x) → (s.relink (lastOf 0 before) p).mem x = s.mem x := by
  rcases List.eq_nil_or_concat' before with rfl | ⟨l, i, rfl⟩
  · exact ⟨rfl, fun _ _ => rfl⟩
  · have hi := hl i (by simp)
    have hn := hi.toNat_address
    have h1 := hi.header
    have h2 := hi.hi_le
    unfold relink
    rw [lastOf_append, if_neg hi.address_ne]
    refine ⟨h.setNext_last hl ho, fun x hx => setNext_outside (by omega) ?_⟩
    have hxi := hx i (by simp)
    unfold InHeader at hxi
    omega

/-- The blocks from `p` on come behind `before`. -/
theorem chain_splice {s : MemoryManager} {before rest : List (Extent Nat)} {p q : UInt32}
    (hfirst : Chain s.mem s.freeList before q) (hrest : Chain s.mem p rest 0) (hl : ∀ i ∈ before ++ rest, IsBlock i)
    (ho : Ordered (before ++ rest)) :
    Chain (s.relink (lastOf 0 before) p).mem (s.relink (lastOf 0 before) p).freeList (before ++ rest) 0 ∧
      ∀ x, (∀ i ∈ before, ¬ InHeader i x) → (s.relink (lastOf 0 before) p).mem x = s.mem x := by
  obtain ⟨hob, _, hor⟩ := List.pairwise_append.mp ho
  have hlb : ∀ i ∈ before, IsBlock i := fun i hi => hl i (by simp [hi])
  obtain ⟨hlinked, hframe⟩ := chain_relink hfirst hlb hob p
  refine ⟨chain_append.mpr ⟨p, hlinked, hrest.congr (fun i hi => hl i (by simp [hi])) ?_⟩, hframe⟩
  intro i hi x hx
  refine hframe x fun j hj hxj => ?_
  have h1 := Ordered.header_apart (hor j hj i hi) (hlb j hj) hx
  have h2 := hxj.2
  omega

/-- What is written to put the block in. -/
def linked (s : MemoryManager) (pBlock pPreviousBlock pCurrentBlock : UInt32) : MemoryManager :=
  { s with mem := setNext s.mem pBlock pCurrentBlock }.relink pPreviousBlock pBlock

/-- Both branches give the block the link of the block in front of it. -/
theorem insertBlock_eq {s : MemoryManager} {pBlock cur : UInt32} {before : List (Extent Nat)}
    (hwalk : walk s.mem (fun pCurrentBlock => pCurrentBlock > pBlock) numAddresses 0 s.freeList =
      some (lastOf 0 before, cur)) (h : Chain s.mem s.freeList before cur) (hl : ∀ i ∈ before, IsBlock i) :
    s.insertBlock pBlock = (s.linked pBlock (lastOf 0 before) cur).mergeFreeBlocks := by
  unfold insertBlock
  rw [hwalk]
  show (ite _ _ _ : MemoryManager).mergeFreeBlocks = _
  congr 1
  unfold linked relink
  rcases List.eq_nil_or_concat' before with rfl | ⟨l, i, rfl⟩
  · cases h
    rfl
  · have hne : lastOf 0 (l ++ [i]) ≠ 0 := by
      rw [lastOf_append]
      exact (hl i (by simp)).address_ne
    obtain ⟨r, _, hlast, hnext⟩ := chain_append.mp h
    have hcur : next s.mem (lastOf 0 (l ++ [i])) = cur := by
      rw [lastOf_append, address_of_blockAt hlast]
      exact hnext
    rw [if_neg hne, if_neg hne, hcur]

theorem mergeFreeBlocks_spec {s : MemoryManager} {l : List (Extent Nat)} (h : Chain s.mem s.freeList l 0)
    (hl : ∀ i ∈ l, IsBlock i) (ho : Ordered l) : ∃ t, s.mergeFreeBlocks = some t ∧ FreeBlocks t (coalesce l) ∧
      ∀ x, (∀ i ∈ l, ¬ InHeader i x) → t.mem x = s.mem x := by
  unfold mergeFreeBlocks
  cases l with
  | nil =>
    have hempty : s.freeList = 0 := h
    refine ⟨s, ?_, ⟨h, by simp [coalesce], separated_coalesce ho⟩, fun _ _ => rfl⟩
    rw [hempty]
    show (mergeLoop (2 ^ 32 - 1 + 1) s.mem 0).map _ = _
    rw [mergeLoop, if_pos rfl, Option.map_some, ← hempty]
  | cons i l =>
    have hlen := length_lt hl ho
    rw [List.length_cons] at hlen
    obtain ⟨mem', hmerge, hchain, hframe⟩ := mergeLoop_spec h hl ho (by omega : l.length < numAddresses)
    refine ⟨{ s with mem := mem' }, ?_, ⟨hchain, forall_coalesce isBlock_join hl, separated_coalesce ho⟩, hframe⟩
    rw [hmerge, Option.map_some]

/-- The place of a block between those below it and those above it. -/
theorem ordered_insert {before after : List (Extent Nat)} {i : Extent Nat} (ho : Ordered (before ++ after))
    (hdisjoint : ∀ j ∈ before ++ after, j.Disjoint i) (hbefore : ∀ j ∈ before, j.lo ≤ i.lo)
    (hafter : ∀ j ∈ after, i.lo ≤ j.lo) : Ordered (before ++ i :: after) := by
  obtain ⟨h1, h2, h3⟩ := List.pairwise_append.mp ho
  refine List.pairwise_append.mpr ⟨h1, List.pairwise_cons.mpr ⟨fun j hj => ?_, h2⟩, fun j hj k hk => ?_⟩
  · exact (hdisjoint j (by simp [hj])).symm.hi_le (hafter j hj)
  · rcases List.mem_cons.mp hk with rfl | hk
    · exact (hdisjoint j (by simp [hj])).hi_le (hbefore j hj)
    · exact h3 j hj k hk

theorem address_gt_iff {i j : Extent Nat} (hi : IsBlock i) (hj : IsBlock j) : address j > address i ↔ i.lo < j.lo := by
  rw [gt_iff_lt, UInt32.lt_iff_toNat_lt, hi.toNat_address, hj.toNat_address]

/-- Where `insertBlock` puts a block. -/
theorem walk_insert {s : MemoryManager} {l : List (Extent Nat)} (h : FreeBlocks s l) {i : Extent Nat} (hi : IsBlock i)
    (hdisjoint : ∀ j ∈ l, j.Disjoint i) : ∃ before after cur, l = before ++ after ∧
      walk s.mem (fun pCurrentBlock => pCurrentBlock > address i) numAddresses 0 s.freeList =
        some (lastOf 0 before, cur) ∧
      Chain s.mem s.freeList before cur ∧ Chain s.mem cur after 0 ∧ Ordered (before ++ i :: after) := by
  have ho := h.separated.ordered
  obtain ⟨before, after, cur, hl, hwalk, hfirst, hrest, hbefore, hafter⟩ :=
    walk_spec (fun pCurrentBlock => pCurrentBlock > address i) 0 h.chain h.isBlock (length_lt h.isBlock ho)
  refine ⟨before, after, cur, hl, hwalk, hfirst, hrest, ?_⟩
  have hblock := h.isBlock
  subst hl
  refine ordered_insert ho hdisjoint (fun j hj => ?_) fun j hj => ?_
  · have hstop := of_decide_eq_false (hbefore j hj)
    rw [address_gt_iff hi (hblock j (by simp [hj]))] at hstop
    exact Nat.not_lt.mp hstop
  · cases after with
    | nil => cases hj
    | cons k after =>
      have hstop := of_decide_eq_true (hafter k rfl)
      rw [address_gt_iff hi (hblock k (by simp))] at hstop
      have hk := k.lo_lt_hi
      rcases List.mem_cons.mp hj with rfl | hj
      · exact hstop.le
      · have hkj := (List.pairwise_cons.mp (List.pairwise_append.mp ho).2.1).1 j hj
        omega

/-- The list with the block in it, before the merge. -/
theorem linked_spec {s : MemoryManager} {before after : List (Extent Nat)} {i : Extent Nat} {cur : UInt32}
    (hfirst : Chain s.mem s.freeList before cur) (hrest : Chain s.mem cur after 0)
    (hat : blockAt s.mem (address i) = i) (hl : ∀ j ∈ before ++ i :: after, IsBlock j)
    (ho : Ordered (before ++ i :: after)) :
    Chain (s.linked (address i) (lastOf 0 before) cur).mem (s.linked (address i) (lastOf 0 before) cur).freeList
        (before ++ i :: after) 0 ∧
      ∀ x, (∀ j ∈ before ++ i :: after, ¬ InHeader j x) →
        (s.linked (address i) (lastOf 0 before) cur).mem x = s.mem x := by
  obtain ⟨_, hoa, hoba⟩ := List.pairwise_append.mp ho
  obtain ⟨hoi, _⟩ := List.pairwise_cons.mp hoa
  have hi := hl i (by simp)
  have hlb : ∀ j ∈ before, IsBlock j := fun j hj => hl j (by simp [hj])
  have hla : ∀ j ∈ after, IsBlock j := fun j hj => hl j (by simp [hj])
  have hn := hi.toNat_address
  have hend : (address i).toNat + 8 ≤ 2 ^ 32 := by
    have h1 := hi.header
    have h2 := hi.hi_le
    omega
  have hout {x : UInt32} (hx : ¬ InHeader i x) : setNext s.mem (address i) cur x = s.mem x := by
    unfold InHeader at hx
    exact setNext_outside hend (by omega)
  -- the headers in front of `i` and behind it are elsewhere
  have hbi : ∀ j ∈ before, ∀ x, InHeader j x → ¬ InHeader i x := by
    intro j hj x hx hxi
    have h1 := Ordered.header_apart (hoba j hj i (by simp)) (hlb j hj) hxi
    have h2 := hx.2
    omega
  have hia : ∀ j ∈ after, ∀ x, InHeader j x → ¬ InHeader i x := by
    intro j hj x hx hxi
    have h1 := Ordered.header_apart (hoi j hj) hi hx
    have h2 := hxi.2
    omega
  have hfirst' : Chain (setNext s.mem (address i) cur) s.freeList before cur :=
    hfirst.congr hlb fun j hj x hx => hout (hbi j hj x hx)
  have hrest' : Chain (setNext s.mem (address i) cur) (address i) (i :: after) 0 := by
    refine ⟨?_, ?_⟩
    · exact (blockAt_of_size (size_setNext hend)).trans hat
    · rw [next_setNext]
      exact hrest.congr hla fun j hj x hx => hout (hia j hj x hx)
  obtain ⟨hchain, hframe⟩ := chain_splice (s := { s with mem := setNext s.mem (address i) cur }) hfirst' hrest' hl ho
  refine ⟨hchain, fun x hx => ?_⟩
  exact (hframe x fun j hj => hx j (by simp [hj])).trans (hout (hx i (by simp)))

/-- A block that overlaps no free block comes into the list; only headers of
free blocks and its own are written. -/
theorem insertBlock_spec {s : MemoryManager} {l : List (Extent Nat)} (h : FreeBlocks s l) {i : Extent Nat}
    (hi : IsBlock i) (hat : blockAt s.mem (address i) = i) (hdisjoint : ∀ j ∈ l, j.Disjoint i) :
    ∃ t l', s.insertBlock (address i) = some t ∧ FreeBlocks t l' ∧ (∀ x, Covers l' x ↔ x ∈ i ∨ Covers l x) ∧
      ∀ x, (∀ j ∈ i :: l, ¬ InHeader j x) → t.mem x = s.mem x := by
  obtain ⟨before, after, cur, rfl, hwalk, hfirst, hrest, ho⟩ := walk_insert h hi hdisjoint
  have hl : ∀ j ∈ before ++ i :: after, IsBlock j := by
    intro j hj
    rw [List.mem_append, List.mem_cons] at hj
    rcases hj with hj | rfl | hj
    · exact h.isBlock j (by simp [hj])
    · exact hi
    · exact h.isBlock j (by simp [hj])
  obtain ⟨hchain, hframe⟩ := linked_spec hfirst hrest hat hl ho
  obtain ⟨t, hmerge, hfree, hframe'⟩ := mergeFreeBlocks_spec hchain hl ho
  refine ⟨t, _, ?_, hfree, fun x => ?_, fun x hx => ?_⟩
  · rw [insertBlock_eq hwalk hfirst fun j hj => h.isBlock j (by simp [hj])]
    exact hmerge
  · rw [covers_coalesce]
    simp only [covers_append, covers_cons]
    exact or_left_comm
  · have hx' : ∀ j ∈ before ++ i :: after, ¬ InHeader j x := by
      intro j hj
      refine hx j ?_
      simp only [List.mem_append, List.mem_cons] at hj ⊢
      exact or_left_comm.mp hj
    exact (hframe' x hx').trans (hframe x hx')

end MemoryManager

end CpuScheduler.L7
