import CpuScheduler.Core.EndAround
import CpuScheduler.L2Network.Loopback

/-!
# The IPv4 checksum

`finishWriteBuffer` sums up the words of the IPv4 header with end-around carry
and stores the complement of the sum as the word at byte 10. Whatever the
header holds, the words then sum up to all ones.
-/
namespace CpuScheduler.L2

open Word EndAround

namespace LoopbackNetworkInterface

/-- The 16-bit words of the header. -/
def headerWords (data : Nat → UInt8) (headerLength : Nat) : List Nat :=
  (List.range (headerLength / 2)).map fun k =>
    be16 (data (ETHERNET_SIMPLE_HEADER_SIZE + 2 * k)) (data (ETHERNET_SIMPLE_HEADER_SIZE + 2 * k + 1))

theorem headerWords_lt (data : Nat → UInt8) (headerLength : Nat) : ∀ x ∈ headerWords data headerLength, x < 2 ^ 16 := by
  intro x hx
  obtain ⟨k, _, rfl⟩ := List.mem_map.mp hx
  exact be16_lt _ _

/-- One round of the loop adds a word and wraps. -/
theorem toNat_addWord {checksum : UInt32} (hc : checksum.toNat < 2 ^ 16) (hi lo : UInt8) :
    (addWord checksum hi lo).toNat = wrap 16 (checksum.toNat + be16 hi lo) := by
  have hword := be16_lt hi lo
  have hsum : (checksum + ((hi.toUInt32 <<< 8) + lo.toUInt32)).toNat = checksum.toNat + be16 hi lo := by
    have hhi := hi.toNat_lt
    have hlo := lo.toNat_lt
    rw [be16_eq] at hword ⊢
    simp only [UInt32.toNat_add, UInt32.toNat_shiftLeft, UInt8.toNat_toUInt32, UInt32.reduceToNat, Nat.reduceMod,
      Nat.shiftLeft_eq]
    omega
  unfold addWord
  generalize checksum + ((hi.toUInt32 <<< 8) + lo.toUInt32) = x at hsum
  have hhigh : x &&& (0xFFFF0000 : UInt32) ≠ 0 ↔ ¬ x.toNat < 2 ^ 16 := by
    have hmask := toNat_and_mask x (show 16 < 32 by decide)
    rw [show (0xFFFFFFFF : UInt32) <<< (16 : Nat).toUInt32 = 0xFFFF0000 by decide] at hmask
    rw [ne_eq, ← UInt32.toNat_inj, hmask]
    simp only [UInt32.toNat_zero, Nat.mul_eq_zero, Nat.div_eq_zero_iff]
    omega
  dsimp only
  rw [wrap, ← hsum]
  by_cases hx : x.toNat < 2 ^ 16
  · rw [if_neg (fun h => hhigh.mp h hx), if_pos hx]
  · rw [if_pos (hhigh.mpr hx), if_neg hx, UInt32.toNat_add, UInt32.toNat_and, UInt32.toNat_shiftRight,
      show (0xFFFF : UInt32).toNat = 2 ^ 16 - 1 from rfl, Nat.and_two_pow_sub_one_eq_mod, Nat.shiftRight_eq_div_pow]
    have hlt := x.toNat_lt
    simp only [UInt32.reduceToNat, Nat.reduceMod]
    omega

/-- The loop from any sum on. -/
theorem toNat_foldl_addWord (hi lo : Nat → UInt8) (ks : List Nat) {checksum : UInt32} (hc : checksum.toNat < 2 ^ 16) :
    (ks.foldl (fun c k => addWord c (hi k) (lo k)) checksum).toNat =
      (ks.map fun k => be16 (hi k) (lo k)).foldl (fun c x => wrap 16 (c + x)) checksum.toNat := by
  induction ks generalizing checksum with
  | nil => rfl
  | cons k ks ih =>
    have hnext := toNat_addWord hc (hi k) (lo k)
    have hlt : (addWord checksum (hi k) (lo k)).toNat < 2 ^ 16 := by
      have hword := be16_lt (hi k) (lo k)
      rw [hnext, wrap]
      split
      · assumption
      · omega
    rw [List.foldl_cons, List.map_cons, List.foldl_cons, ih hlt, hnext]

/-- The two bytes of the complement. -/
theorem be16_complement {sum : UInt32} (h : sum.toNat < 2 ^ 16) :
    be16 ((~~~sum) >>> 8).toUInt8 ((~~~sum) &&& 0xFF).toUInt8 = 2 ^ 16 - 1 - sum.toNat := by
  have hnot : (~~~sum).toNat = 2 ^ 32 - 1 - sum.toNat := by
    rw [UInt32.toNat_not]
    rfl
  rw [be16_eq, UInt32.toNat_toUInt8, UInt32.toNat_toUInt8, UInt32.toNat_shiftRight, UInt32.toNat_and,
    show (0xFF : UInt32).toNat = 2 ^ 8 - 1 from rfl, Nat.and_two_pow_sub_one_eq_mod, Nat.shiftRight_eq_div_pow, hnot]
  simp only [UInt32.reduceToNat, Nat.reduceMod]
  omega

theorem putBytes_two (data : Nat → UInt8) (p : Nat) (a b : UInt8) :
    putBytes data p [a, b] = Function.update (Function.update data p a) (p + 1) b := by
  funext i
  unfold putBytes
  rcases Nat.lt_trichotomy i p with hlt | rfl | hgt
  · rw [if_neg (by omega), Function.update_of_ne (by omega), Function.update_of_ne (by omega)]
  · simp
  · obtain ⟨j, rfl⟩ : ∃ j, i = p + 1 + j := ⟨i - (p + 1), by omega⟩
    rw [if_pos (by omega), show p + 1 + j - p = j + 1 by omega]
    cases j with
    | zero => simp
    | succ j => rw [Function.update_of_ne (by omega), Function.update_of_ne (by omega)]; rfl

/-- Storing a word where the header has 0 adds it to the sum. -/
theorem sum_headerWords_put (data : Nat → UInt8) (a b : UInt8) {headerLength : Nat} (h : IPV4_MINIMAL_HEADER_SIZE ≤ headerLength) :
    (headerWords (putBytes (putBytes data (ETHERNET_SIMPLE_HEADER_SIZE + 10) [0, 0]) (ETHERNET_SIMPLE_HEADER_SIZE + 10) [a, b])
      headerLength).sum =
    (headerWords (putBytes data (ETHERNET_SIMPLE_HEADER_SIZE + 10) [0, 0]) headerLength).sum + be16 a b := by
  rw [IPV4_MINIMAL_HEADER_SIZE] at h
  have hword (k : Nat) :
      be16 (putBytes (putBytes data 24 [0, 0]) 24 [a, b] (14 + 2 * k)) (putBytes (putBytes data 24 [0, 0]) 24 [a, b] (14 + 2 * k + 1)) =
      be16 (putBytes data 24 [0, 0] (14 + 2 * k)) (putBytes data 24 [0, 0] (14 + 2 * k + 1)) + if k = 5 then be16 a b else 0 := by
    by_cases hk : k = 5
    · subst hk
      simp [putBytes_two, be16_eq]
    · rw [if_neg hk, putBytes_two _ 24 a b, Function.update_of_ne (by omega), Function.update_of_ne (by omega),
        Function.update_of_ne (by omega), Function.update_of_ne (by omega)]
      exact (Nat.add_zero _).symm
  have hone : ((List.range (headerLength / 2)).map fun k => if k = 5 then be16 a b else 0).sum = be16 a b := by
    show ∑ k ∈ Finset.range (headerLength / 2), (if k = 5 then be16 a b else 0) = be16 a b
    rw [Finset.sum_ite_eq', if_pos (Finset.mem_range.mpr (by omega))]
  unfold headerWords
  rw [ETHERNET_SIMPLE_HEADER_SIZE, funext hword, List.sum_map_add, hone]

theorem endAroundSum_putChecksum (data : Nat → UInt8) {headerLength : Nat} (h : IPV4_MINIMAL_HEADER_SIZE ≤ headerLength) :
    endAroundSum 16 (headerWords (putChecksum data headerLength) headerLength) = 0xFFFF := by
  have hloop (zeroed : Nat → UInt8) : ((List.range (headerLength / 2)).foldl (fun c k => addWord c
      (zeroed (ETHERNET_SIMPLE_HEADER_SIZE + 2 * k)) (zeroed (ETHERNET_SIMPLE_HEADER_SIZE + 2 * k + 1))) 0).toNat =
      residue 16 (headerWords zeroed headerLength).sum := by
    rw [← endAroundSum_eq (by decide) (headerWords_lt zeroed headerLength)]
    exact toNat_foldl_addWord _ _ _ (by decide)
  rw [endAroundSum_eq (by decide) (headerWords_lt _ _)]
  unfold putChecksum
  dsimp only
  have hlt := residue_lt (show 0 < 16 by decide)
  rw [sum_headerWords_put data _ _ h, be16_complement (by rw [hloop]; exact hlt _), hloop]
  exact residue_add_complement (by decide) _

theorem putChecksum_of_ne (data : Nat → UInt8) (headerLength : Nat) {i : Nat} (h10 : i ≠ ETHERNET_SIMPLE_HEADER_SIZE + 10)
    (h11 : i ≠ ETHERNET_SIMPLE_HEADER_SIZE + 11) : putChecksum data headerLength i = data i := by
  unfold putChecksum
  rw [putBytes_two, putBytes_two, Function.update_of_ne h11, Function.update_of_ne h10, Function.update_of_ne h11,
    Function.update_of_ne h10]

/-- A frame that is sent as an IPv4 packet has a header that sums up to all
ones, and only the bytes of the checksum have been written. -/
theorem finishWriteBuffer_checksum (s : LoopbackNetworkInterface) (length : Nat)
    (hfree : (s.rxAndTxDescs s.currentTx).isFull = false)
    (hheader : IPV4_MINIMAL_HEADER_SIZE ≤ headerLength (s.rxAndTxBuffers s.currentTx))
    (hlength : ETHERNET_SIMPLE_HEADER_SIZE + headerLength (s.rxAndTxBuffers s.currentTx) ≤ length)
    (hmtu : length ≤ ETHERNET_MTU + ETHERNET_SIMPLE_HEADER_SIZE) : ∃ t, s.finishWriteBuffer length true = some t ∧
    headerLength (t.rxAndTxBuffers s.currentTx) = headerLength (s.rxAndTxBuffers s.currentTx) ∧
    endAroundSum 16 (headerWords (t.rxAndTxBuffers s.currentTx) (headerLength (s.rxAndTxBuffers s.currentTx))) = 0xFFFF ∧
    ∀ slot i, t.rxAndTxBuffers slot i ≠ s.rxAndTxBuffers slot i →
      slot = s.currentTx ∧ (i = ETHERNET_SIMPLE_HEADER_SIZE + 10 ∨ i = ETHERNET_SIMPLE_HEADER_SIZE + 11) := by
  have hbytes : s.checkedBytes length true =
      some (putChecksum (s.rxAndTxBuffers s.currentTx) (headerLength (s.rxAndTxBuffers s.currentTx))) := by
    unfold checkedBytes
    rw [hfree, if_neg (by omega), if_neg (by omega), if_neg (by simp), if_pos rfl, if_neg (by omega), if_neg (by omega),
      if_neg (by omega)]
  refine ⟨_, by rw [finishWriteBuffer, hbytes]; rfl, ?_, ?_, ?_⟩
  · dsimp only
    rw [Function.update_self, headerLength, putChecksum_of_ne _ _ (by decide) (by decide), headerLength]
  · dsimp only
    rw [Function.update_self]
    exact endAroundSum_putChecksum _ hheader
  · intro slot i hne
    by_cases hslot : slot = s.currentTx
    · subst hslot
      refine ⟨rfl, ?_⟩
      by_contra hno
      refine hne ?_
      dsimp only
      rw [Function.update_self]
      exact putChecksum_of_ne _ _ (fun h10 => hno (.inl h10)) fun h11 => hno (.inr h11)
    · refine absurd ?_ hne
      dsimp only
      rw [Function.update_of_ne hslot]

/-- A header of ones and zeros; its checksum field holds garbage. -/
theorem finishWriteBuffer_checksum_ones : ∃ t,
    (init fun _ i => if i = 14 then 0x45 else if i % 2 = 0 then 0xFF else 0).finishWriteBuffer 34 true = some t ∧
    endAroundSum 16 (headerWords (t.rxAndTxBuffers ⟨0, firstSlot_lt⟩) 20) = 0xFFFF := by
  obtain ⟨t, hcall, _, hsum, _⟩ := finishWriteBuffer_checksum
    (init fun _ i => if i = 14 then 0x45 else if i % 2 = 0 then 0xFF else 0) 34 rfl (by decide) (by decide) (by decide)
  exact ⟨t, hcall, hsum⟩

end LoopbackNetworkInterface

end CpuScheduler.L2
