import CpuScheduler.L2Network.PhysicalTransmit
import CpuScheduler.L2Network.RoundTrip

/-!
# Checksum in hardware and in software

The card sums up bytes 14 to 33 as they are; the loopback interface sums up as
many bytes as the header length says and counts the checksum field as zero.
`handleOutgoingIPv4Packet` writes headers of 20 bytes with an empty checksum
field, so both interfaces put the same bytes on the wire
(`offload_same_bytes`).
-/
namespace CpuScheduler.L2

open Word EndAround NetworkStackHandler

variable {n h l : Nat}

theorem getElem_bytesFrom (space : Nat → UInt8) (start length : Nat) {k : Nat} (hk : k < (bytesFrom space start length).length) :
    (bytesFrom space start length)[k] = space (start + k) := by
  simp [bytesFrom]

theorem getD_bytesFrom (space : Nat → UInt8) {start length k : Nat} (hk : k < length) :
    (bytesFrom space start length).getD k 0 = space (start + k) := by
  rw [List.getD_eq_getElem?_getD, List.getElem?_eq_getElem (by simpa using hk), Option.getD_some, getElem_bytesFrom]

/-- The two bytes of a word that is known. -/
theorem bytes_of_be16 {a b : UInt8} {v : Nat} (h : be16 a b = v) : a = UInt8.ofNat (v / 256) ∧ b = UInt8.ofNat v := by
  have ha := a.toNat_lt
  have hb := b.toNat_lt
  rw [be16_eq] at h
  constructor
  · apply UInt8.toNat_inj.mp
    rw [UInt8.toNat_ofNat']
    omega
  · apply UInt8.toNat_inj.mp
    rw [UInt8.toNat_ofNat']
    omega

theorem putBytes_same (space : Nat → UInt8) {start : Nat} {bytes : List UInt8}
    (h : ∀ k (hk : k < bytes.length), space (start + k) = bytes[k]) : putBytes space start bytes = space := by
  funext i
  by_cases hi : start ≤ i ∧ i < start + bytes.length
  · have hk : i - start < bytes.length := by omega
    rw [putBytes, if_pos hi.1, List.getElem?_eq_getElem hk, Option.getD_some, ← h _ hk]
    congr 1
    omega
  · exact putBytes_outside space (by omega)

/-- The words the card sums up are those of the shortest header. -/
theorem cardWords_eq (data : Nat → UInt8) {length : Nat} (hlength : 34 ≤ length) :
    ((List.range ((33 + 1 - 14) / 2)).map fun k => be16 ((bytesFrom data 0 length).getD (14 + 2 * k) 0)
      ((bytesFrom data 0 length).getD (14 + 2 * k + 1) 0)) = LoopbackNetworkInterface.headerWords data IPV4_MINIMAL_HEADER_SIZE := by
  refine List.map_congr_left fun k hk => ?_
  have hk := List.mem_range.mp hk
  rw [getD_bytesFrom _ (by omega), getD_bytesFrom _ (by omega), Nat.zero_add, Nat.zero_add]
  rfl

theorem insertChecksum_eq (data : Nat → UInt8) {length : Nat} (hlength : 34 ≤ length) (h24 : data 24 = 0) (h25 : data 25 = 0) :
    insertChecksum 14 24 33 (bytesFrom data 0 length) =
      bytesFrom (LoopbackNetworkInterface.putChecksum data IPV4_MINIMAL_HEADER_SIZE) 0 length := by
  have hempty : putBytes data (ETHERNET_SIMPLE_HEADER_SIZE + 10) [0, 0] = data := by
    refine putBytes_same data fun k hk => ?_
    have hk : k = 0 ∨ k = 1 := by
      rw [List.length_cons, List.length_singleton] at hk
      omega
    rcases hk with rfl | rfl
    · exact h24
    · exact h25
  have hsum := LoopbackNetworkInterface.toNat_foldl_addWord (fun k => data (ETHERNET_SIMPLE_HEADER_SIZE + 2 * k))
    (fun k => data (ETHERNET_SIMPLE_HEADER_SIZE + 2 * k + 1)) (List.range (IPV4_MINIMAL_HEADER_SIZE / 2))
    (show (0 : UInt32).toNat < 2 ^ 16 by decide)
  unfold LoopbackNetworkInterface.putChecksum
  rw [hempty]
  generalize hloop : (List.range (IPV4_MINIMAL_HEADER_SIZE / 2)).foldl (fun c k => LoopbackNetworkInterface.addWord c
    (data (ETHERNET_SIMPLE_HEADER_SIZE + 2 * k)) (data (ETHERNET_SIMPLE_HEADER_SIZE + 2 * k + 1))) 0 = sum at hsum
  have hwords : sum.toNat = endAroundSum 16 (LoopbackNetworkInterface.headerWords data IPV4_MINIMAL_HEADER_SIZE) := hsum
  have hlt : sum.toNat < 2 ^ 16 := by
    rw [hwords, endAroundSum_eq (by decide) (LoopbackNetworkInterface.headerWords_lt data _)]
    exact residue_lt (by decide) _
  obtain ⟨hhi, hlo⟩ := bytes_of_be16 (LoopbackNetworkInterface.be16_complement hlt)
  dsimp only
  rw [hloop, hhi, hlo, LoopbackNetworkInterface.putBytes_two, hwords]
  unfold insertChecksum
  rw [cardWords_eq data hlength]
  refine List.ext_getElem (by simp) fun k hk _ => ?_
  rw [getElem_bytesFrom, Nat.zero_add, List.getElem_set, List.getElem_set, getElem_bytesFrom, Nat.zero_add,
    ETHERNET_SIMPLE_HEADER_SIZE]
  by_cases hk25 : k = 25
  · subst hk25
    rw [if_pos rfl, Function.update_self]
    rfl
  · rw [if_neg (by omega), Function.update_of_ne hk25]
    by_cases hk24 : k = 24
    · subst hk24
      rw [if_pos rfl, Function.update_self]
      rfl
    · rw [if_neg (by omega), Function.update_of_ne hk24]

/-! ## The packets of the handler -/

/-- A call that has sent something has sent a fragment. -/
theorem outgoing_sendFragment [NeZero h] (s : NetworkStackHandler n h l) (a : OutgoingArgs)
    (hprogress : (s.outgoing a).1.progress = .done ∨ (s.outgoing a).1.progress = .sendingFragment)
    (hsize : 0 < (s.outgoing a).1.size) : ∃ (s' : NetworkStackHandler n h l) (b : Fin h) (i : Fin l) (data buffer : Nat → UInt8),
      (s.outgoing a).1 = (s'.sendFragment b i a.destinationIP a.protocol data a.dataLen a.identification a.fragmentOffset buffer).1 := by
  revert hprogress hsize
  unfold outgoing handleOutgoingIPv4Packet
  split
  · rename_i data buffer _ _
    split
    · intro _ hsize
      exact absurd hsize (Nat.lt_irrefl 0)
    · dsimp only
      split
      · intro hprogress
        rcases hprogress with h | h <;> cases h
      · intro hprogress
        rcases hprogress with h | h <;> cases h
      · intro _ _
        exact ⟨_, _, _, data, buffer, rfl⟩
  · intro _ hsize
    exact absurd hsize (Nat.lt_irrefl 0)

/-- The length byte and the checksum field of a fragment. -/
theorem sendFragment_header (s : NetworkStackHandler n h l) (b : Fin h) (i : Fin l) (dest : UInt32) (protocol : UInt8)
    (data : Nat → UInt8) (dataLen : Nat) (identification : UInt16) (offset : Nat) (buffer : Nat → UInt8) :
    (s.sendFragment b i dest protocol data dataLen identification offset buffer).1.writeBuffer 14 = 0x45 ∧
      (s.sendFragment b i dest protocol data dataLen identification offset buffer).1.writeBuffer 24 = 0 ∧
      (s.sendFragment b i dest protocol data dataLen identification offset buffer).1.writeBuffer 25 = 0 := by
  have hbyte (s : NetworkStackHandler n h l) (mac : Fin 6 → UInt8) (sent : UInt16) (size : Nat) (last : Bool) {k : Nat} (hk : k < 22) :
      copyBytes (putBytes buffer 0 (s.fragmentHeader mac dest protocol sent offset size last)) 34 data offset size (12 + k) =
        (headerBytes s.myIP dest protocol sent offset size last).getD k 0 := by
    have hlen := length_fragmentHeader s mac dest protocol sent offset size last
    rw [copyBytes, if_neg (by omega), putBytes, if_pos (Nat.zero_le _), ← fragmentHeader_drop s mac,
      List.getD_eq_getElem?_getD, List.getElem?_drop, Nat.sub_zero, List.getElem?_eq_getElem (by omega)]
    rfl
  unfold sendFragment
  dsimp only
  split
  · exact ⟨hbyte _ _ _ _ _ (k := 2) (by omega), hbyte _ _ _ _ _ (k := 12) (by omega), hbyte _ _ _ _ _ (k := 13) (by omega)⟩
  · exact ⟨hbyte _ _ _ _ _ (k := 2) (by omega), hbyte _ _ _ _ _ (k := 12) (by omega), hbyte _ _ _ _ _ (k := 13) (by omega)⟩

theorem size_sendFragment (s : NetworkStackHandler n h l) (b : Fin h) (i : Fin l) (dest : UInt32) (protocol : UInt8)
    (data : Nat → UInt8) (dataLen : Nat) (identification : UInt16) (offset : Nat) (buffer : Nat → UInt8) :
    34 ≤ (s.sendFragment b i dest protocol data dataLen identification offset buffer).1.size ∧
      (s.sendFragment b i dest protocol data dataLen identification offset buffer).1.size ≤ 1514 := by
  unfold sendFragment
  dsimp only
  rw [ETHERNET_SIMPLE_HEADER_SIZE, IPV4_MINIMAL_HEADER_SIZE, ETHERNET_MTU]
  by_cases hlast : dataLen - offset < 1500 - 20
  · rw [decide_eq_true hlast, if_pos rfl]
    omega
  · rw [decide_eq_false hlast, if_neg (by simp)]
    omega

/-- An IPv4 packet of the handler goes out through the card with the bytes
with which it comes back from the loopback interface. -/
theorem offload_same_bytes [NeZero h] (s : NetworkStackHandler n h l) (a : OutgoingArgs) (interface : LoopbackNetworkInterface)
    (hprogress : (s.outgoing a).1.progress = .done ∨ (s.outgoing a).1.progress = .sendingFragment)
    (hsize : 0 < (s.outgoing a).1.size) (hfree : (interface.rxAndTxDescs interface.currentTx).isFull = false) :
    ∃ t, (interface.write (s.outgoing a).1.writeBuffer).finishWriteBuffer (s.outgoing a).1.size true = some t ∧
      t.frame interface.currentTx = some (onWire (bytesFrom (s.outgoing a).1.writeBuffer 0 (s.outgoing a).1.size, true)) := by
  obtain ⟨s', b, i, data, buffer, hcall⟩ := outgoing_sendFragment s a hprogress hsize
  obtain ⟨h14, h24, h25⟩ := sendFragment_header s' b i a.destinationIP a.protocol data a.dataLen a.identification
    a.fragmentOffset buffer
  obtain ⟨hmin, hmax⟩ := size_sendFragment s' b i a.destinationIP a.protocol data a.dataLen a.identification a.fragmentOffset buffer
  rw [← hcall] at h14 h24 h25 hmin hmax
  generalize (s.outgoing a).1.writeBuffer = bytes at h14 h24 h25 ⊢
  generalize (s.outgoing a).1.size = size at hmin hmax ⊢
  have hwrite : interface.write bytes =
      { interface with rxAndTxBuffers := Function.update interface.rxAndTxBuffers interface.currentTx bytes } := by
    unfold LoopbackNetworkInterface.write LoopbackNetworkInterface.getWriteBuffer
    rw [hfree]
    rfl
  have hheader : LoopbackNetworkInterface.headerLength bytes = IPV4_MINIMAL_HEADER_SIZE := by
    unfold LoopbackNetworkInterface.headerLength
    rw [ETHERNET_SIMPLE_HEADER_SIZE, h14]
    rfl
  have hbytes : (interface.write bytes).checkedBytes size true =
      some (LoopbackNetworkInterface.putChecksum bytes IPV4_MINIMAL_HEADER_SIZE) := by
    unfold LoopbackNetworkInterface.checkedBytes
    simp only [hwrite, hfree, Function.update_self, hheader, ETHERNET_SIMPLE_HEADER_SIZE, ETHERNET_MTU, IPV4_MINIMAL_HEADER_SIZE]
    rw [if_neg (by omega), if_neg (by omega), if_neg (by simp), if_pos trivial, if_neg (by omega), if_neg (by omega),
      if_neg (by omega)]
  refine ⟨_, by rw [LoopbackNetworkInterface.finishWriteBuffer, hbytes]; rfl, ?_⟩
  have hcur : (interface.write bytes).currentTx = interface.currentTx := by rw [hwrite]
  rw [onWire, if_pos rfl, insertChecksum_eq bytes hmin h24 h25, bytesFrom]
  simp only [LoopbackNetworkInterface.frame, hcur, Function.update_self, if_true, Nat.zero_add]

/-- One byte to the own address, which has answered. -/
theorem offload_same_bytes_one :
    0 < (resolvedBuffers.outgoing ⟨0x0A000001, 0, 0, 17, some fun _ => 7, 1, 0, 0, some fun _ => 0⟩).1.size ∧
    ∃ t, (emptyLoopback.interface.write (resolvedBuffers.outgoing
        ⟨0x0A000001, 0, 0, 17, some fun _ => 7, 1, 0, 0, some fun _ => 0⟩).1.writeBuffer).finishWriteBuffer
        (resolvedBuffers.outgoing ⟨0x0A000001, 0, 0, 17, some fun _ => 7, 1, 0, 0, some fun _ => 0⟩).1.size true = some t ∧
      t.frame emptyLoopback.interface.currentTx = some (onWire (bytesFrom (resolvedBuffers.outgoing
        ⟨0x0A000001, 0, 0, 17, some fun _ => 7, 1, 0, 0, some fun _ => 0⟩).1.writeBuffer 0 (resolvedBuffers.outgoing
        ⟨0x0A000001, 0, 0, 17, some fun _ => 7, 1, 0, 0, some fun _ => 0⟩).1.size, true)) := by
  have hprogress : (resolvedBuffers.outgoing ⟨0x0A000001, 0, 0, 17, some fun _ => 7, 1, 0, 0, some fun _ => 0⟩).1.progress = .done := by
    decide +kernel
  have hsize : 0 < (resolvedBuffers.outgoing ⟨0x0A000001, 0, 0, 17, some fun _ => 7, 1, 0, 0, some fun _ => 0⟩).1.size := by
    decide +kernel
  exact ⟨hsize, offload_same_bytes resolvedBuffers _ emptyLoopback.interface (.inl hprogress) hsize rfl⟩

end CpuScheduler.L2
