import CpuScheduler.L2Network.Delivery
import CpuScheduler.L3Sockets.KernelWrites

/-!
# A datagram for an open socket

`handleReceivedPacket` copies fragment by fragment before it knows whether the
sizes add up to the length in the UDP header. `datagram_delivery` says, for
every chain the reassembly has put into the ready list, which datagrams the
socket takes, what is in its receive buffer afterwards, and that neither the
copying nor the sums leave their bounds on the way.
-/
namespace CpuScheduler.L3

open Links Word L2 SocketManager

variable {T : Nat} {packet : IPv4Packet} {fragments : List IPv4Packet}

/-! ## The header in the receive buffer -/

theorem ofNat_and_255 (x : Nat) : UInt8.ofNat (x &&& 0xFF) = UInt8.ofNat x := by
  have hand : x &&& 0xFF = x % 256 := Nat.and_two_pow_sub_one_eq_mod x 8
  apply UInt8.toNat_inj.mp
  rw [hand, UInt8.toNat_ofNat', UInt8.toNat_ofNat', Nat.mod_mod]

theorem toUInt8_and_255 (x : UInt32) : (x &&& 0xFF).toUInt8 = UInt8.ofNat x.toNat := by
  have hand : x.toNat &&& 0xFF = x.toNat % 256 := Nat.and_two_pow_sub_one_eq_mod x.toNat 8
  apply UInt8.toNat_inj.mp
  rw [UInt32.toNat_toUInt8, UInt32.toNat_and, UInt8.toNat_ofNat']
  simp only [UInt32.reduceToNat]
  rw [hand, Nat.mod_mod]

/-- Address, port and size in the machine's order. -/
theorem receiveHeader_eq (packet : IPv4Packet) (length : Nat) : receiveHeader packet length =
    littleEndian 4 packet.sourceIP.toNat ++ littleEndian 2 (be16 (packet.data 0) (packet.data 1)) ++
      littleEndian 2 (length - UDP_HEADER_SIZE) := by
  simp only [receiveHeader, toUInt8_and_255, ofNat_and_255, UInt32.toNat_shiftRight, Nat.shiftRight_eq_div_pow]
  simp [littleEndian, List.range_succ]

/-! ## Sums of sizes -/

/-- The sizes of all packets of the chain. -/
def totalDataSize (packets : List IPv4Packet) : Nat := (packets.map (·.dataSize)).sum

theorem length_fragmentData (packets : List IPv4Packet) : (fragmentData packets).length = totalDataSize packets := by
  induction packets with
  | nil => rfl
  | cons p ps ih =>
    have hdata : fragmentData (p :: ps) = slice p.data 0 p.dataSize ++ fragmentData ps := rfl
    rw [hdata, List.length_append, length_slice, ih, totalDataSize, totalDataSize, List.map_cons, List.sum_cons]

theorem length_udpData (hmin : UDP_HEADER_SIZE ≤ packet.dataSize) :
    UDP_HEADER_SIZE + (udpData packet fragments).length = totalDataSize (packet :: fragments) := by
  rw [udpData, List.length_append, length_slice, length_fragmentData, totalDataSize, totalDataSize, List.map_cons,
    List.sum_cons]
  omega

/-- The values of `accumulatedUDPSize + dataSize` before they are compared as
32 bits and stored as 16 bits. mirrors socket_manager.cpp:186-203 -/
def copySums (udpLength : Nat) : Nat → List IPv4Packet → List Nat
  | _, [] => []
  | accumulatedUDPSize, packet :: packets =>
    (accumulatedUDPSize + packet.dataSize) ::
      if (accumulatedUDPSize + packet.dataSize) % 2 ^ 32 > udpLength then []
      else copySums udpLength ((accumulatedUDPSize + packet.dataSize) % 2 ^ 16) packets

/-- No sum is too large for the comparison, and none that is stored is too
large for the counter. -/
theorem copySums_fit {length : Nat} (hlength : length < 2 ^ 16) {packets : List IPv4Packet} (hsized : Sized packets)
    {accumulated : Nat} (hacc : accumulated ≤ length) :
    ∀ x ∈ copySums length accumulated packets, x < 2 ^ 32 ∧ (x % 2 ^ 32 ≤ length → x < 2 ^ 16) := by
  induction packets generalizing accumulated with
  | nil =>
    intro x hx
    cases hx
  | cons p ps ih =>
    have hp : p.dataSize < 2 ^ 16 := hsized p (by simp)
    intro x hx
    rcases List.mem_cons.mp hx with rfl | hx
    · exact ⟨by omega, fun hle => by omega⟩
    · split at hx
      · cases hx
      · rename_i hsmall
        have hnext : (accumulated + p.dataSize) % 2 ^ 16 = accumulated + p.dataSize := by omega
        rw [hnext] at hx
        exact ih (fun q hq => hsized q (by simp [hq])) (by omega) x hx

/-! ## Delivery -/

/-- Which datagrams a socket with `size` bytes left takes. -/
def Accepts (packet : IPv4Packet) (fragments : List IPv4Packet) (size : Nat) : Prop :=
  packet.protocol = 17 ∧ UDP_HEADER_SIZE ≤ packet.dataSize ∧
    totalDataSize (packet :: fragments) = udpLength packet ∧ udpLength packet + RECEIVE_BUFFER_HEADER_SIZE ≤ size

/-- What is in the receive buffer afterwards: source address, source port and
size, the data, and a header of zeros. -/
def receivedBytes (packet : IPv4Packet) (fragments : List IPv4Packet) : List UInt8 :=
  littleEndian 4 packet.sourceIP.toNat ++ littleEndian 2 (be16 (packet.data 0) (packet.data 1)) ++
    littleEndian 2 (udpLength packet - UDP_HEADER_SIZE) ++ udpData packet fragments ++
    List.replicate RECEIVE_BUFFER_HEADER_SIZE 0

/-- What a call does to the socket with descriptor `d` and to memory. -/
structure Delivery (s : SocketManager T) (mem : Mem) (t : Fin T) (i : SocketID) (packet : IPv4Packet)
    (fragments : List IPv4Packet) (r : SocketManager T × Mem) : Prop where
  accepted : Accepts packet fragments (s.socketDescs t i).receiveBufferSize.toNat →
    (∀ k < udpLength packet + RECEIVE_BUFFER_HEADER_SIZE,
      view r.2 (s.socketDescs t i).receiveBuffer k = (receivedBytes packet fragments).getD k 0) ∧
    (r.1.socketDescs t i).receiveBuffer = (s.socketDescs t i).receiveBuffer + UInt32.ofNat (udpLength packet) ∧
    (r.1.socketDescs t i).receiveBufferSize.toNat + udpLength packet =
      (s.socketDescs t i).receiveBufferSize.toNat ∧
    ((s.socketDescs t i).receiveBuffer.toNat + (s.socketDescs t i).receiveBufferSize.toNat ≤ 2 ^ 32 →
      (r.1.socketDescs t i).receiveBuffer.toNat = (s.socketDescs t i).receiveBuffer.toNat + udpLength packet)
  rejected : ¬ Accepts packet fragments (s.socketDescs t i).receiveBufferSize.toNat → r.1 = s ∧
    ∀ k < RECEIVE_BUFFER_HEADER_SIZE,
      view r.2 (s.socketDescs t i).receiveBuffer k = view mem (s.socketDescs t i).receiveBuffer k

/-- What `Taken` says at the start of the buffer. -/
theorem Taken.delivered {s : SocketManager T} {mem : Mem} {t : Fin T} {i : SocketID} {r : SocketManager T × Mem}
    (hlength : udpLength packet = UDP_HEADER_SIZE + (udpData packet fragments).length)
    (h : Taken s mem t i packet fragments (s.socketDescs t i).receiveBuffer 0
      (s.socketDescs t i).receiveBufferSize.toNat r) :
    (∀ k < udpLength packet + RECEIVE_BUFFER_HEADER_SIZE,
      view r.2 (s.socketDescs t i).receiveBuffer k = (receivedBytes packet fragments).getD k 0) ∧
    (r.1.socketDescs t i).receiveBuffer = (s.socketDescs t i).receiveBuffer + UInt32.ofNat (udpLength packet) ∧
    (r.1.socketDescs t i).receiveBufferSize.toNat + udpLength packet =
      (s.socketDescs t i).receiveBufferSize.toNat := by
  have hlen : udpLength packet = RECEIVE_BUFFER_HEADER_SIZE + (udpData packet fragments).length := hlength
  have hfits := h.fits
  obtain ⟨d, hr, -, -, hbuffer, hsize⟩ := h.manager
  have hdesc : r.1.socketDescs t i = d := by rw [hr, socketDescs_setDesc]
  refine ⟨fun k hk => ?_, ?_, ?_⟩
  · -- the header, the data, or the zeros
    have hheader : (receiveHeader packet (udpLength packet)).length = 8 := rfl
    rw [receivedBytes, ← receiveHeader_eq]
    have hall := h.header
    rw [← hlength] at hall
    unfold RECEIVE_BUFFER_HEADER_SIZE at hk hlen hall ⊢
    by_cases h1 : k < 8
    · rw [List.append_assoc, List.getD_append _ _ _ _ (by omega), ← hall k h1, Nat.zero_add]
    · rw [List.append_assoc, List.getD_append_right _ _ _ _ (by omega), hheader]
      by_cases h2 : k - 8 < (udpData packet fragments).length
      · rw [List.getD_append _ _ _ _ h2, ← h.data (k - 8) h2]
        congr 1
        unfold RECEIVE_BUFFER_HEADER_SIZE
        omega
      · have hzero := h.zeros (k - 8 - (udpData packet fragments).length) (by unfold RECEIVE_BUFFER_HEADER_SIZE; omega)
        unfold RECEIVE_BUFFER_HEADER_SIZE at hzero
        rw [List.getD_append_right _ _ _ _ (by omega), List.getD_replicate _ (by omega), ← hzero]
        congr 1
        omega
  · rw [hdesc, hbuffer, hlen, Nat.zero_add]
  · rw [hdesc, hsize, hlen]
    unfold RECEIVE_BUFFER_HEADER_SIZE at hfits ⊢
    omega

section Bound
variable {s : SocketManager T} {t : Fin T} {i : SocketID} {udpPort : UInt16}

/-- A datagram for a bound port is written into the receive buffer of the
socket only. -/
theorem receivedWrites_bound (hb : s.boundSocket udpPort = some (some (t, i))) (mem : Mem)
    (behind : Nat → UDPPortState) (hsized : Sized (packet :: fragments))
    (hport : destinationPort packet = udpPort.toNat) :
    ∀ a ∈ s.receivedWrites mem behind packet fragments, a.Within (s.socketDescs t i).received := by
  obtain ⟨hact, hindex⟩ := portState_of_bound hb behind
  rw [← hport] at hact hindex
  intro a ha
  unfold receivedWrites at ha
  split at ha
  · cases ha
  · split at ha
    · cases ha
    · rename_i hmin
      dsimp only at ha
      rw [← destinationPort, if_neg hact, hindex] at ha
      exact deliverWrites_within s mem t i hsized (Nat.le_of_not_lt hmin) a ha

theorem received_delivery (hb : s.boundSocket udpPort = some (some (t, i))) (mem : Mem) (behind : Nat → UDPPortState)
    (hsized : Sized (packet :: fragments)) (hport : destinationPort packet = udpPort.toNat) :
    ∃ r, (s.handleReceivedPacket mem behind packet fragments).val = some r ∧
      Delivery s mem t i packet fragments r := by
  have hlt := (s.socketDescs t i).receiveBufferSize.toNat_lt
  by_cases hudp : packet.protocol = 17 ∧ UDP_HEADER_SIZE ≤ packet.dataSize
  · refine ⟨_, handleReceivedPacket_bound hb mem behind fragments hport hudp.1 hudp.2, ?_⟩
    have hsum : UDP_HEADER_SIZE + (udpData packet fragments).length = totalDataSize (packet :: fragments) :=
      length_udpData hudp.2
    have hrb : (s.socketDescs t i).receiveBuffer = (s.socketDescs t i).receiveBuffer + UInt32.ofNat 0 := by simp
    have hiff : Accepts packet fragments (s.socketDescs t i).receiveBufferSize.toNat ↔
        Acceptable packet fragments (s.socketDescs t i).receiveBufferSize.toNat := by
      unfold Accepts Acceptable
      unfold UDP_HEADER_SIZE at hsum hudp ⊢
      unfold RECEIVE_BUFFER_HEADER_SIZE
      exact ⟨fun h => by omega, fun h => ⟨hudp.1, by omega⟩⟩
    rcases deliver_cases mem hrb rfl (by omega) hsized hudp.2 with ⟨hacc, htaken⟩ | ⟨hrej, hdropped⟩
    · obtain ⟨hbytes, hbuffer, hsize⟩ := htaken.delivered hacc.1
      refine ⟨fun _ => ⟨hbytes, hbuffer, hsize, fun hspace => ?_⟩, fun hnot => absurd (hiff.mpr hacc) hnot⟩
      have hroom := (hiff.mpr hacc).2.2.2
      unfold RECEIVE_BUFFER_HEADER_SIZE at hroom
      rw [hbuffer, UInt32.toNat_add, UInt32.toNat_ofNat']
      omega
    · refine ⟨fun hacc => absurd (hiff.mp hacc) hrej, fun _ => ⟨hdropped.manager, fun k hk => ?_⟩⟩
      unfold RECEIVE_BUFFER_HEADER_SIZE at hk
      exact hdropped.frame k (by omega) (.inl (by unfold RECEIVE_BUFFER_HEADER_SIZE; omega))
  · refine ⟨(s, mem), ?_, fun hacc => absurd ⟨hacc.1, hacc.2.1⟩ hudp, fun _ => ⟨rfl, fun _ _ => rfl⟩⟩
    rw [handleReceivedPacket_of_not_udp s mem behind packet fragments hudp]
    rfl

end Bound

/-- The socket that has an active port open. -/
theorem boundSocket_of_port {s : SocketManager T} (ho : Owned s) {p : Fin NUM_UDP_PORTS}
    (hact : (s.udpPortStates p).isActive ≠ 0) : ∃ udpPort t i, udpPort.toNat = p.val ∧
      s.boundSocket udpPort = some (some (t, i)) ∧ (s.socketDescs t i).isActive = 1 ∧
      (s.socketDescs t i).udpPort.toNat = p.val := by
  obtain ⟨_, t, i, hindex, hdesc, hport⟩ := ho.port p hact
  refine ⟨(s.socketDescs t i).udpPort, t, i, hport, ?_, hdesc, hport⟩
  exact boundSocket_of_owned ho (by rw [hdesc]; decide)

/-- Every chain of the ready list, on every reachable socket layer. -/
theorem datagram_delivery {n h l : Nat} [NeZero n] [NeZero h] (hT : T ≤ 256) (s : Sockets T)
    (hs : (socketLTS T).Reachable s) (handler : NetworkStackHandler n h l)
    (hh : (handlerLTS n h l).Reachable handler) (c : List (Fin n)) (hc : c ∈ readyChains handler)
    (packet : IPv4Packet) (fragments : List IPv4Packet) (hchain : c.map handler.value = packet :: fragments)
    (behind : Nat → UDPPortState) (hport : destinationPort packet < NUM_UDP_PORTS)
    (hopen : (s.manager.udpPortStates ⟨destinationPort packet, hport⟩).isActive ≠ 0) :
    ∃ t i, (s.manager.socketDescs t i).isActive = 1 ∧
      (s.manager.socketDescs t i).udpPort.toNat = destinationPort packet ∧
      ∃ r, (s.manager.handleReceivedPacket s.mem behind packet fragments).val = some r ∧
        Delivery s.manager s.mem t i packet fragments r ∧
        (∀ a ∈ s.manager.receivedWrites s.mem behind packet fragments,
          a.Within (s.manager.socketDescs t i).received) ∧
        (∀ x, ¬ (s.manager.socketDescs t i).received.Mem x → r.2 x = s.mem x) ∧
        ∀ x ∈ copySums (udpLength packet) 0 (packet :: fragments),
          x < 2 ^ 32 ∧ (x % 2 ^ 32 ≤ udpLength packet → x < 2 ^ 16) := by
  have hsized : Sized (packet :: fragments) := by
    intro p hp
    rw [← hchain] at hp
    obtain ⟨x, hx, rfl⟩ := List.mem_map.mp hp
    exact ready_sizes hh hc hx
  obtain ⟨udpPort, t, i, hudp, hb, hdesc, hp⟩ := boundSocket_of_port (owned_of_reachable hT hs) hopen
  obtain ⟨r, hr, hdelivery⟩ := received_delivery hb s.mem behind hsized hudp.symm
  have hwithin := receivedWrites_bound hb s.mem behind hsized hudp.symm
  refine ⟨t, i, hdesc, hp, r, hr, hdelivery, hwithin, fun x hx => ?_, ?_⟩
  · exact received_frame hr fun a ha hmem => hx (hwithin a ha x hmem)
  · exact copySums_fit (udpLength_lt packet) hsized (Nat.zero_le _)

/-! ## One byte for port 80 -/

theorem fits_43 : 43 ≤ RX_BUFFER_SIZE := by decide

/-- A frame from 10.0.0.2 to 10.0.0.1 with one byte for port 80. -/
def frameTo80 : RxFrame where
  data i := [0xFF, 0xFF, 0xFF, 0xFF, 0xFF, 0xFF, 2, 0, 0, 0, 0, 2, 0x08, 0x00, 0x45, 0, 0, 29, 0, 1,
    0, 0, 255, 17, 0, 0, 10, 0, 0, 2, 10, 0, 0, 1, 0x30, 0x39, 0, 80, 0, 9, 0, 0, 7].getD i 0
  dataLen := 43
  fits := fits_43

theorem datagram_delivery_port80 : ∃ handler : NetworkStackHandler 2 1 1, (handlerLTS 2 1 1).Reachable handler ∧
    Accepts (handler.value 0) [] 64 ∧ ∃ t i r,
      (port80.manager.handleReceivedPacket port80.mem (fun _ => ⟨0, 0, 0⟩) (handler.value 0) []).val = some r ∧
      Delivery port80.manager port80.mem t i (handler.value 0) [] r := by
  have hrun : (twoBuffers.calls [.incoming frameTo80]).any (fun t => decide (readyChains t = [[0]] ∧
      destinationPort (t.value 0) = 80 ∧ (t.value 0).protocol = 17 ∧ (t.value 0).dataSize = 9 ∧
      udpLength (t.value 0) = 9)) = true := by decide +kernel
  rw [Option.any_eq_true] at hrun
  obtain ⟨handler, hcalls, hdec⟩ := hrun
  obtain ⟨hready, hport, hproto, hsize, hlength⟩ := of_decide_eq_true hdec
  have hreach := reachable_of_calls init_twoBuffers hcalls
  have hlt : destinationPort (handler.value 0) < NUM_UDP_PORTS := by
    rw [hport]
    decide
  have hopen : (port80.manager.udpPortStates ⟨destinationPort (handler.value 0), hlt⟩).isActive ≠ 0 := by
    have hp : (⟨destinationPort (handler.value 0), hlt⟩ : Fin NUM_UDP_PORTS) = ⟨80, by decide⟩ := Fin.ext hport
    rw [hp]
    decide +kernel
  obtain ⟨t, i, -, -, r, hr, hdelivery, -⟩ := datagram_delivery (by decide) port80 reachable_port80 handler hreach [0]
    (by rw [hready]; simp) (handler.value 0) [] rfl (fun _ => ⟨0, 0, 0⟩) hlt hopen
  refine ⟨handler, hreach, ⟨hproto, ?_, ?_, ?_⟩, t, i, r, hr, hdelivery⟩
  · rw [hsize]
    decide
  · simp [totalDataSize, hsize, hlength]
  · rw [hlength]
    decide

end CpuScheduler.L3
