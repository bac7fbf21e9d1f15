import CpuScheduler.L2Network.RoundTrip
import CpuScheduler.L3Sockets.DatagramDelivery
import CpuScheduler.L3Sockets.TransmissionPass

/-!
# From the send buffer to the receive buffer

A packet at the front of a send buffer, the calls of the sending loop for it,
the frames they leave in the write buffers, the reassembly on the machine the
packet is for, and the receive buffer of the socket that has its port.

The payload does not reach the wire as the task wrote it: the first call puts
the UDP header over its first eight bytes (`payload`), in the task's memory.
Everything behind these arrives as it was (`arrivedBytes`).
-/
namespace CpuScheduler.L3

open Links Word L2 SocketManager

variable {T n h l n' h' l' : Nat}

/-! ## One call -/

section Sending
variable [NeZero h] [NeZero h']

/-- The interface for `destinationIP` has the address of this machine, and
its handler knows the next hop. -/
def Around.Reaches (w : Around n h l n' h' l') (thisIP destinationIP : UInt32) : Prop :=
  if destinationIP = thisIP then Resolved w.loopback destinationIP w.writeBuffer ∧ w.loopback.myIP = thisIP
  else Resolved w.physical destinationIP w.writeBuffer ∧ w.physical.myIP = thisIP

omit [NeZero h] [NeZero h'] in
/-- The identification the next datagram gets. -/
def Around.counter (w : Around n h l n' h' l') (thisIP destinationIP : UInt32) : UInt16 :=
  if destinationIP = thisIP then w.loopback.identificationCounter else w.physical.identificationCounter

/-- A call for fragment `j`, whichever interface it goes to. -/
theorem Around.sent_transmit {w : Around n h l n' h' l'} {thisIP : UInt32} {packet : OutgoingUDPPacket}
    (hw : w.Reaches thisIP packet.destinationIP) (hdata : packet.data ≠ 0) (hL : packet.dataLen.toNat < 65536)
    (mem : Mem) (identification : UInt16) {j : Nat} (hj : 1480 * j < packet.dataLen.toNat) :
    ∃ (a b c : Nat) (s : NetworkStackHandler a b c), s.myIP = thisIP ∧
      s.identificationCounter = w.counter thisIP packet.destinationIP ∧
      Sent s packet.destinationIP UDP_IPV4_PROTOCOL (view mem packet.data) packet.dataLen.toNat identification j
        (w.transmit thisIP packet mem identification (1480 * j)) := by
  unfold Around.Reaches at hw
  unfold Around.transmit Around.counter packetArgs
  rw [if_neg hdata]
  split
  · rename_i heq
    rw [if_pos heq] at hw
    exact ⟨_, _, _, w.loopback, hw.2, rfl, sent_handleOutgoing _ _ _ _ hj hL _ hw.1⟩
  · rename_i hne
    rw [if_neg hne] at hw
    exact ⟨_, _, _, w.physical, hw.2, rfl, sent_handleOutgoing _ _ _ _ hj hL _ hw.1⟩

/-- A call with nothing left to send. -/
theorem Around.transmit_nothing (w : Around n h l n' h' l') (thisIP : UInt32) {packet : OutgoingUDPPacket}
    (hdata : packet.data ≠ 0) (mem : Mem) (identification : UInt16) :
    w.transmit thisIP packet mem identification packet.dataLen.toNat =
      ⟨.done, 0, identification, packet.dataLen.toNat, w.writeBuffer⟩ := by
  unfold Around.transmit packetArgs NetworkStackHandler.outgoing NetworkStackHandler.handleOutgoingIPv4Packet
  rw [if_neg hdata]
  simp

/-! ## All calls for a packet -/

/-- What the calls of the sending loop left in the write buffers, in order.
mirrors network_management_task.cpp:339-384 -/
def transmitted (w : Nat → Around n h l n' h' l') (thisIP : UInt32) (packet : OutgoingUDPPacket) :
    Nat → Nat → Mem → UInt16 → Nat → List Outgoing
  | 0, _, _, _, _ => []
  | fuel + 1, k, mem, identification, fragmentOffset =>
    let mem := (w k).tasks mem
    let mem := if fragmentOffset = 0 then
        writeBytes mem packet.data (fun i => (udpHeader packet).getD i 0) 8
      else mem
    let state := (w k).transmit thisIP packet mem identification fragmentOffset
    (if state.size > 0 then [state] else []) ++
      if state.progress = .sendingFragment then
        transmitted w thisIP packet fuel (k + 1) mem state.identification state.fragmentOffset
      else []

/-- Memory holds the payload; of a packet of which nothing has been sent,
without the bytes for the header. -/
def HoldsPayload (mem : Mem) (packet : OutgoingUDPPacket) (payload : Nat → UInt8) (j : Nat) : Prop :=
  ∀ i, i < packet.dataLen.toNat → (j = 0 → 8 ≤ i) → view mem packet.data i = payload i

omit [NeZero h] [NeZero h'] in
theorem emits_congr {dest src : UInt32} {protocol : UInt8} {data payload : Nat → UInt8} {L j : Nat} {sent : UInt16}
    {o : Outgoing} (he : Emits dest (fragmentPacket src dest protocol data L sent j) o)
    (hdata : ∀ i, i < L → data i = payload i) : Emits dest (fragmentPacket src dest protocol payload L sent j) o := by
  intro f hf
  obtain ⟨hfor, hholds⟩ := he f hf
  refine ⟨hfor, hholds.eq, fun i hi => ?_⟩
  have hi' : i < min 1480 (L - 1480 * j) := hi
  rw [hholds.data i hi]
  exact hdata _ (by omega)

section Loop
variable {w : Nat → Around n h l n' h' l'} {thisIP : UInt32} {packet : OutgoingUDPPacket} {payload : Nat → UInt8}

omit [NeZero h] [NeZero h'] in
/-- The header completes the payload. -/
theorem HoldsPayload.withHeader {mem : Mem} (hm : HoldsPayload mem packet payload 0)
    (hheader : ∀ i, i < 8 → payload i = (udpHeader packet).getD i 0) :
    ∀ i, i < packet.dataLen.toNat →
      view (writeBytes mem packet.data (fun i => (udpHeader packet).getD i 0) 8) packet.data i = payload i := by
  intro i hi
  have hlt := packet.dataLen.toNat_lt
  have hread : view (writeBytes mem (packet.data + UInt32.ofNat 0) (fun i => (udpHeader packet).getD i 0) 8) packet.data i =
      if 0 ≤ i ∧ i < 0 + 8 then (udpHeader packet).getD (i - 0) 0 else view mem packet.data i :=
    view_writeBytes (by decide) (by omega)
  rw [show packet.data + UInt32.ofNat 0 = packet.data from UInt32.add_zero _] at hread
  rw [hread]
  by_cases h8 : i < 8
  · rw [if_pos ⟨Nat.zero_le i, by omega⟩, hheader i h8, Nat.sub_zero]
  · rw [if_neg (by omega)]
    exact hm i hi fun _ => by omega

/-- The calls from fragment `j` on: the last one says `Done`, and each frame
is the next fragment of the payload. -/
theorem transmitted_spec (hw : ∀ k, (w k).Reaches thisIP packet.destinationIP) (hdata : packet.data ≠ 0)
    (hL : packet.dataLen.toNat < 65536) (hpos : 0 < packet.dataLen.toNat)
    (hheader : ∀ i, i < 8 → payload i = (udpHeader packet).getD i 0)
    (htasks : ∀ k mem x, Span.Mem ⟨packet.data, packet.dataLen.toNat⟩ x → (w k).tasks mem x = mem x) (fuel : Nat) :
    ∀ (k j : Nat) (mem : Mem) (identification : UInt16), 1480 * j ≤ packet.dataLen.toNat →
      packet.dataLen.toNat / 1480 < j + fuel → HoldsPayload mem packet payload j →
      (∃ outcome, sendingLoop w thisIP packet fuel k mem identification (1480 * j) = some (.done, outcome) ∧
        outcome.fragmentOffset = packet.dataLen) ∧
      j + (transmitted w thisIP packet fuel k mem identification (1480 * j)).length =
        (packet.dataLen.toNat + 1479) / 1480 ∧
      ∀ i o, (transmitted w thisIP packet fuel k mem identification (1480 * j))[i]? = some o →
        Emits packet.destinationIP (fragmentPacket thisIP packet.destinationIP UDP_IPV4_PROTOCOL payload
          packet.dataLen.toNat (if j = 0 then (w k).counter thisIP packet.destinationIP else identification) (j + i)) o := by
  induction fuel with
  | zero => intro k j mem identification hj hfuel; omega
  | succ fuel ih =>
    intro k j mem identification hj hfuel hm
    have hmem : HoldsPayload ((w k).tasks mem) packet payload j := by
      intro i hi h8
      have hin : Span.Mem ⟨packet.data, packet.dataLen.toNat⟩ (packet.data + UInt32.ofNat i) :=
        Span.mem_of_lt hi packet.dataLen.toNat_lt.le
      exact (htasks k mem _ hin).trans (hm i hi h8)
    clear hm
    by_cases hend : 1480 * j = packet.dataLen.toNat
    · -- nothing is left: the call says `Done` and leaves no frame
      have hj0 : ¬ 1480 * j = 0 := by omega
      rw [sendingLoop, transmitted]
      rw [if_neg hj0, hend, (w k).transmit_nothing thisIP hdata]
      refine ⟨⟨_, rfl, UInt32.ofNat_toNat⟩, ?_, fun i o ho => ?_⟩
      · simp
        omega
      · simp at ho
    · have hlt : 1480 * j < packet.dataLen.toNat := by omega
      have hholds : ∀ i, i < packet.dataLen.toNat → view (if 1480 * j = 0 then
          writeBytes ((w k).tasks mem) packet.data (fun i => (udpHeader packet).getD i 0) 8
          else (w k).tasks mem) packet.data i = payload i := by
        by_cases hj0 : j = 0
        · subst hj0
          exact hmem.withHeader hheader
        · rw [if_neg (by omega)]
          exact fun i hi => hmem i hi fun h0 => absurd h0 hj0
      rw [sendingLoop, transmitted]
      generalize (if 1480 * j = 0 then
        writeBytes ((w k).tasks mem) packet.data (fun i => (udpHeader packet).getD i 0) 8
        else (w k).tasks mem) = mem' at hholds
      obtain ⟨a, b, c, s, hip, hcounter, hS⟩ := Around.sent_transmit (hw k) hdata hL mem' identification hlt
      generalize (w k).transmit thisIP packet mem' identification (1480 * j) = o at hS
      have hemit := emits_congr hS.emits hholds
      rw [hS.identification, hip, hcounter] at hemit
      have hsize : o.size > 0 := by
        rw [hS.size]
        omega
      rw [if_pos hsize]
      by_cases hlast : packet.dataLen.toNat - 1480 * j < 1480
      · have hdone : o.progress = .done := by rw [hS.progress, if_pos hlast]
        have hnot : ¬ o.progress = .sendingFragment := by
          rw [hdone]
          decide
        have hoff : o.fragmentOffset = packet.dataLen.toNat := by
          rw [hS.fragmentOffset]
          omega
        rw [if_neg hnot, if_neg hnot, hdone, hoff]
        refine ⟨⟨_, rfl, UInt32.ofNat_toNat⟩, ?_, fun i o' ho => ?_⟩
        · simp
          omega
        · rcases i with _ | i
          · obtain rfl : o = o' := by simpa using ho
            exact hemit
          · simp at ho
      · have hmore : o.progress = .sendingFragment := by rw [hS.progress, if_neg hlast]
        have hoff : o.fragmentOffset = 1480 * (j + 1) := by
          rw [hS.fragmentOffset]
          omega
        rw [if_pos hmore, if_pos hmore, hoff]
        obtain ⟨h1, h2, h3⟩ := ih (k + 1) (j + 1) mem' o.identification (by omega) (by omega)
          fun i hi _ => hholds i hi
        refine ⟨h1, ?_, fun i o' ho => ?_⟩
        · rw [List.length_append, List.length_singleton]
          omega
        · rcases i with _ | i
          · obtain rfl : o = o' := by simpa using ho
            exact hemit
          · have hrest := h3 i o' (by simpa using ho)
            rw [if_neg (by omega), hS.identification, hcounter] at hrest
            rw [show j + (i + 1) = j + 1 + i by omega]
            exact hrest

end Loop

end Sending

/-! ## The chain of the receiver -/

/-- What arrives of a packet: address and port of the sender, the size, the
data behind the UDP header, and the header of zeros. -/
def arrivedBytes (thisIP : UInt32) (udpPort : UInt16) (p : SentPacket) : List UInt8 :=
  littleEndian 4 thisIP.toNat ++ littleEndian 2 udpPort.toNat ++ littleEndian 2 (p.data.length - UDP_HEADER_SIZE) ++
    p.data.drop 8 ++ List.replicate RECEIVE_BUFFER_HEADER_SIZE 0

/-- The UDP header of a packet, with checksum 0. -/
def headerOf (udpPort : UInt16) (p : SentPacket) : List UInt8 :=
  [udpPort.toNat, p.destinationPort.toNat, p.data.length, 0].flatMap fun v =>
    [UInt8.ofNat (v >>> 8), UInt8.ofNat (v &&& 0xFF)]

theorem length_headerOf (udpPort : UInt16) (p : SentPacket) : (headerOf udpPort p).length = 8 := rfl

/-- The packet is in the receive buffer, and the buffer begins behind it. -/
structure Arrives (thisIP : UInt32) (udpPort : UInt16) (p : SentPacket) (before after : SocketDesc) (mem : Mem) :
    Prop where
  bytes : ∀ k < p.data.length + RECEIVE_BUFFER_HEADER_SIZE,
    view mem before.receiveBuffer k = (arrivedBytes thisIP udpPort p).getD k 0
  buffer : after.receiveBuffer = before.receiveBuffer + UInt32.ofNat p.data.length
  size : after.receiveBufferSize.toNat + p.data.length = before.receiveBufferSize.toNat

/-- What is sent of a packet: its data, under the UDP header. -/
def SentPacket.payload (udpPort : UInt16) (p : SentPacket) (i : Nat) : UInt8 :=
  (headerOf udpPort p ++ p.data.drop 8).getD i 0

/-- The header of the code. -/
theorem udpHeader_eq {packet : OutgoingUDPPacket} {udpPort : UInt16} {p : SentPacket}
    (hsource : packet.sourcePort = udpPort) (hdest : packet.destinationPort = p.destinationPort)
    (hlen : packet.dataLen.toNat = p.data.length) : udpHeader packet = headerOf udpPort p := by
  have word (x : UInt16) : (x >>> 8).toUInt8 = UInt8.ofNat (x.toNat >>> 8) ∧
      (x &&& 0xFF).toUInt8 = UInt8.ofNat (x.toNat &&& 0xFF) := by
    constructor
    · apply UInt8.toNat_inj.mp
      simp
    · apply UInt8.toNat_inj.mp
      simp
  have dword (x : UInt32) : (x >>> 8).toUInt8 = UInt8.ofNat (x.toNat >>> 8) ∧
      (x &&& 0xFF).toUInt8 = UInt8.ofNat (x.toNat &&& 0xFF) := by
    constructor
    · apply UInt8.toNat_inj.mp
      simp
    · apply UInt8.toNat_inj.mp
      simp
  simp only [udpHeader, headerOf, word, dword, hsource, hdest, hlen, List.flatMap_cons, List.flatMap_nil,
    List.cons_append, List.nil_append]
  rfl

theorem drop_payload (udpPort : UInt16) (p : SentPacket) :
    ((List.range p.data.length).map (p.payload udpPort)).drop 8 = p.data.drop 8 := by
  refine List.ext_getElem (by simp) fun i h1 h2 => ?_
  rw [List.getElem_drop, List.getElem_map, List.getElem_range, SentPacket.payload,
    List.getD_append_right _ _ _ _ (by simp [length_headerOf]), length_headerOf, Nat.add_sub_cancel_left,
    List.getD_eq_getElem _ _ h2]

/-- What the reassembly makes of a payload: the first packet and the rest. -/
structure ChainOf (thisIP : UInt32) (udpPort : UInt16) (p : SentPacket) (first : IPv4Packet)
    (rest : List IPv4Packet) : Prop where
  sourceIP : first.sourceIP = thisIP
  protocol : first.protocol = UDP_IPV4_PROTOCOL
  sized : Sized (first :: rest)
  min : UDP_HEADER_SIZE ≤ first.dataSize
  data : slice first.data 0 first.dataSize ++ fragmentData rest = (List.range p.data.length).map (p.payload udpPort)

section Chain
variable {thisIP : UInt32} {udpPort : UInt16} {p : SentPacket} {first : IPv4Packet} {rest : List IPv4Packet}

theorem ChainOf.headerByte (hc : ChainOf thisIP udpPort p first rest) {i : Nat} (hi : i < 8) :
    first.data i = (headerOf udpPort p).getD i 0 := by
  have hmin := p.min
  have hfirst : 8 ≤ first.dataSize := hc.min
  have hbyte : (slice first.data 0 first.dataSize ++ fragmentData rest).getD i 0 =
      ((List.range p.data.length).map (p.payload udpPort)).getD i 0 := by rw [hc.data]
  rw [List.getD_append _ _ _ _ (by simp; omega), getD_slice (by omega), Nat.zero_add,
    List.getD_eq_getElem _ _ (by simp; omega), List.getElem_map, List.getElem_range, SentPacket.payload,
    List.getD_append _ _ _ _ (by rw [length_headerOf]; exact hi)] at hbyte
  exact hbyte

theorem ChainOf.sourcePort (hc : ChainOf thisIP udpPort p first rest) :
    be16 (first.data 0) (first.data 1) = udpPort.toNat := by
  rw [hc.headerByte (by decide), hc.headerByte (by decide)]
  exact be16_split udpPort.toNat_lt

theorem ChainOf.destinationPort (hc : ChainOf thisIP udpPort p first rest) :
    destinationPort first = p.destinationPort.toNat := by
  rw [L3.destinationPort, hc.headerByte (by decide), hc.headerByte (by decide)]
  exact be16_split p.destinationPort.toNat_lt

theorem ChainOf.udpLength (hc : ChainOf thisIP udpPort p first rest) : udpLength first = p.data.length := by
  have hmax := p.max
  rw [L3.udpLength, hc.headerByte (by decide), hc.headerByte (by decide)]
  exact be16_split (by omega)

theorem drop_slice (data : Nat → UInt8) (k n : Nat) : (slice data 0 n).drop k = slice data k (n - k) := by
  refine List.ext_getElem (by simp) fun i _ _ => ?_
  simp [slice]

theorem ChainOf.udpData (hc : ChainOf thisIP udpPort p first rest) : udpData first rest = p.data.drop 8 := by
  have hmin : 8 ≤ first.dataSize := hc.min
  rw [← drop_payload udpPort p, ← hc.data, List.drop_append_of_le_length (by simpa using hmin), drop_slice]
  rfl

theorem ChainOf.totalDataSize (hc : ChainOf thisIP udpPort p first rest) :
    totalDataSize (first :: rest) = p.data.length := by
  have hsum : UDP_HEADER_SIZE + (L3.udpData first rest).length = L3.totalDataSize (first :: rest) := length_udpData hc.min
  have hmin := p.min
  rw [hc.udpData, List.length_drop] at hsum
  unfold UDP_HEADER_SIZE at hsum
  omega

theorem ChainOf.receivedBytes (hc : ChainOf thisIP udpPort p first rest) :
    receivedBytes first rest = arrivedBytes thisIP udpPort p := by
  rw [L3.receivedBytes, arrivedBytes, hc.sourceIP, hc.sourcePort, hc.udpLength, hc.udpData]

/-- The socket takes the chain if there is room for it and a header. -/
theorem ChainOf.delivered (hc : ChainOf thisIP udpPort p first rest) {s : SocketManager T} {t : Fin T} {i : SocketID}
    (hb : s.boundSocket p.destinationPort = some (some (t, i))) (mem : Mem) (behind : Nat → UDPPortState)
    (hroom : p.data.length + RECEIVE_BUFFER_HEADER_SIZE ≤ (s.socketDescs t i).receiveBufferSize.toNat) :
    ∃ o, (s.handleReceivedPacket mem behind first rest).val = some o ∧
      Arrives thisIP udpPort p (s.socketDescs t i) (o.1.socketDescs t i) o.2 := by
  obtain ⟨o, ho, hdelivery⟩ := received_delivery hb mem behind hc.sized hc.destinationPort
  have hlength := hc.udpLength
  have haccepts : Accepts first rest (s.socketDescs t i).receiveBufferSize.toNat :=
    ⟨hc.protocol, hc.min, hc.totalDataSize.trans hlength.symm, by rw [hlength]; exact hroom⟩
  obtain ⟨hbytes, hbuffer, hsize, -⟩ := hdelivery.accepted haccepts
  rw [hlength, hc.receivedBytes] at hbytes
  rw [hlength] at hbuffer hsize
  exact ⟨o, ho, ⟨hbytes, hbuffer, hsize⟩⟩

end Chain

/-- The elements of a datagram that has become complete. -/
theorem chainOf_holds {s t : NetworkStackHandler n h l} {thisIP dest : UInt32} {udpPort : UInt16} {p : SentPacket}
    {sent : UInt16} {el : Nat → Fin n}
    (hready : readyChains t = readyChains s ++ [(List.range (p.data.length / 1480 + 1)).map el])
    (hel : ∀ j, j < p.data.length / 1480 + 1 → L2.Holds (fragmentPacket thisIP dest UDP_IPV4_PROTOCOL
      (p.payload udpPort) p.data.length sent j) (t.value (el j))) :
    ∃ first rest, ((List.range (p.data.length / 1480 + 1)).map el).map t.value = first :: rest ∧
      ChainOf thisIP udpPort p first rest := by
  have hmin := p.min
  have hsize (j : Nat) (hj : j < p.data.length / 1480 + 1) :
      (t.value (el j)).dataSize = min 1480 (p.data.length - 1480 * j) := (hel j hj).dataSize
  obtain ⟨c, hchain, hbytes, hall⟩ := delivered_of_chain hready hel
  obtain rfl : (List.range (p.data.length / 1480 + 1)).map el = c :=
    (List.cons.inj (List.append_cancel_left (hready.symm.trans hchain))).1
  have hcons : ((List.range (p.data.length / 1480 + 1)).map el).map t.value =
      t.value (el 0) :: (List.range (p.data.length / 1480)).map fun j => t.value (el (j + 1)) := by
    rw [List.range_succ_eq_map]
    simp
  have hhead : el 0 ∈ (List.range (p.data.length / 1480 + 1)).map el := List.mem_map_of_mem (by simp)
  refine ⟨_, _, hcons, (hall _ hhead).2, (hall _ hhead).1, ?_, ?_, ?_⟩
  · intro q hq
    rw [← hcons] at hq
    simp only [List.mem_map, List.mem_range, exists_exists_and_eq_and] at hq
    obtain ⟨j, hj, rfl⟩ := hq
    rw [hsize j hj]
    omega
  · rw [hsize 0 (by omega)]
    unfold UDP_HEADER_SIZE
    omega
  · have hdata : slice (t.value (el 0)).data 0 (t.value (el 0)).dataSize ++
        fragmentData ((List.range (p.data.length / 1480)).map fun j => t.value (el (j + 1))) =
        fragmentData (((List.range (p.data.length / 1480 + 1)).map el).map t.value) := by
      rw [hcons]
      rfl
    rw [hdata, ← hbytes, fragmentData, List.flatMap_map]
    refine List.flatMap_congr fun x _ => List.map_congr_left fun k _ => ?_
    rw [Nat.zero_add]

/-! ## End to end -/

section EndToEnd
variable [NeZero h] [NeZero h']

/-- The frames of the packet at the front of a send buffer arrive, in any
order, on the machine it is for, while nothing else of the same key waits
there. Its chain is then the last of the ready list, and the socket that has
its port gets the data of the task, byte for byte; only a length that 1480
divides never arrives. -/
theorem datagram_arrives {m a b : Nat} [NeZero m] [NeZero a] (w : Nat → Around n h l n' h' l') (thisIP : UInt32)
    (s : SocketManager T) (mem : Mem) (udpPort : UInt16) (t : Fin T) (i : SocketID)
    (hb : s.boundSocket udpPort = some (some (t, i))) (p : SentPacket) (ps : List SentPacket)
    (hp : HoldsPackets mem (s.socketDescs t i) (p :: ps)) (hnull : (s.socketDescs t i).sendBuffer + 8 ≠ 0)
    (hw : ∀ k, (w k).Reaches thisIP p.destinationIP)
    (htasks : ∀ k mem x, Span.Mem ⟨(s.socketDescs t i).sendBuffer + 8, p.data.length⟩ x → (w k).tasks mem x = mem x)
    (r : NetworkStackHandler m a b) (hr : (handlerLTS m a b).Reachable r) (hip : r.myIP = p.destinationIP) :
    ∃ packet outcome os, s.getTop mem udpPort = some packet ∧
      sendingLoop w thisIP packet (packet.dataLen.toNat + 1) 0 mem packet.identification packet.fragmentOffset.toNat =
        some (.done, outcome) ∧
      outcome.fragmentOffset = packet.dataLen ∧
      transmitted w thisIP packet (packet.dataLen.toNat + 1) 0 mem packet.identification packet.fragmentOffset.toNat = os ∧
      ∀ frames : Nat → RxFrame, (∀ j o, os[j]? = some o → Carries (frames j) o) →
      ∀ es : List (Event Unit), (arrivals es).Nodup → (∀ j, ((), j) ∈ arrivals es ↔ j < os.length) →
        os.length ≤ (unusedList r).length → ticks es ≤ FRAGMENT_TIMEOUT →
        (∀ c ∈ incompleteChains r, ∀ x ∈ c,
          (r.value x).key ≠ (thisIP, p.destinationIP, ((w 0).counter thisIP p.destinationIP).toNat)) →
        ∃ u, r.calls (es.map (Event.call fun _ => frames)) = some u ∧
          (1480 ∣ p.data.length → readyChains u = readyChains r) ∧
          (¬ 1480 ∣ p.data.length → ∃ c first rest, readyChains u = readyChains r ++ [c] ∧
            c.map u.value = first :: rest ∧
            ∀ (T' : Nat) (s' : SocketManager T') (mem' : Mem) (behind : Nat → UDPPortState) (t' : Fin T') (i' : SocketID),
              s'.boundSocket p.destinationPort = some (some (t', i')) →
              p.data.length + RECEIVE_BUFFER_HEADER_SIZE ≤ (s'.socketDescs t' i').receiveBufferSize.toNat →
              ∃ v, (s'.handleReceivedPacket mem' behind first rest).val = some v ∧
                Arrives thisIP udpPort p (s'.socketDescs t' i') (v.1.socketDescs t' i') v.2) := by
  have hmin := p.min
  have hmax := p.max
  obtain ⟨packet, hget, ⟨hno, -⟩ | ⟨-, rfl⟩⟩ := getTop_bound hb mem
  · exact absurd hp.hasTop hno
  have hdecodes := hp.decodes udpPort s false
  generalize hpacket : decodeTop (s.socketDescs t i) mem udpPort = packet at hget hdecodes
  have hbuffer : packet.data = (s.socketDescs t i).sendBuffer + 8 := by
    rw [← hpacket]
    rfl
  have hlen : packet.dataLen.toNat = p.data.length := hdecodes.dataLen
  have hdest : packet.destinationIP = p.destinationIP := hdecodes.destinationIP
  have hzero : packet.fragmentOffset.toNat = 1480 * 0 := by
    have hoff : packet.fragmentOffset = 0 := hdecodes.fragmentOffset
    rw [hoff]
    rfl
  have hheader : ∀ j, j < 8 → p.payload udpPort j = (udpHeader packet).getD j 0 := by
    intro j hj
    rw [udpHeader_eq hdecodes.sourcePort hdecodes.destinationPort hlen, SentPacket.payload,
      List.getD_append _ _ _ _ (by rw [length_headerOf]; exact hj)]
  have hholds : HoldsPayload mem packet (p.payload udpPort) 0 := by
    intro j hj h8
    have h8 := h8 rfl
    rw [hdecodes.data j (by omega), SentPacket.payload, List.getD_append_right _ _ _ _ (by rw [length_headerOf]; omega),
      length_headerOf, List.getD_eq_getElem?_getD, List.getD_eq_getElem?_getD, List.getElem?_drop, Nat.add_sub_cancel' h8]
  rw [← hdest] at hw hip
  rw [← hbuffer, ← hlen] at htasks
  rw [← hbuffer] at hnull
  obtain ⟨⟨outcome, hloop, hend⟩, hlength, hemits⟩ := transmitted_spec hw hnull (by omega) (by omega) hheader htasks
    (packet.dataLen.toNat + 1) 0 0 mem packet.identification (Nat.zero_le _) (by omega) hholds
  refine ⟨packet, outcome, _, hget, by rw [hzero]; exact hloop, hend, rfl, ?_⟩
  rw [hzero]
  intro frames hcarry es hnd hall hroom hticks hkey
  generalize transmitted w thisIP packet (packet.dataLen.toNat + 1) 0 mem packet.identification (1480 * 0) = os
    at hlength hemits hcarry hall hroom
  have hframes : ∀ j, j < os.length → IsIPv4For (frames j).data r.myIP (frames j).dataLen ∧
      L2.Holds (fragmentPacket thisIP packet.destinationIP UDP_IPV4_PROTOCOL (p.payload udpPort) packet.dataLen.toNat
        ((w 0).counter thisIP packet.destinationIP) j) (framePacket (frames j)) := by
    intro j hj
    have hj? : os[j]? = some os[j] := List.getElem?_eq_getElem hj
    have hemit := hemits j _ hj? _ (hcarry j _ hj?)
    rw [if_pos rfl, Nat.zero_add, ← hip] at hemit
    rw [← hip]
    exact hemit
  rw [← hdest] at hkey
  obtain ⟨u, el, h1, h2, h3⟩ := received frames hr hframes (by omega) hnd hall hroom hticks hkey
  rw [hlen] at h2 h3
  refine ⟨u, h1, fun hdvd => ?_, fun hdvd => ?_⟩
  · rw [h2, if_pos hdvd, List.append_nil]
  · rw [if_neg hdvd] at h2
    obtain ⟨first, rest, hmap, hchain⟩ := chainOf_holds h2 fun j hj => h3 j (by omega)
    exact ⟨_, first, rest, h2, hmap, fun T' s' mem' behind t' i' hb' hsize =>
      hchain.delivered hb' mem' behind hsize⟩

end EndToEnd

/-! ## A byte from port 80 to port 80 -/

/-- One byte behind the place of the header. -/
def oneByte : SentPacket := ⟨0x0A000001, 80, [0, 0, 0, 0, 0, 0, 0, 0, 7], by decide, by decide⟩

def oneByteMemory : Mem := fun x => oneByte.encode.getD (x - 0x2000).toNat 0

/-- The task on port 80 sends it to itself. -/
def sendsOneByte : SocketManager 1 := (port80.manager.setSendBuffer ⟨0, Nat.one_pos⟩ 0 0x2000 17 0).2

/-- The loopback handler has its own address in the ARP table. -/
def loopbackKnown : Around 2 1 1 2 1 1 := ⟨twoBuffers, resolvedBuffers, fun _ => 0, id⟩

theorem socket80_lt : 0 < MAX_NUM_SOCKETS_PER_TASK := by decide

/-- The socket of port 80. -/
def socket80 : SocketID := ⟨0, socket80_lt⟩

theorem holds_oneByte : HoldsPackets oneByteMemory (sendsOneByte.socketDescs 0 socket80) [oneByte] where
  size := by decide +kernel
  bytes := by decide +kernel
  fragmentOffset := by decide +kernel

theorem datagram_arrives_oneByte : ∃ f u c first rest v, resolvedBuffers.calls [.incoming f] = some u ∧
    readyChains u = [c] ∧ c.map u.value = first :: rest ∧
    (sendsOneByte.handleReceivedPacket oneByteMemory (fun _ => ⟨0, 0, 0⟩) first rest).val = some v ∧
    Arrives 0x0A000001 80 oneByte (sendsOneByte.socketDescs 0 socket80) (v.1.socketDescs 0 socket80) v.2 := by
  have hsocket : sendsOneByte.boundSocket 80 = some (some (0, socket80)) := by decide +kernel
  obtain ⟨packet, outcome, os, hget, -, -, hos, h⟩ := datagram_arrives (fun _ => loopbackKnown) 0x0A000001 sendsOneByte
    oneByteMemory 80 0 socket80 hsocket oneByte [] holds_oneByte (by decide +kernel)
    (fun _ => ⟨resolved_resolvedBuffers, rfl⟩) (fun _ _ _ _ => rfl) resolvedBuffers reachable_resolvedBuffers rfl
  have hsizes : (sendsOneByte.getTop oneByteMemory 80).map (fun packet => (transmitted (fun _ => loopbackKnown) 0x0A000001
      packet (packet.dataLen.toNat + 1) 0 oneByteMemory packet.identification packet.fragmentOffset.toNat).map (·.size)) =
      some [43] := by decide +kernel
  rw [hget, Option.map_some, Option.some.injEq, hos] at hsizes
  obtain ⟨o, rfl, hsize⟩ := List.map_eq_singleton_iff.mp hsizes
  let f : RxFrame := ⟨o.writeBuffer, o.size, by rw [hsize]; decide⟩
  have hcarries : ∀ (j : Nat) (o' : Outgoing), [o][j]? = some o' → Carries f o' := by
    intro j o' hj
    rcases j with _ | j
    · obtain rfl : o = o' := by simpa using hj
      exact ⟨rfl, fun _ _ _ _ => rfl⟩
    · simp at hj
  have hunused : unusedList resolvedBuffers = [0, 1] := by decide
  have hincomplete : incompleteChains resolvedBuffers = [] := by decide
  obtain ⟨u, h1, -, h2⟩ := h (fun _ => f) hcarries [.frame () 0] (by decide) (fun j => by simp [arrivals])
    (by rw [hunused, List.length_singleton]; decide) (by decide) (fun c hc => by rw [hincomplete] at hc; cases hc)
  obtain ⟨c, first, rest, h3, h4, h5⟩ := h2 (by decide)
  obtain ⟨v, h6, h7⟩ := h5 1 sendsOneByte oneByteMemory (fun _ => ⟨0, 0, 0⟩) 0 socket80 hsocket (by decide +kernel)
  exact ⟨f, u, c, first, rest, v, h1, h3, h4, h6, h7⟩

end CpuScheduler.L3
