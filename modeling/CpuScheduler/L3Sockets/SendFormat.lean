import CpuScheduler.L3Sockets.KernelWrites

/-!
# Packets in a send buffer

The format of a send buffer: destination address, destination port and
length of the first packet, its UDP header and data, and so on for the next.
`getTop` decodes the packet at the front, `removeTop` moves the buffer past
it. Both read memory that belongs to the task, so it may be different at
every call (`drain`).

`getTop` asks for one header and the data behind it, `removeTop` for room for
one more packet behind these. `send_format` says what this comes to: a buffer
written in the format is decoded to its packets, and for any other content
the packets are inside the buffer and there are at most `size / 16` of them.
-/
namespace CpuScheduler.L3

open Links Word L2 SocketManager

variable {T : Nat}

/-! ## Reading a buffer -/

/-- A packet as `getTop` returned it, the manager at that time, and what
`removeTop` returned afterwards. -/
structure Top (T : Nat) where
  manager : SocketManager T
  packet : OutgoingUDPPacket
  removed : Bool

/-- `getTop` and `removeTop` in turn, until there is no packet or `removeTop`
returns true. `mems` is task memory at each of the calls; `none`: no end
within `fuel` rounds. mirrors network_management_task.cpp:330, 386-404 -/
def drain (udpPort : UInt16) : Nat → (Nat → Mem) → SocketManager T → Option (List (Top T))
  | 0, _, _ => none
  | fuel + 1, mems, s =>
    (s.getTop (mems 0) udpPort).bind fun packet =>
      if packet.dataLen = 0 then some []
      else (s.removeTop (mems 1) udpPort).bind fun (removed, s') =>
        if removed then some [⟨s, packet, true⟩]
        else (drain udpPort fuel (fun k => mems (k + 2)) s').map (⟨s, packet, false⟩ :: ·)

section
variable {s : SocketManager T} {udpPort : UInt16} {t : Fin T} {i : SocketID}

/-- What `getTop` makes of the front of a buffer. -/
def decodeTop (d : SocketDesc) (mem : Mem) (udpPort : UInt16) : OutgoingUDPPacket where
  sourcePort := udpPort
  destinationPort := UInt16.ofNat (be16 (mem (d.sendBuffer + 5)) (mem (d.sendBuffer + 4)))
  destinationIP := be32 (mem (d.sendBuffer + 3)) (mem (d.sendBuffer + 2)) (mem (d.sendBuffer + 1)) (mem d.sendBuffer)
  data := d.sendBuffer + UInt32.ofNat SEND_BUFFER_HEADER_SIZE
  dataLen := UInt32.ofNat (sendLength mem d.sendBuffer)
  identification := d.sendBufferIdentification
  fragmentOffset := d.sendBufferFragmentOffset

/-- The packet at the front is in the buffer. -/
def HasTop (d : SocketDesc) (mem : Mem) : Prop :=
  8 ≤ sendLength mem d.sendBuffer ∧ 8 + sendLength mem d.sendBuffer ≤ d.sendBufferSize.toNat

theorem getTop_bound (hb : s.boundSocket udpPort = some (some (t, i))) (mem : Mem) :
    ∃ packet, s.getTop mem udpPort = some packet ∧
      (¬ HasTop (s.socketDescs t i) mem ∧ packet.dataLen = 0 ∨
        HasTop (s.socketDescs t i) mem ∧ packet = decodeTop (s.socketDescs t i) mem udpPort) := by
  unfold getTop HasTop SEND_BUFFER_HEADER_SIZE UDP_HEADER_SIZE
  rw [hb]
  refine ⟨_, rfl, ?_⟩
  dsimp only
  split
  · exact .inl ⟨by omega, rfl⟩
  · split
    · exact .inl ⟨by omega, rfl⟩
    · exact .inr ⟨by omega, rfl⟩

theorem dataLen_decodeTop (d : SocketDesc) (mem : Mem) (udpPort : UInt16) :
    (decodeTop d mem udpPort).dataLen.toNat = sendLength mem d.sendBuffer := by
  have hlt : sendLength mem d.sendBuffer < 65536 := be16_lt _ _
  show (UInt32.ofNat (sendLength mem d.sendBuffer)).toNat = _
  rw [UInt32.toNat_ofNat']
  omega

/-- The descriptor with the buffer moved past the packet at its front. -/
def SocketDesc.advanced (d : SocketDesc) (mem : Mem) : SocketDesc :=
  { d with sendBuffer := d.sendBuffer + UInt32.ofNat (SEND_BUFFER_HEADER_SIZE + sendLength mem d.sendBuffer)
           sendBufferSize := d.sendBufferSize - UInt32.ofNat (SEND_BUFFER_HEADER_SIZE + sendLength mem d.sendBuffer)
           sendBufferIdentification := 0, sendBufferFragmentOffset := 0 }

/-- There is room for one more packet behind the first. -/
def HasNext (d : SocketDesc) (mem : Mem) : Prop :=
  8 ≤ sendLength mem d.sendBuffer ∧ 24 + sendLength mem d.sendBuffer ≤ d.sendBufferSize.toNat

theorem removeTop_bound (hb : s.boundSocket udpPort = some (some (t, i))) (mem : Mem) :
    ¬ HasNext (s.socketDescs t i) mem ∧ s.removeTop mem udpPort = some (true, s) ∨
      HasNext (s.socketDescs t i) mem ∧
        s.removeTop mem udpPort = some (false, s.setDesc t i ((s.socketDescs t i).advanced mem)) := by
  unfold removeTop HasNext
  rw [hb]
  dsimp only [Option.map_some]
  split
  · rename_i hsize
    refine .inl ⟨fun hn => ?_, rfl⟩
    unfold SEND_BUFFER_HEADER_SIZE UDP_HEADER_SIZE at hsize
    omega
  · split
    · rename_i hshort
      refine .inl ⟨fun hn => ?_, rfl⟩
      unfold SEND_BUFFER_HEADER_SIZE UDP_HEADER_SIZE at hshort
      omega
    · rename_i hlong
      refine .inr ⟨?_, rfl⟩
      unfold SEND_BUFFER_HEADER_SIZE UDP_HEADER_SIZE at hlong
      omega

theorem HasNext.size_advanced {d : SocketDesc} {mem : Mem} (h : HasNext d mem) :
    (d.advanced mem).sendBufferSize.toNat = d.sendBufferSize.toNat - (8 + sendLength mem d.sendBuffer) := by
  have hlt := d.sendBufferSize.toNat_lt
  have hword : (UInt32.ofNat (SEND_BUFFER_HEADER_SIZE + sendLength mem d.sendBuffer)).toNat =
      8 + sendLength mem d.sendBuffer := by
    have := h.2
    rw [UInt32.toNat_ofNat', SEND_BUFFER_HEADER_SIZE]
    omega
  show (d.sendBufferSize - UInt32.ofNat (SEND_BUFFER_HEADER_SIZE + sendLength mem d.sendBuffer)).toNat = _
  rw [UInt32.toNat_sub_of_le, hword]
  rw [UInt32.le_iff_toNat_le, hword]
  have := h.2
  omega

/-! ## Any content -/

/-- The packet is in the send buffer of the socket that the port belonged to
at that time. -/
def Top.InBuffer (udpPort : UInt16) (top : Top T) : Prop :=
  8 ≤ top.packet.dataLen.toNat ∧ ∃ t i, top.manager.boundSocket udpPort = some (some (t, i)) ∧
    Span.Within ⟨top.packet.data, top.packet.dataLen.toNat⟩ (top.manager.socketDescs t i).sent

theorem HasTop.inBuffer (hb : s.boundSocket udpPort = some (some (t, i))) {mem : Mem}
    (h : HasTop (s.socketDescs t i) mem) (removed : Bool) :
    Top.InBuffer udpPort ⟨s, decodeTop (s.socketDescs t i) mem udpPort, removed⟩ := by
  have hle := (s.socketDescs t i).sendBufferSize.toNat_lt.le
  unfold Top.InBuffer
  rw [dataLen_decodeTop]
  exact ⟨h.1, t, i, hb, Span.within_of_le h.2 hle⟩

/-- Every removal takes 16 bytes at least, and leaves 16 unless it is the
last. -/
theorem drain_bounded (fuel : Nat) (mems : Nat → Mem) (hb : s.boundSocket udpPort = some (some (t, i)))
    (hfuel : (s.socketDescs t i).sendBufferSize.toNat / 16 < fuel) :
    ∃ tops, drain udpPort fuel mems s = some tops ∧
      tops.length ≤ (s.socketDescs t i).sendBufferSize.toNat / 16 ∧ ∀ top ∈ tops, top.InBuffer udpPort := by
  induction fuel generalizing s mems with
  | zero => omega
  | succ fuel ih =>
    rw [drain]
    obtain ⟨packet, hget, ⟨_, hzero⟩ | ⟨htop, rfl⟩⟩ := getTop_bound hb (mems 0)
    · refine ⟨[], ?_, Nat.zero_le _, nofun⟩
      rw [hget, Option.bind_some, if_pos hzero]
    · have hlen := dataLen_decodeTop (s.socketDescs t i) (mems 0) udpPort
      have hne : (decodeTop (s.socketDescs t i) (mems 0) udpPort).dataLen ≠ 0 := by
        intro h0
        rw [h0] at hlen
        have := htop.1
        simp at hlen
        omega
      have hsixteen : 16 ≤ (s.socketDescs t i).sendBufferSize.toNat := by
        have h1 := htop.1
        have h2 := htop.2
        omega
      rw [hget, Option.bind_some, if_neg hne]
      rcases removeTop_bound hb (mems 1) with ⟨_, hremove⟩ | ⟨hnext, hremove⟩
      · refine ⟨[⟨s, decodeTop (s.socketDescs t i) (mems 0) udpPort, true⟩], ?_, ?_, fun top hmem => ?_⟩
        · rw [hremove]
          rfl
        · rw [List.length_singleton]
          omega
        · rw [List.mem_singleton.mp hmem]
          exact htop.inBuffer hb true
      · have hsize := hnext.size_advanced
        have hmin := hnext.1
        have hroom := hnext.2
        have hdesc := socketDescs_setDesc s t i ((s.socketDescs t i).advanced (mems 1))
        have hb' : (s.setDesc t i ((s.socketDescs t i).advanced (mems 1))).boundSocket udpPort = some (some (t, i)) := hb
        obtain ⟨tops, hrest, hcount, hall⟩ := ih (fun k => mems (k + 2)) hb' (by rw [hdesc, hsize]; omega)
        rw [hdesc, hsize] at hcount
        refine ⟨⟨s, decodeTop (s.socketDescs t i) (mems 0) udpPort, false⟩ :: tops, ?_, ?_, fun top hmem => ?_⟩
        · rw [hremove]
          simp [hrest]
        · rw [List.length_cons]
          omega
        · rcases List.mem_cons.mp hmem with rfl | hmem
          · exact htop.inBuffer hb false
          · exact hall top hmem

end

/-! ## The format -/

/-- A packet to send; `data` starts with the eight bytes of the UDP header. -/
structure SentPacket where
  destinationIP : UInt32
  destinationPort : UInt16
  data : List UInt8
  min : 8 ≤ data.length
  max : data.length ≤ 65535

/-- mirrors the comments at socket_manager.cpp:266-267 and 328-329 -/
def SentPacket.encode (p : SentPacket) : List UInt8 :=
  littleEndian 4 p.destinationIP.toNat ++ littleEndian 2 p.destinationPort.toNat ++ littleEndian 2 p.data.length ++ p.data

def encodeAll (ps : List SentPacket) : List UInt8 := ps.flatMap SentPacket.encode

@[simp] theorem length_encode (p : SentPacket) : p.encode.length = 8 + p.data.length := by
  simp only [SentPacket.encode, List.length_append, length_littleEndian]

theorem length_encodeAll_cons (p : SentPacket) (ps : List SentPacket) :
    (encodeAll (p :: ps)).length = 8 + p.data.length + (encodeAll ps).length := by
  simp [encodeAll]

/-- Anything encoded takes room for a header and eight bytes. -/
theorem sixteen_le_encodeAll {ps : List SentPacket} (hne : ps ≠ []) : 16 ≤ (encodeAll ps).length := by
  obtain ⟨p, ps, rfl⟩ := List.exists_cons_of_ne_nil hne
  have := p.min
  rw [length_encodeAll_cons]
  omega

/-- The buffer holds these packets, and sending has not begun. -/
structure HoldsPackets (mem : Mem) (d : SocketDesc) (ps : List SentPacket) : Prop where
  size : d.sendBufferSize.toNat = (encodeAll ps).length
  bytes : ∀ k < (encodeAll ps).length, view mem d.sendBuffer k = (encodeAll ps).getD k 0
  fragmentOffset : d.sendBufferFragmentOffset = 0

/-- `packet` is `p`, with its data in memory. -/
structure Decodes (mem : Mem) (udpPort : UInt16) (top : Top T) (p : SentPacket) : Prop where
  sourcePort : top.packet.sourcePort = udpPort
  destinationIP : top.packet.destinationIP = p.destinationIP
  destinationPort : top.packet.destinationPort = p.destinationPort
  fragmentOffset : top.packet.fragmentOffset = 0
  dataLen : top.packet.dataLen.toNat = p.data.length
  data : ∀ k < p.data.length, view mem top.packet.data k = p.data.getD k 0

section
variable {mem : Mem} {d : SocketDesc} {p : SentPacket} {ps : List SentPacket}

/-- The header and the data of the first packet. -/
theorem getD_encodeAll {k : Nat} (hk : k < 8 + p.data.length) :
    (encodeAll (p :: ps)).getD k 0 = p.encode.getD k 0 := by
  rw [encodeAll, List.flatMap_cons, List.getD_append _ _ _ _ (by simpa using hk)]

theorem HoldsPackets.header (h : HoldsPackets mem d (p :: ps)) {k : Nat} (hk : k < 8) :
    mem (d.sendBuffer + UInt32.ofNat k) =
      [UInt8.ofNat p.destinationIP.toNat, UInt8.ofNat (p.destinationIP.toNat / 256),
        UInt8.ofNat (p.destinationIP.toNat / 65536), UInt8.ofNat (p.destinationIP.toNat / 16777216),
        UInt8.ofNat p.destinationPort.toNat, UInt8.ofNat (p.destinationPort.toNat / 256),
        UInt8.ofNat p.data.length, UInt8.ofNat (p.data.length / 256)].getD k 0 := by
  have hlist : littleEndian 4 p.destinationIP.toNat ++ littleEndian 2 p.destinationPort.toNat ++
      littleEndian 2 p.data.length = [UInt8.ofNat p.destinationIP.toNat, UInt8.ofNat (p.destinationIP.toNat / 256),
        UInt8.ofNat (p.destinationIP.toNat / 65536), UInt8.ofNat (p.destinationIP.toNat / 16777216),
        UInt8.ofNat p.destinationPort.toNat, UInt8.ofNat (p.destinationPort.toNat / 256),
        UInt8.ofNat p.data.length, UInt8.ofNat (p.data.length / 256)] := by
    simp [littleEndian, List.range_succ]
  have hbyte := h.bytes k (by rw [length_encodeAll_cons]; omega)
  rw [getD_encodeAll (by omega), SentPacket.encode, List.getD_append _ _ _ _ (by simpa using hk), hlist] at hbyte
  exact hbyte

theorem HoldsPackets.sendLength (h : HoldsPackets mem d (p :: ps)) :
    SocketManager.sendLength mem d.sendBuffer = p.data.length := by
  have h6 : mem (d.sendBuffer + 6) = UInt8.ofNat p.data.length := h.header (k := 6) (by decide)
  have h7 : mem (d.sendBuffer + 7) = UInt8.ofNat (p.data.length / 256) := h.header (k := 7) (by decide)
  have := p.max
  rw [SocketManager.sendLength, h6, h7, be16_littleEndian (by omega)]

/-- The top is the first packet. -/
theorem HoldsPackets.decodes (h : HoldsPackets mem d (p :: ps)) (udpPort : UInt16) (s : SocketManager T)
    (removed : Bool) : Decodes mem udpPort ⟨s, decodeTop d mem udpPort, removed⟩ p where
  sourcePort := rfl
  destinationIP := by
    have h0 : mem d.sendBuffer = UInt8.ofNat p.destinationIP.toNat := by
      have := h.header (k := 0) (by decide)
      simpa using this
    have h1 : mem (d.sendBuffer + 1) = UInt8.ofNat (p.destinationIP.toNat / 256) := h.header (k := 1) (by decide)
    have h2 : mem (d.sendBuffer + 2) = UInt8.ofNat (p.destinationIP.toNat / 65536) := h.header (k := 2) (by decide)
    have h3 : mem (d.sendBuffer + 3) = UInt8.ofNat (p.destinationIP.toNat / 16777216) := h.header (k := 3) (by decide)
    show be32 (mem (d.sendBuffer + 3)) (mem (d.sendBuffer + 2)) (mem (d.sendBuffer + 1)) (mem d.sendBuffer) = _
    rw [h0, h1, h2, h3, be32_littleEndian]
  destinationPort := by
    have h4 : mem (d.sendBuffer + 4) = UInt8.ofNat p.destinationPort.toNat := h.header (k := 4) (by decide)
    have h5 : mem (d.sendBuffer + 5) = UInt8.ofNat (p.destinationPort.toNat / 256) := h.header (k := 5) (by decide)
    show UInt16.ofNat (be16 (mem (d.sendBuffer + 5)) (mem (d.sendBuffer + 4))) = _
    rw [h4, h5, be16_littleEndian p.destinationPort.toNat_lt, UInt16.ofNat_toNat]
  fragmentOffset := h.fragmentOffset
  dataLen := (dataLen_decodeTop d mem udpPort).trans h.sendLength
  data k hk := by
    have hbyte := h.bytes (8 + k) (by rw [length_encodeAll_cons]; omega)
    have hlen : (littleEndian 4 p.destinationIP.toNat ++ littleEndian 2 p.destinationPort.toNat ++
        littleEndian 2 p.data.length).length = 8 := by
      simp only [List.length_append, length_littleEndian]
    rw [getD_encodeAll (by omega), SentPacket.encode, List.getD_append_right _ _ _ _ (by omega), hlen,
      Nat.add_sub_cancel_left] at hbyte
    rw [← hbyte]
    show mem (d.sendBuffer + UInt32.ofNat 8 + UInt32.ofNat k) = mem (d.sendBuffer + UInt32.ofNat (8 + k))
    rw [add_assoc, ← UInt32.ofNat_add]

theorem HoldsPackets.hasTop (h : HoldsPackets mem d (p :: ps)) : HasTop d mem := by
  have hsize := h.size
  rw [length_encodeAll_cons] at hsize
  rw [HasTop, h.sendLength]
  exact ⟨p.min, by omega⟩

/-- There is a next packet just if there is one in the list. -/
theorem HoldsPackets.hasNext_iff (h : HoldsPackets mem d (p :: ps)) : HasNext d mem ↔ ps ≠ [] := by
  have hsize := h.size
  rw [length_encodeAll_cons] at hsize
  rw [HasNext, h.sendLength]
  constructor
  · intro hn hnil
    subst hnil
    have hzero : (encodeAll []).length = 0 := rfl
    omega
  · intro hne
    have hrest := sixteen_le_encodeAll hne
    exact ⟨p.min, by omega⟩

/-- The rest of the buffer holds the rest of the packets. -/
theorem HoldsPackets.advanced (h : HoldsPackets mem d (p :: ps)) (hne : ps ≠ []) :
    HoldsPackets mem (d.advanced mem) ps where
  size := by
    have hsize := h.size
    rw [length_encodeAll_cons] at hsize
    rw [(h.hasNext_iff.mpr hne).size_advanced, h.sendLength, hsize]
    omega
  bytes k hk := by
    have hbyte := h.bytes (8 + p.data.length + k) (by rw [length_encodeAll_cons]; omega)
    have hsplit : encodeAll (p :: ps) = p.encode ++ encodeAll ps := rfl
    rw [hsplit, List.getD_append_right _ _ _ _ (by simp), length_encode, Nat.add_sub_cancel_left] at hbyte
    rw [← hbyte]
    show mem (d.sendBuffer + UInt32.ofNat (8 + SocketManager.sendLength mem d.sendBuffer) + UInt32.ofNat k) =
      mem (d.sendBuffer + UInt32.ofNat (8 + p.data.length + k))
    rw [h.sendLength, add_assoc, ← UInt32.ofNat_add]
  fragmentOffset := rfl

/-- A buffer in the format is read packet by packet. -/
theorem HoldsPackets.drained {s : SocketManager T} {udpPort : UInt16} {t : Fin T} {i : SocketID}
    (hb : s.boundSocket udpPort = some (some (t, i))) (h : HoldsPackets mem (s.socketDescs t i) ps) :
    ∃ tops, drain udpPort (ps.length + 1) (fun _ => mem) s = some tops ∧
      List.Forall₂ (Decodes mem udpPort) tops ps ∧
      (ps ≠ [] → tops.map (·.removed) = List.replicate (ps.length - 1) false ++ [true]) := by
  induction ps generalizing s with
  | nil =>
    refine ⟨[], ?_, .nil, fun hne => absurd rfl hne⟩
    obtain ⟨packet, hget, ⟨_, hzero⟩ | ⟨htop, _⟩⟩ := getTop_bound hb mem
    · rw [drain, hget, Option.bind_some, if_pos hzero]
    · have hsize : (s.socketDescs t i).sendBufferSize.toNat = 0 := h.size
      have := htop.2
      omega
  | cons p ps ih =>
    obtain ⟨packet, hget, ⟨hnone, _⟩ | ⟨_, rfl⟩⟩ := getTop_bound hb mem
    · exact absurd h.hasTop hnone
    · have hlen := (h.decodes udpPort s true).dataLen
      have hne : (decodeTop (s.socketDescs t i) mem udpPort).dataLen ≠ 0 := by
        intro h0
        have hmin := p.min
        have hzero : (decodeTop (s.socketDescs t i) mem udpPort).dataLen.toNat = 0 := by
          rw [h0]
          rfl
        have hlen' : (decodeTop (s.socketDescs t i) mem udpPort).dataLen.toNat = p.data.length := hlen
        omega
      rw [List.length_cons, drain, hget, Option.bind_some, if_neg hne]
      rcases removeTop_bound hb mem with ⟨hnext, hremove⟩ | ⟨hnext, hremove⟩
      · -- the last packet
        have hnil : ps = [] := by
          by_contra hps
          exact hnext (h.hasNext_iff.mpr hps)
        subst hnil
        refine ⟨[⟨s, decodeTop (s.socketDescs t i) mem udpPort, true⟩], ?_, .cons (h.decodes udpPort s true) .nil,
          fun _ => rfl⟩
        rw [hremove]
        rfl
      · have hps := h.hasNext_iff.mp hnext
        have hrest := h.advanced hps
        rw [← socketDescs_setDesc s t i ((s.socketDescs t i).advanced mem)] at hrest
        obtain ⟨tops, hdrain, hall, hflags⟩ := ih (s := s.setDesc t i ((s.socketDescs t i).advanced mem)) hb hrest
        refine ⟨⟨s, decodeTop (s.socketDescs t i) mem udpPort, false⟩ :: tops, ?_, .cons (h.decodes udpPort s false) hall,
          fun _ => ?_⟩
        · rw [hremove]
          simp [hdrain]
        · obtain ⟨q, qs, rfl⟩ := List.exists_cons_of_ne_nil hps
          rw [List.map_cons, hflags hps]
          rfl

end

theorem addRequest_head {s s' : SocketManager T} {udpPort : UInt16} (h : s.addRequest udpPort = some s') :
    ∃ e, s'.transmissionRequestsHead = some e ∧ s'.request e = udpPort := by
  unfold addRequest at h
  obtain ⟨e, _, rfl⟩ := Option.map_eq_some_iff.mp h
  refine ⟨e, rfl, ?_⟩
  dsimp only
  split <;> exact Function.update_self ..

/-- The buffer of the caller's socket after the call. -/
theorem holdsPackets_setSendBuffer {s s' : SocketManager T} {mem : Mem} {taskID : Fin T} {socketID : UInt8}
    {buffer indicator : UInt32} {ps : List SentPacket} (hlt : (encodeAll ps).length < 2 ^ 32)
    (hset : s.setSendBuffer taskID socketID buffer (UInt32.ofNat (encodeAll ps).length) indicator = (0, s'))
    (hbytes : ∀ k < (encodeAll ps).length, view mem buffer k = (encodeAll ps).getD k 0) :
    ∃ i : SocketID, i.val = socketID.toNat ∧ (s.socketDescs taskID i).isActive ≠ 0 ∧
      (ps ≠ [] → ∃ e, s'.transmissionRequestsHead = some e ∧ s'.request e = (s.socketDescs taskID i).udpPort) ∧
      HoldsPackets mem (s'.socketDescs taskID i) ps := by
  have hword : (UInt32.ofNat (encodeAll ps).length).toNat = (encodeAll ps).length := by
    rw [UInt32.toNat_ofNat']
    omega
  rcases setSendBuffer_cases s taskID socketID buffer (UInt32.ofNat (encodeAll ps).length) indicator with
    he | ⟨i, hi, hact, ⟨⟨hzero, _⟩, he⟩ | ⟨_, m, hadd, he⟩⟩
  · rw [he] at hset
    cases hset
  · -- the caller has cancelled: there is no packet
    have hempty : (encodeAll ps).length = 0 := by
      rw [← hword, hzero]
      rfl
    rw [he] at hset
    cases hset
    refine ⟨i, hi, hact, fun hne => ?_, ?_⟩
    · have := sixteen_le_encodeAll hne
      omega
    · rw [socketDescs_setDesc]
      refine ⟨?_, fun k hk => ?_, rfl⟩
      · rw [hempty]
        rfl
      · omega
  · rw [he] at hset
    cases hset
    obtain ⟨e, hhead, hrequest⟩ := addRequest_head hadd
    refine ⟨i, hi, hact, fun _ => ⟨e, hhead, hrequest⟩, ?_⟩
    rw [socketDescs_setDesc]
    exact ⟨hword, hbytes, rfl⟩

/-- The bytes left in the send buffer of the socket a port belongs to. -/
def boundSize (s : SocketManager T) (udpPort : UInt16) : Nat :=
  match s.boundSocket udpPort with
  | some (some (t, i)) => (s.socketDescs t i).sendBufferSize.toNat
  | _ => 0

/-- Packets written in the format are sent, and nothing else in the buffer
can lead out of it. -/
theorem send_format (hT : T ≤ 256) (s : Sockets T) (hs : (socketLTS T).Reachable s) :
    (∀ (taskID : Fin T) (socketID : UInt8) (buffer indicator : UInt32) (ps : List SentPacket) (s' : SocketManager T),
      (encodeAll ps).length < 2 ^ 32 →
      s.manager.setSendBuffer taskID socketID buffer (UInt32.ofNat (encodeAll ps).length) indicator = (0, s') →
      (∀ k < (encodeAll ps).length, view s.mem buffer k = (encodeAll ps).getD k 0) →
      ∃ (i : SocketID) (udpPort : UInt16), i.val = socketID.toNat ∧ udpPort = (s.manager.socketDescs taskID i).udpPort ∧
        (ps ≠ [] → ∃ e, s'.transmissionRequestsHead = some e ∧ s'.request e = udpPort) ∧
        ∃ tops, drain udpPort (ps.length + 1) (fun _ => s.mem) s' = some tops ∧
          List.Forall₂ (Decodes s.mem udpPort) tops ps ∧
          (ps ≠ [] → tops.map (·.removed) = List.replicate (ps.length - 1) false ++ [true])) ∧
    ∀ (udpPort : UInt16) (mems : Nat → Mem), udpPort.toNat < NUM_UDP_PORTS →
      ∃ tops, drain udpPort (boundSize s.manager udpPort / 16 + 1) mems s.manager = some tops ∧
        tops.length ≤ boundSize s.manager udpPort / 16 ∧ ∀ top ∈ tops, top.InBuffer udpPort := by
  have ho := owned_of_reachable hT hs
  refine ⟨fun taskID socketID buffer indicator ps s' hlt hset hbytes => ?_, fun udpPort mems hport => ?_⟩
  · have hsame := sameSockets_setSendBuffer s.manager taskID socketID buffer (UInt32.ofNat (encodeAll ps).length) indicator
    rw [hset] at hsame
    obtain ⟨i, hi, hact, hrequest, hholds⟩ := holdsPackets_setSendBuffer hlt hset hbytes
    have hb : s'.boundSocket (s.manager.socketDescs taskID i).udpPort = some (some (taskID, i)) := by
      rw [← hsame.udpPort]
      exact boundSocket_of_owned (hsame.owned ho) (by rw [hsame.isActive]; exact hact)
    exact ⟨i, _, hi, rfl, hrequest, hholds.drained hb⟩
  · by_cases hact : (s.manager.udpPortStates ⟨udpPort.toNat, hport⟩).isActive = 0
    · have hb : s.manager.boundSocket udpPort = some none := by
        simp [boundSocket, hport, hact]
      refine ⟨[], ?_, Nat.zero_le _, nofun⟩
      simp [drain, getTop, hb]
    · obtain ⟨_, t, i, hindex, _⟩ := ho.port _ hact
      have hb : s.manager.boundSocket udpPort = some (some (t, i)) := by
        simp [boundSocket, hport, hact, hindex]
      have hsize : boundSize s.manager udpPort = (s.manager.socketDescs t i).sendBufferSize.toNat := by
        simp [boundSize, hb]
      rw [hsize]
      exact drain_bounded _ mems hb (Nat.lt_succ_self _)

/-! ## One packet from port 80 -/

def emptyDatagram : SentPacket :=
  ⟨0x0A000002, 7, [0, 0, 0, 0, 0, 0, 0, 0], Nat.le_refl 8, Nat.le_of_ble_eq_true rfl⟩

/-- The packet is at address 0x2000. -/
def packetMemory : Mem := fun x => (encodeAll [emptyDatagram]).getD (x - 0x2000).toNat 0

theorem send_format_emptyDatagram : ∃ s' tops,
    port80.manager.setSendBuffer 0 0 0x2000 16 0 = (0, s') ∧
    drain 80 2 (fun _ => packetMemory) s' = some tops ∧
    List.Forall₂ (Decodes packetMemory 80) tops [emptyDatagram] ∧ tops.map (·.removed) = [true] := by
  have hreach : (socketLTS 1).Reachable { port80 with mem := packetMemory } :=
    reachable_port80.step (l := .userWrite packetMemory) rfl
  have hlen : (encodeAll [emptyDatagram]).length = 16 := rfl
  have hset : (port80.manager.setSendBuffer 0 0 0x2000 (UInt32.ofNat (encodeAll [emptyDatagram]).length) 0).1 = 0 := by
    decide +kernel
  have hbytes : ∀ k < (encodeAll [emptyDatagram]).length,
      view packetMemory 0x2000 k = (encodeAll [emptyDatagram]).getD k 0 := by
    intro k hk
    rw [hlen] at hk
    have hdist : (0x2000 + UInt32.ofNat k - 0x2000 : UInt32).toNat = k := by
      rw [add_sub_cancel_left, UInt32.toNat_ofNat']
      omega
    rw [view, packetMemory, hdist]
  obtain ⟨i, udpPort, hi, hport, _, tops, hdrain, hall, hflags⟩ := (send_format (by decide) _ hreach).1 0 0 0x2000 0
    [emptyDatagram] _ (by rw [hlen]; decide) (Prod.ext hset rfl) hbytes
  have hudp : udpPort = 80 := by
    have hfirst : i = ⟨0, by decide⟩ := Fin.ext hi
    rw [hport, hfirst]
    rfl
  subst hudp
  exact ⟨_, tops, Prod.ext hset rfl, hdrain, hall, hflags (by simp)⟩

end CpuScheduler.L3
