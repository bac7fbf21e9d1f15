import CpuScheduler.Core.Span
import CpuScheduler.L3Sockets.ReceivedData
import CpuScheduler.L3Sockets.SendCalls

/-!
# Where the kernel writes into tasks

The spans of task memory that a received datagram and a round of the network
task write to. A delivery writes inside what is left of the receive buffer of
one socket and leaves it a part of that; a round writes inside the send buffer
and at the indicator of one socket.
-/
namespace CpuScheduler.L3

open Links Word L2 SocketManager

variable {T : Nat}

/-- What is left of the receive buffer. -/
def SocketDesc.received (d : SocketDesc) : Span := ⟨d.receiveBuffer, d.receiveBufferSize.toNat⟩

/-- What is left of the send buffer. -/
def SocketDesc.sent (d : SocketDesc) : Span := ⟨d.sendBuffer, d.sendBufferSize.toNat⟩

/-! ## Deliveries -/

/-- The spans the copy loop writes.
mirrors socket_manager.cpp:186-205 -/
def copyWrites (receiveBuffer : UInt32) (udpLength : Nat) : Bool → Nat → List IPv4Packet → List Span
  | _, _, [] => []
  | first, accumulatedUDPSize, packet :: packets =>
    if (accumulatedUDPSize + packet.dataSize) % 2 ^ 32 > udpLength then []
    else
      let start := receiveBuffer + UInt32.ofNat RECEIVE_BUFFER_HEADER_SIZE
      (if first then ⟨start, packet.dataSize - UDP_HEADER_SIZE⟩
        else ⟨start + UInt32.ofNat (accumulatedUDPSize - UDP_HEADER_SIZE), packet.dataSize⟩) ::
        copyWrites receiveBuffer udpLength false ((accumulatedUDPSize + packet.dataSize) % 2 ^ 16) packets

namespace SocketManager

/-- mirrors socket_manager.cpp:176-224 -/
def deliverWrites (s : SocketManager T) (mem : Mem) (t : Fin T) (i : SocketID) (packet : IPv4Packet)
    (fragments : List IPv4Packet) : List Span :=
  let d := s.socketDescs t i
  let udpLength := be16 (packet.data 4) (packet.data 5)
  if (udpLength : Int) - UDP_HEADER_SIZE + 2 * RECEIVE_BUFFER_HEADER_SIZE > d.receiveBufferSize.toNat then []
  else
    copyWrites d.receiveBuffer udpLength true 0 (packet :: fragments) ++
      match (copyLoop d.receiveBuffer udpLength true 0 mem (packet :: fragments)).1 with
      | none => []
      | some accumulatedUDPSize =>
        if accumulatedUDPSize ≠ udpLength then []
        else
          let used := UInt32.ofNat (RECEIVE_BUFFER_HEADER_SIZE + (udpLength - UDP_HEADER_SIZE))
          [⟨d.receiveBuffer, RECEIVE_BUFFER_HEADER_SIZE⟩, ⟨d.receiveBuffer + used, RECEIVE_BUFFER_HEADER_SIZE⟩]

/-- mirrors socket_manager.cpp:155-224 -/
def receivedWrites (s : SocketManager T) (mem : Mem) (behind : Nat → UDPPortState) (packet : IPv4Packet)
    (fragments : List IPv4Packet) : List Span :=
  if packet.protocol ≠ 17 then []
  else if packet.dataSize < UDP_HEADER_SIZE then []
  else
    let port := (s.portState behind (be16 (packet.data 2) (packet.data 3))).val
    if port.isActive = 0 then []
    else match descIndex T port.taskID port.socketID with
      | none => []
      | some (t, i) => s.deliverWrites mem t i packet fragments

end SocketManager

theorem writeBytes_of_not_mem {mem : Mem} {start : UInt32} {bytes : Nat → UInt8} {n : Nat} {x : UInt32}
    (h : ¬ Span.Mem ⟨start, n⟩ x) : writeBytes mem start bytes n x = mem x := if_neg h

theorem copyLoop_frame {receiveBuffer : UInt32} {udpLength : Nat} {x : UInt32} (packets : List IPv4Packet)
    {first : Bool} {accumulated : Nat} {mem : Mem}
    (h : ∀ a ∈ copyWrites receiveBuffer udpLength first accumulated packets, ¬ a.Mem x) :
    (copyLoop receiveBuffer udpLength first accumulated mem packets).2 x = mem x := by
  induction packets generalizing first accumulated mem with
  | nil => rfl
  | cons p ps ih =>
    rw [copyLoop]
    rw [copyWrites] at h
    split
    · rfl
    · rename_i hbig
      rw [if_neg hbig] at h
      dsimp only at h ⊢
      rw [ih fun a ha => h a (List.mem_cons_of_mem _ ha)]
      have hfirst := h _ List.mem_cons_self
      cases first with
      | true =>
        simp only [if_true] at hfirst ⊢
        exact writeBytes_of_not_mem hfirst
      | false =>
        simp only [Bool.false_eq_true, if_false] at hfirst ⊢
        exact writeBytes_of_not_mem hfirst

/-- Outside the spans, a delivery changes nothing. -/
theorem deliver_frame {s : SocketManager T} {mem : Mem} {t : Fin T} {i : SocketID} {packet : IPv4Packet}
    {fragments : List IPv4Packet} {x : UInt32} (h : ∀ a ∈ s.deliverWrites mem t i packet fragments, ¬ a.Mem x) :
    (s.deliver mem t i packet fragments).2 x = mem x := by
  unfold deliverWrites at h
  unfold deliver
  dsimp only at h ⊢
  split
  · rfl
  · rename_i hbig
    rw [if_neg hbig] at h
    have hcopy : (copyLoop (s.socketDescs t i).receiveBuffer (be16 (packet.data 4) (packet.data 5)) true 0 mem
        (packet :: fragments)).2 x = mem x :=
      copyLoop_frame (packet :: fragments) fun a ha => h a (List.mem_append_left _ ha)
    cases hloop : copyLoop (s.socketDescs t i).receiveBuffer (be16 (packet.data 4) (packet.data 5)) true 0 mem
      (packet :: fragments) with
    | mk r mem' =>
      rw [hloop] at hcopy h
      cases r with
      | none => exact hcopy
      | some accumulated =>
        dsimp only at h ⊢
        split
        · exact hcopy
        · rename_i hwhole
          rw [if_neg hwhole] at h
          have hout (a : Span) (ha : a ∈ [_, _]) : ¬ a.Mem x := h a (List.mem_append_right _ ha)
          dsimp only
          rw [writeBytes_of_not_mem (hout _ (by simp)), writeBytes_of_not_mem (hout _ (by simp))]
          exact hcopy

theorem received_frame {s : SocketManager T} {mem : Mem} {behind : Nat → UDPPortState} {packet : IPv4Packet}
    {fragments : List IPv4Packet} {r : SocketManager T × Mem} {x : UInt32}
    (hr : (s.handleReceivedPacket mem behind packet fragments).val = some r)
    (h : ∀ a ∈ s.receivedWrites mem behind packet fragments, ¬ a.Mem x) : r.2 x = mem x := by
  unfold receivedWrites at h
  unfold handleReceivedPacket at hr
  simp only [Traced.val_ite, Traced.val_pure, Traced.val_bind] at hr
  split at hr
  · cases hr
    rfl
  · rename_i hproto
    rw [if_neg hproto] at h
    split at hr
    · cases hr
      rfl
    · rename_i hshort
      rw [if_neg hshort] at h
      dsimp only at h
      split at hr
      · cases hr
        rfl
      · rename_i hact
        rw [if_neg hact] at h
        split at hr
        · cases hr
        · rename_i t i hindex
          rw [hindex] at h
          cases hr
          exact deliver_frame h

/-- The fragments behind the first go into what is left of the buffer. -/
theorem copyWrites_within {receiveBuffer : UInt32} {udpLength size : Nat} (hlength : udpLength < 2 ^ 16)
    (hfits : udpLength + 8 ≤ size) (hsize : size ≤ 2 ^ 32) (packets : List IPv4Packet) (hsized : Sized packets)
    {accumulated : Nat} (hmin : UDP_HEADER_SIZE ≤ accumulated) (hmax : accumulated ≤ udpLength) :
    ∀ a ∈ copyWrites receiveBuffer udpLength false accumulated packets, a.Within ⟨receiveBuffer, size⟩ := by
  induction packets generalizing accumulated with
  | nil => exact fun a ha => by cases ha
  | cons p ps ih =>
    have hp : p.dataSize < 2 ^ 16 := hsized p (by simp)
    have hps : Sized ps := fun q hq => hsized q (by simp [hq])
    rw [copyWrites]
    split
    · exact fun a ha => by cases ha
    · rename_i hbig
      have hnext : (accumulated + p.dataSize) % 2 ^ 16 = accumulated + p.dataSize := by omega
      dsimp only
      rw [hnext]
      intro a ha
      rcases List.mem_cons.mp ha with rfl | ha
      · have hstart : receiveBuffer + UInt32.ofNat RECEIVE_BUFFER_HEADER_SIZE +
            UInt32.ofNat (accumulated - UDP_HEADER_SIZE) = receiveBuffer + UInt32.ofNat accumulated := by
          rw [add_assoc, ← UInt32.ofNat_add]
          congr 2
          unfold RECEIVE_BUFFER_HEADER_SIZE
          unfold UDP_HEADER_SIZE at hmin ⊢
          omega
        simp only [Bool.false_eq_true, if_false]
        rw [hstart]
        exact Span.within_of_le (by omega) hsize
      · exact ih hps (by omega) (by omega) a ha

/-- A delivery stays in the receive buffer. -/
theorem deliverWrites_within (s : SocketManager T) (mem : Mem) (t : Fin T) (i : SocketID) {packet : IPv4Packet}
    {fragments : List IPv4Packet} (hsized : Sized (packet :: fragments)) (hmin : UDP_HEADER_SIZE ≤ packet.dataSize) :
    ∀ a ∈ s.deliverWrites mem t i packet fragments, a.Within (s.socketDescs t i).received := by
  have hlt := udpLength_lt packet
  have hword := (s.socketDescs t i).receiveBufferSize.toNat_lt
  have hp : packet.dataSize < 2 ^ 16 := hsized packet (by simp)
  unfold deliverWrites SocketDesc.received
  dsimp only
  rw [← udpLength]
  split
  · exact fun a ha => by cases ha
  · rename_i hroom
    have hfits : udpLength packet + 8 ≤ (s.socketDescs t i).receiveBufferSize.toNat := by
      unfold UDP_HEADER_SIZE RECEIVE_BUFFER_HEADER_SIZE at hroom
      omega
    intro a ha
    rcases List.mem_append.mp ha with ha | ha
    · rw [copyWrites] at ha
      split at ha
      · cases ha
      · rename_i hbig
        rcases List.mem_cons.mp ha with rfl | ha
        · simp only [if_true]
          refine Span.within_of_le ?_ (by omega)
          unfold RECEIVE_BUFFER_HEADER_SIZE UDP_HEADER_SIZE
          omega
        · refine copyWrites_within hlt hfits (by omega) fragments (fun q hq => hsized q (by simp [hq])) ?_ ?_ a ha
          · omega
          · omega
    · split at ha
      · cases ha
      · rename_i accumulated hcopied
        -- the first packet was not too long
        have hfirst : packet.dataSize ≤ udpLength packet := by
          rw [copyLoop] at hcopied
          split at hcopied
          · cases hcopied
          · omega
        split at ha
        · cases ha
        · simp only [List.mem_cons, List.not_mem_nil, or_false] at ha
          rcases ha with rfl | rfl
          · have hzero : Span.Within ⟨(s.socketDescs t i).receiveBuffer + UInt32.ofNat 0, RECEIVE_BUFFER_HEADER_SIZE⟩
                ⟨(s.socketDescs t i).receiveBuffer, (s.socketDescs t i).receiveBufferSize.toNat⟩ :=
              Span.within_of_le (by unfold RECEIVE_BUFFER_HEADER_SIZE; omega) (by omega)
            simpa using hzero
          · refine Span.within_of_le ?_ (by omega)
            unfold UDP_HEADER_SIZE at hmin ⊢
            unfold RECEIVE_BUFFER_HEADER_SIZE
            omega

theorem receivedWrites_within (s : SocketManager T) (mem : Mem) (behind : Nat → UDPPortState) {packet : IPv4Packet}
    {fragments : List IPv4Packet} (hsized : Sized (packet :: fragments)) :
    ∀ a ∈ s.receivedWrites mem behind packet fragments, ∃ t i, a.Within (s.socketDescs t i).received := by
  unfold receivedWrites
  intro a ha
  split at ha
  · cases ha
  · split at ha
    · cases ha
    · rename_i hmin
      dsimp only at ha
      split at ha
      · cases ha
      · split at ha
        · cases ha
        · rename_i t i hindex
          exact ⟨t, i, deliverWrites_within s mem t i hsized (Nat.le_of_not_lt hmin) a ha⟩

/-! ## What is left of the buffers -/

/-- The buffers of a descriptor become parts of what they were, and an
indicator is at most forgotten. -/
structure Shrinks (d d' : SocketDesc) : Prop where
  received : d'.received.Within d.received
  sent : d'.sent.Within d.sent
  empty : d.sendBufferSize = 0 → d'.sendBufferSize = 0
  indicator : d'.sendBufferIndicatorWhenFinished = 0 ∨
    d'.sendBufferIndicatorWhenFinished = d.sendBufferIndicatorWhenFinished

theorem Shrinks.refl (d : SocketDesc) : Shrinks d d := ⟨.refl _, .refl _, id, .inr rfl⟩

theorem Shrinks.trans {d d' d'' : SocketDesc} (h1 : Shrinks d d') (h2 : Shrinks d' d'') : Shrinks d d'' where
  received := h2.received.trans h1.received
  sent := h2.sent.trans h1.sent
  empty h := h2.empty (h1.empty h)
  indicator := by
    rcases h2.indicator with h0 | h
    · exact .inl h0
    · rw [h]
      exact h1.indicator

theorem shrinks_setDesc {s : SocketManager T} {t : Fin T} {i : SocketID} {d : SocketDesc}
    (h : Shrinks (s.socketDescs t i) d) (t' : Fin T) (i' : SocketID) :
    Shrinks (s.socketDescs t' i') ((s.setDesc t i d).socketDescs t' i') := by
  by_cases he : (t', i') = (t, i)
  · cases he
    rw [socketDescs_setDesc]
    exact h
  · rw [socketDescs_setDesc_of_ne s d he]
    exact .refl _

/-- A span whose first `used` addresses are given up. -/
theorem advance_within {start size : UInt32} {used : Nat} (h : used ≤ size.toNat) :
    Span.Within ⟨start + UInt32.ofNat used, (size - UInt32.ofNat used).toNat⟩ ⟨start, size.toNat⟩ := by
  have hlt := size.toNat_lt
  have hword : (UInt32.ofNat used).toNat = used := by
    rw [UInt32.toNat_ofNat']
    omega
  refine Span.within_of_le ?_ (by omega)
  rw [UInt32.toNat_sub_of_le _ _ (by rw [UInt32.le_iff_toNat_le, hword]; exact h), hword]
  omega

theorem shrinks_deliver (s : SocketManager T) (mem : Mem) (t : Fin T) (i : SocketID) (packet : IPv4Packet)
    (fragments : List IPv4Packet) (t' : Fin T) (i' : SocketID) :
    Shrinks (s.socketDescs t' i') ((s.deliver mem t i packet fragments).1.socketDescs t' i') := by
  unfold deliver
  dsimp only
  split
  · exact .refl _
  · rename_i hroom
    split
    · exact .refl _
    · split
      · exact .refl _
      · refine shrinks_setDesc ?_ t' i'
        refine ⟨advance_within ?_, .refl _, id, .inr rfl⟩
        unfold UDP_HEADER_SIZE RECEIVE_BUFFER_HEADER_SIZE at hroom ⊢
        omega

theorem shrinks_received {s : SocketManager T} {mem : Mem} {behind : Nat → UDPPortState} {packet : IPv4Packet}
    {fragments : List IPv4Packet} {r : SocketManager T × Mem}
    (h : (s.handleReceivedPacket mem behind packet fragments).val = some r) (t : Fin T) (i : SocketID) :
    Shrinks (s.socketDescs t i) (r.1.socketDescs t i) := by
  unfold handleReceivedPacket at h
  simp only [Traced.val_ite, Traced.val_pure, Traced.val_bind] at h
  split at h
  · cases h
    exact .refl _
  · split at h
    · cases h
      exact .refl _
    · split at h
      · cases h
        exact .refl _
      · split at h
        · cases h
        · cases h
          exact shrinks_deliver s mem _ _ packet fragments t i

theorem shrinks_closeSocket {s s' : SocketManager T} {taskID : Fin T} {socketID : UInt8}
    (h : s.closeSocket taskID socketID = some s') (t : Fin T) (i : SocketID) :
    Shrinks (s.socketDescs t i) (s'.socketDescs t i) := by
  rcases closeSocket_cases h with ⟨rfl, _⟩ | ⟨j, p, _, _, _, rfl⟩
  · exact .refl _
  · refine shrinks_setDesc (s := s.setPortState p _) ?_ t i
    exact ⟨.refl _, .refl _, id, .inr rfl⟩

theorem shrinks_closeLoop {taskID : Fin T} {is : List Nat} {s s' : SocketManager T}
    (h : closeLoop taskID is s = some s') (t : Fin T) (i : SocketID) :
    Shrinks (s.socketDescs t i) (s'.socketDescs t i) := by
  induction is generalizing s with
  | nil =>
    cases h
    exact .refl _
  | cons j is ih =>
    obtain ⟨s1, h1, h2⟩ := Option.bind_eq_some_iff.mp h
    exact (shrinks_closeSocket h1 t i).trans (ih h2)

/-! ## Rounds -/

theorem shrinks_updateTop {s s' : SocketManager T} {udpPort : UInt16} {newFragmentOffset : UInt32}
    {newIdentification : UInt16} (h : s.updateTop udpPort newFragmentOffset newIdentification = some s') (t : Fin T)
    (i : SocketID) : Shrinks (s.socketDescs t i) (s'.socketDescs t i) := by
  unfold updateTop at h
  obtain ⟨o, _, rfl⟩ := Option.map_eq_some_iff.mp h
  cases o with
  | none => exact .refl _
  | some ti =>
    dsimp only
    split
    · exact .refl _
    · refine shrinks_setDesc ?_ t i
      exact ⟨.refl _, .refl _, id, .inr rfl⟩

theorem shrinks_removeTop {s m : SocketManager T} {mem : Mem} {udpPort : UInt16} {done : Bool}
    (h : s.removeTop mem udpPort = some (done, m)) (t : Fin T) (i : SocketID) :
    Shrinks (s.socketDescs t i) (m.socketDescs t i) := by
  rcases removeTop_cases h with ⟨_, rfl⟩ | ⟨_, t', i', used, _, hused, rfl⟩
  · exact .refl _
  · refine shrinks_setDesc ?_ t i
    refine ⟨.refl _, advance_within hused, fun h0 => ?_, .inr rfl⟩
    rw [h0] at hused
    have hz : used = 0 := by simpa using hused
    simp [h0, hz]

theorem shrinks_indicateAsFinished {s : SocketManager T} {mem : Mem} {udpPort : UInt16} {r : SocketManager T × Mem}
    (h : s.indicateAsFinished mem udpPort = some r) (t : Fin T) (i : SocketID) :
    Shrinks (s.socketDescs t i) (r.1.socketDescs t i) := by
  unfold indicateAsFinished at h
  obtain ⟨o, _, rfl⟩ := Option.map_eq_some_iff.mp h
  cases o with
  | none => exact .refl _
  | some ti =>
    refine shrinks_setDesc ?_ t i
    exact ⟨.refl _, Span.within_of_empty _ rfl, fun _ => rfl, .inl rfl⟩

theorem shrinks_finish {s s' : Sockets T} (h : s.finish = some s') (t : Fin T) (i : SocketID) :
    Shrinks (s.manager.socketDescs t i) (s'.manager.socketDescs t i) := by
  obtain ⟨middle, h1, h2⟩ := Option.bind_eq_some_iff.mp h
  obtain ⟨e, he, h1⟩ := Option.bind_eq_some_iff.mp h1
  obtain ⟨r, hr, rfl⟩ := Option.map_eq_some_iff.mp h1
  cases h2
  have hsame : (r.1.remove s.cursor).1.socketDescs = r.1.socketDescs := by
    unfold SocketManager.remove
    rw [he]
    dsimp only
    split <;> split <;> rfl
  show Shrinks _ ((r.1.remove s.cursor).1.socketDescs t i)
  rw [hsame]
  exact shrinks_indicateAsFinished hr t i

theorem shrinks_round {s s' : Sockets T} {outcome : SendOutcome}
    (hstep : s.handleTransmissionRequest outcome = some s') (t : Fin T) (i : SocketID) :
    Shrinks (s.manager.socketDescs t i) (s'.manager.socketDescs t i) := by
  obtain ⟨e, he, hstep⟩ := Option.bind_eq_some_iff.mp hstep
  obtain ⟨packet, _, hstep⟩ := Option.bind_eq_some_iff.mp hstep
  dsimp only at hstep
  split at hstep
  · have hfinished := shrinks_finish hstep t i
    exact hfinished
  · split at hstep
    · obtain ⟨⟨done, m⟩, hr, hstep⟩ := Option.bind_eq_some_iff.mp hstep
      have hremoved := shrinks_removeTop hr t i
      dsimp only at hstep
      split at hstep
      · have hfinished := shrinks_finish hstep t i
        exact hremoved.trans hfinished
      · obtain ⟨r, hrelocated, rfl⟩ := Option.map_eq_some_iff.mp hstep
        have hsame : r.1.socketDescs = m.socketDescs := by
          unfold relocateToEnd at hrelocated
          rw [he] at hrelocated
          dsimp only at hrelocated
          split at hrelocated
          · cases hrelocated
            rfl
          · obtain ⟨tail, _, rfl⟩ := Option.map_eq_some_iff.mp hrelocated
            split <;> rfl
        dsimp only
        rw [hsame]
        exact hremoved
    · have hupdated {middle : Sockets T} (hu : Sockets.call { s with mem := outcome.mem }
          (.updateTop outcome.fragmentOffset outcome.identification) = some middle) :
          Shrinks (s.manager.socketDescs t i) (middle.manager.socketDescs t i) := by
        obtain ⟨_, _, hu⟩ := Option.bind_eq_some_iff.mp hu
        obtain ⟨m, hm, rfl⟩ := Option.map_eq_some_iff.mp hu
        exact shrinks_updateTop hm t i
      split at hstep
      · obtain ⟨middle, h1, h2⟩ := Option.bind_eq_some_iff.mp hstep
        cases h2
        have hmiddle := hupdated h1
        exact hmiddle
      · exact hupdated hstep

/-- The spans a use may write: the packet the sending loop puts a UDP header
in, and the indicator. mirrors network_management_task.cpp:356-366, socket_manager.cpp:298-300 -/
def Use.writes : Use → List Span
  | .header _ => []
  | .data address dataLen => [⟨address, dataLen.toNat⟩]
  | .finish indicator => if indicator ≠ 0 then [⟨indicator, 4⟩] else []

/-- What a use writes is in the send buffer or is the indicator. -/
theorem Use.From.writes_within {d : SocketDesc} {use : Use} (h : use.From d) {a : Span} (ha : a ∈ use.writes) :
    a.Within d.sent ∨
      d.sendBufferIndicatorWhenFinished ≠ 0 ∧ a = ⟨d.sendBufferIndicatorWhenFinished, 4⟩ := by
  cases use with
  | header address => cases ha
  | data address dataLen =>
    obtain ⟨rfl, hlen⟩ := h
    cases List.mem_singleton.mp ha
    have := d.sendBufferSize.toNat_lt
    exact .inl (Span.within_of_le hlen (by omega))
  | finish indicator =>
    cases (h : indicator = d.sendBufferIndicatorWhenFinished)
    simp only [Use.writes] at ha
    split at ha
    · rename_i hne
      exact .inr ⟨hne, List.mem_singleton.mp ha⟩
    · cases ha

end CpuScheduler.L3
