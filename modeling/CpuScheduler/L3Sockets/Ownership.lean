import CpuScheduler.L3Sockets.Transmission

/-!
# Ports and sockets

`Owned`: an active entry of the port table and an active descriptor point to
each other. Only `openSocket` and `closeSocket` touch these fields
(`SameSockets` for everything else), and every call keeps the invariant.

`harmless_iff`: what a datagram does whose destination port nobody has
open. The port comes off the network as 16 bits, while `openSocket` only
hands out ports below `NUM_UDP_PORTS` and the table ends there;
`handleReceivedPacket` does not check it, so a UDP datagram for a port at or
above `NUM_UDP_PORTS` is looked up behind the table. Every other datagram
for a closed port is dropped without a trace.
-/
namespace CpuScheduler.L3

open Links Word L2 SocketManager

variable {T : Nat}

/-- Active port states and active descriptors point to each other. -/
structure Owned (s : SocketManager T) : Prop where
  port : ∀ p, (s.udpPortStates p).isActive ≠ 0 → (s.udpPortStates p).isActive = 1 ∧ ∃ t i,
    descIndex T (s.udpPortStates p).taskID (s.udpPortStates p).socketID = some (t, i) ∧
      (s.socketDescs t i).isActive = 1 ∧ (s.socketDescs t i).udpPort.toNat = p
  desc : ∀ t i, (s.socketDescs t i).isActive ≠ 0 → (s.socketDescs t i).isActive = 1 ∧ ∃ p,
    p.val = (s.socketDescs t i).udpPort.toNat ∧ (s.udpPortStates p).isActive ≠ 0 ∧
      descIndex T (s.udpPortStates p).taskID (s.udpPortStates p).socketID = some (t, i)

/-! ## Calls that leave ports and sockets alone -/

/-- The port table, and which sockets are bound to which ports, are the same. -/
structure SameSockets (s s' : SocketManager T) : Prop where
  ports : s'.udpPortStates = s.udpPortStates
  isActive : ∀ t i, (s'.socketDescs t i).isActive = (s.socketDescs t i).isActive
  udpPort : ∀ t i, (s'.socketDescs t i).udpPort = (s.socketDescs t i).udpPort

theorem SameSockets.refl (s : SocketManager T) : SameSockets s s :=
  ⟨rfl, fun _ _ => rfl, fun _ _ => rfl⟩

theorem SameSockets.trans {s s' s'' : SocketManager T} (h1 : SameSockets s s')
    (h2 : SameSockets s' s'') : SameSockets s s'' :=
  ⟨h2.ports.trans h1.ports, fun t i => (h2.isActive t i).trans (h1.isActive t i),
    fun t i => (h2.udpPort t i).trans (h1.udpPort t i)⟩

theorem SameSockets.owned {s s' : SocketManager T} (hs : SameSockets s s') (ho : Owned s) :
    Owned s' := by
  refine ⟨fun p hp => ?_, fun t i hi => ?_⟩
  · rw [hs.ports] at hp ⊢
    obtain ⟨h0, t, i, h1, h2, h3⟩ := ho.port p hp
    exact ⟨h0, t, i, h1, by rw [hs.isActive, h2], by rw [hs.udpPort, h3]⟩
  · rw [hs.isActive] at hi
    rw [hs.isActive, hs.udpPort, hs.ports]
    exact ho.desc t i hi

@[simp] theorem socketDescs_setDesc (s : SocketManager T) (t : Fin T) (i : SocketID)
    (d : SocketDesc) : (s.setDesc t i d).socketDescs t i = d := by
  simp [setDesc]

theorem socketDescs_setDesc_of_ne (s : SocketManager T) {t t' : Fin T} {i i' : SocketID}
    (d : SocketDesc) (hne : (t', i') ≠ (t, i)) :
    (s.setDesc t i d).socketDescs t' i' = s.socketDescs t' i' := by
  unfold setDesc
  by_cases ht : t' = t
  · subst ht
    have hi : i' ≠ i := by rintro rfl; exact hne rfl
    simp [Function.update_of_ne hi]
  · simp [Function.update_of_ne ht]

/-- A descriptor write that keeps its two binding fields. -/
theorem sameSockets_setDesc (s : SocketManager T) {t : Fin T} {i : SocketID} {d : SocketDesc}
    (ha : d.isActive = (s.socketDescs t i).isActive) (hp : d.udpPort = (s.socketDescs t i).udpPort) :
    SameSockets s (s.setDesc t i d) := by
  refine ⟨rfl, fun t' i' => ?_, fun t' i' => ?_⟩
  · by_cases he : (t', i') = (t, i)
    · cases he; rw [socketDescs_setDesc, ha]
    · rw [socketDescs_setDesc_of_ne s d he]
  · by_cases he : (t', i') = (t, i)
    · cases he; rw [socketDescs_setDesc, hp]
    · rw [socketDescs_setDesc_of_ne s d he]

theorem sameSockets_setReceiveBuffer (s : SocketManager T) (taskID : Fin T) (socketID : UInt8)
    (newBuffer newBufferSize : UInt32) :
    SameSockets s (s.setReceiveBuffer taskID socketID newBuffer newBufferSize).2 := by
  unfold setReceiveBuffer
  split
  · dsimp only
    split
    · exact .refl s
    · split
      · exact .refl s
      · exact sameSockets_setDesc s rfl rfl
  · exact .refl s

theorem sameSockets_addRequest {s s' : SocketManager T} {udpPort : UInt16}
    (h : s.addRequest udpPort = some s') : SameSockets s s' ∧ s'.socketDescs = s.socketDescs := by
  unfold addRequest at h
  rw [Option.map_eq_some_iff] at h
  obtain ⟨e, -, rfl⟩ := h
  dsimp only
  cases s.transmissionRequestsHead with
  | none => exact ⟨⟨rfl, fun _ _ => rfl, fun _ _ => rfl⟩, rfl⟩
  | some head => exact ⟨⟨rfl, fun _ _ => rfl, fun _ _ => rfl⟩, rfl⟩

theorem sameSockets_setSendBuffer (s : SocketManager T) (taskID : Fin T) (socketID : UInt8)
    (newBuffer newBufferSize indicatorWhenFinished : UInt32) :
    SameSockets s
      (s.setSendBuffer taskID socketID newBuffer newBufferSize indicatorWhenFinished).2 := by
  unfold setSendBuffer
  split
  · dsimp only
    split
    · exact .refl s
    · split
      · exact .refl s
      · split
        · exact sameSockets_setDesc s rfl rfl
        · cases hr : s.addRequest _ with
          | none => exact .refl s
          | some s' =>
            obtain ⟨h1, h2⟩ := sameSockets_addRequest hr
            refine h1.trans (sameSockets_setDesc s' ?_ ?_)
            · rw [h2]
            · rw [h2]
  · exact .refl s

theorem sameSockets_deliver (s : SocketManager T) (mem : Mem) (t : Fin T) (i : SocketID)
    (packet : IPv4Packet) (fragments : List IPv4Packet) :
    SameSockets s (s.deliver mem t i packet fragments).1 := by
  unfold deliver
  dsimp only
  split
  · exact .refl s
  · split
    · exact .refl s
    · split
      · exact .refl s
      · exact sameSockets_setDesc s rfl rfl

theorem sameSockets_transmission (s : SocketManager T) (mem : Mem) (udpPort : UInt16)
    (newFragmentOffset : UInt32) (newIdentification : UInt16) :
    (∀ s', s.updateTop udpPort newFragmentOffset newIdentification = some s' → SameSockets s s') ∧
      (∀ r, s.removeTop mem udpPort = some r → SameSockets s r.2) ∧
      ∀ r, s.indicateAsFinished mem udpPort = some r → SameSockets s r.1 := by
  refine ⟨fun s' h => ?_, fun r h => ?_, fun r h => ?_⟩
  · unfold updateTop at h
    obtain ⟨o, -, rfl⟩ := Option.map_eq_some_iff.mp h
    cases o with
    | none => exact .refl s
    | some ti =>
      dsimp only
      split
      · exact .refl s
      · exact sameSockets_setDesc s rfl rfl
  · unfold removeTop at h
    obtain ⟨o, -, rfl⟩ := Option.map_eq_some_iff.mp h
    cases o with
    | none => exact .refl s
    | some ti =>
      dsimp only
      split
      · exact .refl s
      · split
        · exact .refl s
        · exact sameSockets_setDesc s rfl rfl
  · unfold indicateAsFinished at h
    obtain ⟨o, -, rfl⟩ := Option.map_eq_some_iff.mp h
    cases o with
    | none => exact .refl s
    | some ti => exact sameSockets_setDesc s rfl rfl

theorem sameSockets_remove (s : SocketManager T) (cursor : ReqPtr) :
    SameSockets s (s.remove cursor).1 := by
  unfold SocketManager.remove
  cases cursor with
  | none => exact .refl s
  | some e =>
    dsimp only
    split <;> split <;> exact ⟨rfl, fun _ _ => rfl, fun _ _ => rfl⟩

theorem sameSockets_relocateToEnd {s : SocketManager T} {cursor : ReqPtr}
    {r : SocketManager T × ReqPtr} (h : s.relocateToEnd cursor = some r) : SameSockets s r.1 := by
  unfold relocateToEnd at h
  cases cursor with
  | none => cases h; exact .refl s
  | some e =>
    dsimp only at h
    split at h
    · cases h; exact .refl s
    · obtain ⟨tail, -, rfl⟩ := Option.map_eq_some_iff.mp h
      split <;> exact ⟨rfl, fun _ _ => rfl, fun _ _ => rfl⟩

/-! ## Opening and closing -/

theorem descIndex_ofNat (hT : T ≤ 256) (t : Fin T) (i : SocketID) :
    descIndex T (UInt8.ofNat t.val) (UInt8.ofNat i.val) = some (t, i) := by
  have ht : (UInt8.ofNat t.val).toNat = t.val := by
    rw [UInt8.toNat_ofNat']
    have := t.isLt
    omega
  have hi : (UInt8.ofNat i.val).toNat = i.val := by
    rw [UInt8.toNat_ofNat']
    have : i.val < 10 := i.isLt
    omega
  have hi' : i.val < MAX_NUM_SOCKETS_PER_TASK := i.isLt
  simp only [descIndex, ht, hi, t.isLt, hi', dite_true]

theorem owned_openSocket (hT : T ≤ 256) {s : SocketManager T} (ho : Owned s) (taskID : Fin T)
    (udpPort : UInt16) : Owned (s.openSocket taskID udpPort).2 := by
  unfold openSocket
  split
  · rename_i hp
    dsimp only
    split
    · exact ho
    · rename_i hact
      split
      · exact ho
      · rename_i i hfind
        have hfree : (s.socketDescs taskID i).isActive = 0 := by
          simpa using List.find?_some hfind
        -- the port was not active, so no descriptor points to it
        have hport : (s.udpPortStates ⟨udpPort.toNat, hp⟩).isActive = 0 := by
          by_contra hne
          exact hact (ho.port _ hne).1
        refine ⟨fun p hp' => ?_, fun t' i' hi' => ?_⟩
        · by_cases hpe : p = ⟨udpPort.toNat, hp⟩
          · subst hpe
            simp only [setPortState, Function.update_self]
            exact ⟨trivial, taskID, i, descIndex_ofNat hT taskID i, by simp⟩
          · simp only [setPortState, Function.update_of_ne hpe] at hp' ⊢
            obtain ⟨h0, t, j, h1, h2, h3⟩ := ho.port p hp'
            have hne : (t, j) ≠ (taskID, i) := by
              rintro he
              cases he
              rw [hfree] at h2
              exact absurd h2 (by decide)
            refine ⟨h0, t, j, h1, ?_⟩
            rw [socketDescs_setDesc_of_ne s _ hne]
            exact ⟨h2, h3⟩
        · by_cases he : (t', i') = (taskID, i)
          · cases he
            simp only [setPortState, socketDescs_setDesc]
            exact ⟨trivial, ⟨udpPort.toNat, hp⟩, rfl, by simp, by simp [descIndex_ofNat hT]⟩
          · simp only [setPortState, socketDescs_setDesc_of_ne s _ he] at hi' ⊢
            obtain ⟨h0, p, h1, h2, h3⟩ := ho.desc t' i' hi'
            have hpe : p ≠ ⟨udpPort.toNat, hp⟩ := by
              rintro rfl
              exact h2 hport
            refine ⟨h0, p, h1, ?_⟩
            rw [Function.update_of_ne hpe]
            exact ⟨h2, h3⟩
  · exact ho

theorem owned_closeSocket {s s' : SocketManager T} (ho : Owned s) {taskID : Fin T} {socketID : UInt8}
    (h : s.closeSocket taskID socketID = some s') : Owned s' := by
  unfold closeSocket at h
  split at h
  · rename_i hs
    dsimp only at h
    split at h
    · rename_i hact
      split at h
      · rename_i hp
        cases h
        generalize hi : (⟨socketID.toNat, hs⟩ : SocketID) = i at hact hp
        have hne0 : (s.socketDescs taskID i).isActive ≠ 0 := by rw [hact]; decide
        obtain ⟨-, p₀, h1, h2, h3⟩ := ho.desc taskID i hne0
        have hp₀ : p₀ = ⟨(s.socketDescs taskID i).udpPort.toNat, hp⟩ := Fin.ext h1
        refine ⟨fun p hp' => ?_, fun t' i' hi' => ?_⟩
        · have hpe : p ≠ ⟨(s.socketDescs taskID i).udpPort.toNat, hp⟩ := by
            rintro rfl
            simp [setDesc, setPortState] at hp'
          simp only [setDesc, setPortState, Function.update_of_ne hpe] at hp'
          obtain ⟨k0, t, j, k1, k2, k3⟩ := ho.port p hp'
          have hne : (t, j) ≠ (taskID, i) := by
            rintro he
            cases he
            exact hpe (Fin.ext k3.symm)
          refine ⟨?_, t, j, ?_, ?_⟩
          · simpa only [setDesc, setPortState, Function.update_of_ne hpe] using k0
          · simpa only [setDesc, setPortState, Function.update_of_ne hpe] using k1
          · rw [socketDescs_setDesc_of_ne _ _ hne]
            exact ⟨k2, k3⟩
        · have he : (t', i') ≠ (taskID, i) := by
            rintro he
            cases he
            simp at hi'
          rw [socketDescs_setDesc_of_ne _ _ he] at hi' ⊢
          obtain ⟨k0, p, k1, k2, k3⟩ := ho.desc t' i' hi'
          have hpe : p ≠ ⟨(s.socketDescs taskID i).udpPort.toNat, hp⟩ := by
            rintro rfl
            rw [hp₀, k3] at h3
            exact he (Option.some.inj h3)
          refine ⟨k0, p, k1, ?_, ?_⟩
          · simpa only [setDesc, setPortState, Function.update_of_ne hpe] using k2
          · simpa only [setDesc, setPortState, Function.update_of_ne hpe] using k3
      · cases h
    · cases h; exact ho
  · cases h; exact ho

theorem owned_closeLoop {taskID : Fin T} {is : List Nat} {s s' : SocketManager T} (ho : Owned s)
    (h : closeLoop taskID is s = some s') : Owned s' := by
  induction is generalizing s with
  | nil => cases h; exact ho
  | cons i is ih =>
    obtain ⟨s1, h1, h2⟩ := Option.bind_eq_some_iff.mp h
    exact ih (owned_closeSocket ho h1) h2

/-! ## Received datagrams -/

/-- The port a UDP datagram is for. -/
def destinationPort (packet : IPv4Packet) : Nat := be16 (packet.data 2) (packet.data 3)

section Received
variable (s : SocketManager T) (mem : Mem) (behind : Nat → UDPPortState) (packet : IPv4Packet)
  (fragments : List IPv4Packet)

/-- A datagram that is not UDP, or too short, is dropped before the table is
looked at. -/
theorem handleReceivedPacket_of_not_udp
    (hd : ¬ (packet.protocol = 17 ∧ UDP_HEADER_SIZE ≤ packet.dataSize)) :
    s.handleReceivedPacket mem behind packet fragments = pure (some (s, mem)) := by
  unfold handleReceivedPacket
  by_cases hp : packet.protocol = 17
  · have hs : packet.dataSize < UDP_HEADER_SIZE := by
      rw [not_and] at hd
      exact Nat.lt_of_not_le (hd hp)
    rw [if_neg (by simpa using hp), if_pos hs]
  · rw [if_pos hp]

/-- The first access of a UDP datagram to the port table. -/
theorem log_handleReceivedPacket (hp : packet.protocol = 17)
    (hs : UDP_HEADER_SIZE ≤ packet.dataSize) :
    destinationPort packet ∈ (s.handleReceivedPacket mem behind packet fragments).log := by
  unfold handleReceivedPacket
  rw [if_neg (by simpa using hp), if_neg (Nat.not_lt.mpr hs)]
  simp [portState, destinationPort]

/-- A UDP datagram for a port of the table that is not active is dropped after
one look. -/
theorem handleReceivedPacket_of_inactive (hp : packet.protocol = 17)
    (hs : UDP_HEADER_SIZE ≤ packet.dataSize) (hport : destinationPort packet < NUM_UDP_PORTS)
    (hact : (s.udpPortStates ⟨destinationPort packet, hport⟩).isActive = 0) :
    (s.handleReceivedPacket mem behind packet fragments).val = some (s, mem) ∧
      (s.handleReceivedPacket mem behind packet fragments).log = [destinationPort packet] := by
  have hstate : (s.portState behind (destinationPort packet)).val =
      s.udpPortStates ⟨destinationPort packet, hport⟩ := by
    simp [portState, hport]
  unfold handleReceivedPacket
  rw [if_neg (by simpa using hp), if_neg (Nat.not_lt.mpr hs)]
  dsimp only
  rw [← destinationPort]
  refine ⟨?_, ?_⟩
  · rw [Traced.val_bind, hstate, if_pos hact]
    rfl
  · rw [Traced.log_bind, hstate, if_pos hact]
    rfl

theorem sameSockets_received {r : SocketManager T × Mem}
    (h : (s.handleReceivedPacket mem behind packet fragments).val = some r) : SameSockets s r.1 := by
  unfold handleReceivedPacket at h
  simp only [Traced.val_ite, Traced.val_pure, Traced.val_bind] at h
  split at h
  · cases h; exact .refl s
  · split at h
    · cases h; exact .refl s
    · split at h
      · cases h; exact .refl s
      · split at h
        · cases h
        · cases h; exact sameSockets_deliver s mem _ _ packet fragments

end Received

/-! ## Runs -/

theorem owned_init (old : SocketManager T) : Owned (SocketManager.init old) :=
  ⟨fun _ hp => absurd rfl hp, fun _ _ hi => absurd rfl hi⟩

/-- The task a call is made for. -/
def SocketCall.caller : SocketCall T → Option (Fin T)
  | .openSocket taskID _ => some taskID
  | .closeSocket taskID _ => some taskID
  | .closeAllSocketsForTask taskID => some taskID
  | .setReceiveBuffer taskID _ _ _ => some taskID
  | .setSendBuffer taskID _ _ _ _ => some taskID
  | _ => none

/-- What no task has called does not open or close a socket. -/
theorem sameSockets_call {s t : Sockets T} {c : SocketCall T} (hc : c.caller = none) (h : s.call c = some t) :
    SameSockets s.manager t.manager := by
  cases c with
  | openSocket | closeSocket | closeAllSocketsForTask | setReceiveBuffer | setSendBuffer => cases hc
  | received behind packet fragments =>
    obtain ⟨r, h1, rfl⟩ := Option.map_eq_some_iff.mp h
    exact sameSockets_received _ _ _ _ _ h1
  | userWrite mem =>
    cases h
    exact .refl _
  | getTransmissionRequestsIterator =>
    cases h
    exact .refl _
  | goToNext =>
    cases h
    exact .refl _
  | updateTop newFragmentOffset newIdentification =>
    obtain ⟨e, -, h⟩ := Option.bind_eq_some_iff.mp h
    obtain ⟨s', h1, rfl⟩ := Option.map_eq_some_iff.mp h
    exact (sameSockets_transmission _ s.mem _ _ _).1 s' h1
  | removeTop =>
    obtain ⟨e, -, h⟩ := Option.bind_eq_some_iff.mp h
    obtain ⟨r, h1, rfl⟩ := Option.map_eq_some_iff.mp h
    exact (sameSockets_transmission _ _ _ 0 0).2.1 r h1
  | indicateAsFinished =>
    obtain ⟨e, -, h⟩ := Option.bind_eq_some_iff.mp h
    obtain ⟨r, h1, rfl⟩ := Option.map_eq_some_iff.mp h
    exact (sameSockets_transmission _ _ _ 0 0).2.2 r h1
  | remove =>
    cases h
    exact sameSockets_remove _ _
  | relocateToEnd =>
    obtain ⟨r, h1, rfl⟩ := Option.map_eq_some_iff.mp h
    exact sameSockets_relocateToEnd h1

theorem call_owned (hT : T ≤ 256) {s t : Sockets T} {c : SocketCall T} (ho : Owned s.manager)
    (h : s.call c = some t) : Owned t.manager := by
  cases c with
  | openSocket taskID udpPort =>
    cases h
    exact owned_openSocket hT ho taskID udpPort
  | closeSocket taskID socketID =>
    obtain ⟨s', h1, rfl⟩ := Option.map_eq_some_iff.mp h
    exact owned_closeSocket ho h1
  | closeAllSocketsForTask taskID =>
    obtain ⟨s', h1, rfl⟩ := Option.map_eq_some_iff.mp h
    exact owned_closeLoop ho h1
  | setReceiveBuffer taskID socketID newBuffer newBufferSize =>
    cases h
    exact (sameSockets_setReceiveBuffer ..).owned ho
  | setSendBuffer taskID socketID newBuffer newBufferSize indicatorWhenFinished =>
    cases h
    exact (sameSockets_setSendBuffer ..).owned ho
  | received | userWrite | getTransmissionRequestsIterator | goToNext | updateTop | removeTop | indicateAsFinished
  | remove | relocateToEnd => exact (sameSockets_call rfl h).owned ho

theorem owned_of_reachable (hT : T ≤ 256) {s : Sockets T} (hs : (socketLTS T).Reachable s) :
    Owned s.manager := by
  refine LTS.Inductive.reachable (I := fun s : Sockets T => Owned s.manager) ⟨?_, ?_⟩ s hs
  · intro s hi
    obtain ⟨old, he⟩ := hi
    rw [he]
    exact owned_init old
  · intro s c t ho hst
    exact call_owned hT ho hst

/-! ## Ports and sockets -/

/-- A socket ID as it is passed in a system call. -/
def socketByte (i : SocketID) : UInt8 := UInt8.ofNat i.val

theorem toNat_socketByte (i : SocketID) : (socketByte i).toNat = i.val := by
  have hlt : i.val < 10 := i.isLt
  rw [socketByte, UInt8.toNat_ofNat']
  omega

/-- The port of an active socket leads back to it. -/
theorem boundSocket_of_owned {s : SocketManager T} (ho : Owned s) {t : Fin T} {i : SocketID}
    (ha : (s.socketDescs t i).isActive ≠ 0) :
    s.boundSocket (s.socketDescs t i).udpPort = some (some (t, i)) := by
  obtain ⟨_, p, hp, hact, hindex⟩ := ho.desc t i ha
  unfold boundSocket
  have hlt : (s.socketDescs t i).udpPort.toNat < NUM_UDP_PORTS := hp ▸ p.isLt
  have hpe : (⟨(s.socketDescs t i).udpPort.toNat, hlt⟩ : Fin NUM_UDP_PORTS) = p := Fin.ext hp.symm
  rw [dif_pos hlt, hpe]
  dsimp only
  rw [if_neg hact, hindex]
  rfl

/-- The socket a port leads to is bound to the port. -/
theorem udpPort_of_bound {s : SocketManager T} (ho : Owned s) {udpPort : UInt16} {t : Fin T} {i : SocketID}
    (h : s.boundSocket udpPort = some (some (t, i))) : (s.socketDescs t i).udpPort = udpPort := by
  unfold boundSocket at h
  split at h
  · rename_i hlt
    dsimp only at h
    split at h
    · cases h
    · rename_i hact
      obtain ⟨_, t', i', hindex, _, hport⟩ := ho.port _ hact
      rw [hindex] at h
      cases h
      exact UInt16.toNat_inj.mp hport
  · cases h

/-- A socket that was opened: its descriptor is new, the others are as before. -/
theorem openSocket_opened {s : SocketManager T} {taskID : Fin T} {udpPort : UInt16} {i : SocketID}
    (h : (s.openSocket taskID udpPort).1 = i.val) :
    (∃ d, (s.openSocket taskID udpPort).2.socketDescs taskID i = d ∧ d.isActive = 1 ∧ d.udpPort = udpPort ∧
      d.sendBufferIndicatorWhenFinished = 0) ∧
    ∀ t' i', (t', i') ≠ (taskID, i) → (s.openSocket taskID udpPort).2.socketDescs t' i' = s.socketDescs t' i' := by
  have hneg : ¬ (-1 : Int) = (i.val : Int) := by omega
  unfold openSocket at h ⊢
  split at h
  · rename_i hp
    dsimp only at h ⊢
    rw [dif_pos hp]
    split at h
    · exact absurd h hneg
    · rename_i hact
      rw [if_neg hact]
      split at h
      · exact absurd h hneg
      · rename_i j hj
        have hij : j = i := by
          have hval : (j.val : Int) = (i.val : Int) := h
          exact Fin.ext (by omega)
        subst hij
        refine ⟨⟨_, socketDescs_setDesc .., rfl, rfl, rfl⟩, fun t' i' hne => ?_⟩
        exact socketDescs_setDesc_of_ne s _ hne
  · exact absurd h hneg

/-! ## Datagrams for a port nobody has open -/

/-- The datagram changes no socket descriptor, no port state and no byte of a
task, and every index into the port table is in bounds. -/
structure Harmless (s : Sockets T) (behind : Nat → UDPPortState) (packet : IPv4Packet)
    (fragments : List IPv4Packet) : Prop where
  inBounds : ∀ i ∈ (s.manager.handleReceivedPacket s.mem behind packet fragments).log,
    i < NUM_UDP_PORTS
  unchanged : ∃ m mem,
    (s.manager.handleReceivedPacket s.mem behind packet fragments).val = some (m, mem) ∧
      m.socketDescs = s.manager.socketDescs ∧ m.udpPortStates = s.manager.udpPortStates ∧ mem = s.mem

/-- A datagram for a port nobody has open, in a reachable state: it is harmless
if and only if it is not a UDP datagram for a port at or above
`NUM_UDP_PORTS`. -/
theorem harmless_iff (hT : T ≤ 256) (s : Sockets T) (hs : (socketLTS T).Reachable s)
    (behind : Nat → UDPPortState) (packet : IPv4Packet) (fragments : List IPv4Packet)
    (hfree : ∀ t i, (s.manager.socketDescs t i).isActive ≠ 0 →
      (s.manager.socketDescs t i).udpPort.toNat ≠ destinationPort packet) :
    Harmless s behind packet fragments ↔
      ¬ (packet.protocol = 17 ∧ UDP_HEADER_SIZE ≤ packet.dataSize ∧
        NUM_UDP_PORTS ≤ destinationPort packet) := by
  constructor
  · intro hH hbad
    obtain ⟨hp, hsz, hport⟩ := hbad
    have := hH.inBounds _ (log_handleReceivedPacket s.manager s.mem behind packet fragments hp hsz)
    omega
  · intro hok
    by_cases hudp : packet.protocol = 17 ∧ UDP_HEADER_SIZE ≤ packet.dataSize
    · obtain ⟨hp, hsz⟩ := hudp
      have hport : destinationPort packet < NUM_UDP_PORTS := by
        by_contra hge
        exact hok ⟨hp, hsz, Nat.le_of_not_lt hge⟩
      -- an active port would have an active socket bound to it
      have hact : (s.manager.udpPortStates ⟨destinationPort packet, hport⟩).isActive = 0 := by
        by_contra hne
        obtain ⟨-, t, i, -, h2, h3⟩ := (owned_of_reachable hT hs).port _ hne
        exact hfree t i (by rw [h2]; decide) h3
      obtain ⟨h1, h2⟩ := handleReceivedPacket_of_inactive s.manager s.mem behind packet fragments hp
        hsz hport hact
      refine ⟨?_, s.manager, s.mem, h1, rfl, rfl, rfl⟩
      rw [h2]
      intro i hi
      rw [List.mem_singleton.mp hi]
      exact hport
    · have hr := handleReceivedPacket_of_not_udp s.manager s.mem behind packet fragments hudp
      refine ⟨?_, s.manager, s.mem, ?_, rfl, rfl, rfl⟩
      · rw [hr]
        intro i hi
        cases hi
      · rw [hr]
        rfl

/-! ## One task with one socket -/

theorem firstSocket_lt : 0 < MAX_NUM_SOCKETS_PER_TASK := by decide

/-- Memory before construction, for one task. -/
def blankManager : SocketManager 1 where
  socketDescs _ _ := ⟨0, 0, 0, 0, 0, 0, 0, 0, 0⟩
  udpPortStates _ := ⟨0, 0, 0⟩
  next _ := none
  prev _ := none
  request _ := 0
  transmissionRequestsHead := none
  transmissionRequestsTail := none
  unusedTransmissionRequestsHead := none

/-- The task has port 80 open, with a receive buffer of 64 bytes. -/
def port80 : Sockets 1 :=
  { manager := (((SocketManager.init blankManager).openSocket ⟨0, Nat.one_pos⟩ 80).2.setReceiveBuffer
      ⟨0, Nat.one_pos⟩ 0 0x1000 64).2
    mem := fun _ => 0
    cursor := none }

theorem reachable_port80 : (socketLTS 1).Reachable port80 := by
  refine ⟨⟨SocketManager.init blankManager, fun _ => 0, none⟩,
    [.openSocket 0 80, .setReceiveBuffer 0 0 0x1000 64], ⟨_, rfl⟩, ?_⟩
  exact .cons rfl (.cons rfl (.nil _))

/-- A UDP datagram with 1 byte of data for the port `port`. -/
def datagramTo (port : Nat) : IPv4Packet where
  sourceIP := 0x0A000002
  destIP := 0x0A000001
  dataSize := 9
  protocol := 17
  moreFragments := false
  fragmentOffset := 0
  identification := 1
  createdTime := 0
  data i := [0x30, 0x39, UInt8.ofNat (port / 256), UInt8.ofNat (port % 256), 0, 9, 0, 0, 7].getD i 0

/-- Nobody has port 81 open. -/
theorem harmless_iff_port81 : Harmless port80 (fun _ => ⟨1, 0, 0⟩) (datagramTo 81) [] := by
  refine (harmless_iff (by decide) port80 reachable_port80 _ _ _ ?_).mpr (by decide)
  decide +kernel

/-- A datagram for port 9000, where the word behind the table reads as an
active entry of task 0 and socket 0: the table is indexed out of bounds and
the datagram lands in the receive buffer of port 80. -/
theorem harmful_port9000 : (socketLTS 1).Reachable port80 ∧
    (∀ t i, (port80.manager.socketDescs t i).isActive ≠ 0 →
      (port80.manager.socketDescs t i).udpPort.toNat ≠ destinationPort (datagramTo 9000)) ∧
    (port80.call (.received (fun _ => ⟨1, 0, 0⟩) (datagramTo 9000) [])).map
      (fun t => (t.manager.socketDescs 0 ⟨0, by decide⟩).receiveBuffer) = some 0x1009 ∧
    ¬ Harmless port80 (fun _ => ⟨1, 0, 0⟩) (datagramTo 9000) [] := by
  refine ⟨reachable_port80, by decide +kernel, by decide +kernel, ?_⟩
  intro hH
  have := hH.inBounds _ (log_handleReceivedPacket _ _ _ (datagramTo 9000) [] rfl (by decide))
  exact absurd this (by decide)

end CpuScheduler.L3
