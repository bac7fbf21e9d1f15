import CpuScheduler.L3Sockets.Ownership

/-!
# Two tables, one binding

The descriptors of the tasks and the port table are written separately.
`socket_tables` says what holds between them in every reachable state, and
what a call of one task can do to the others: an active port is the port of
exactly one active descriptor and names it, a call of a task touches no
descriptor and no port of another task, and a call that fails changes
nothing.
-/
namespace CpuScheduler.L3

open Word L2 SocketManager

variable {T : Nat}

/-- The descriptors of the tasks other than `taskID`, and the ports they have
open, are the same. -/
structure OthersKept (taskID : Fin T) (s s' : SocketManager T) : Prop where
  socketDescs : ∀ t, t ≠ taskID → s'.socketDescs t = s.socketDescs t
  udpPortStates : ∀ p, (s.udpPortStates p).isActive ≠ 0 → (s.udpPortStates p).taskID.toNat ≠ taskID.val →
    s'.udpPortStates p = s.udpPortStates p

theorem OthersKept.refl (taskID : Fin T) (s : SocketManager T) : OthersKept taskID s s :=
  ⟨fun _ _ => rfl, fun _ _ _ => rfl⟩

theorem OthersKept.trans {taskID : Fin T} {s m s' : SocketManager T} (h1 : OthersKept taskID s m)
    (h2 : OthersKept taskID m s') : OthersKept taskID s s' := by
  refine ⟨fun t ht => (h2.socketDescs t ht).trans (h1.socketDescs t ht), fun p hact hne => ?_⟩
  have hsame := h1.udpPortStates p hact hne
  rw [← hsame] at hact hne
  exact (h2.udpPortStates p hact hne).trans hsame

theorem othersKept_setDesc (s : SocketManager T) (taskID : Fin T) (i : SocketID) (d : SocketDesc) :
    OthersKept taskID s (s.setDesc taskID i d) :=
  ⟨fun _ ht => Function.update_of_ne ht _ _, fun _ _ _ => rfl⟩

/-! ## Opening -/

/-- `openSocket` fails in three cases and then changes nothing; otherwise it
writes a descriptor of the caller and a port that was not active. -/
theorem openSocket_cases (s : SocketManager T) (taskID : Fin T) (udpPort : UInt16) :
    (s.openSocket taskID udpPort = (-1, s) ∧
      (NUM_UDP_PORTS ≤ udpPort.toNat ∨
        (∃ p, p.val = udpPort.toNat ∧ (s.udpPortStates p).isActive = 1) ∨
        ∀ i, (s.socketDescs taskID i).isActive ≠ 0)) ∨
    ∃ p i d, p.val = udpPort.toNat ∧ (s.udpPortStates p).isActive ≠ 1 ∧ (s.socketDescs taskID i).isActive = 0 ∧
      (d.isActive = 1 ∧ d.receiveBufferSize = 0 ∧ d.sendBufferSize = 0 ∧ d.sendBufferIndicatorWhenFinished = 0) ∧
      s.openSocket taskID udpPort =
        ((i.val : Int), (s.setDesc taskID i d).setPortState p ⟨1, UInt8.ofNat taskID.val, UInt8.ofNat i.val⟩) := by
  unfold openSocket
  split
  · rename_i hp
    dsimp only
    split
    · rename_i hact
      exact .inl ⟨rfl, .inr (.inl ⟨_, rfl, hact⟩)⟩
    · rename_i hact
      split
      · rename_i hfind
        refine .inl ⟨rfl, .inr (.inr fun i => ?_)⟩
        simpa using List.find?_eq_none.mp hfind i (List.mem_finRange i)
      · rename_i i hfind
        have hfree : (s.socketDescs taskID i).isActive = 0 := by simpa using List.find?_some hfind
        exact .inr ⟨_, i, _, rfl, hact, hfree, ⟨rfl, rfl, rfl, rfl⟩, rfl⟩
  · rename_i hp
    exact .inl ⟨rfl, .inl (Nat.le_of_not_lt hp)⟩

theorem openSocket_fails_iff {s : SocketManager T} (ho : Owned s) (taskID : Fin T) (udpPort : UInt16) :
    (s.openSocket taskID udpPort).1 = -1 ↔
      NUM_UDP_PORTS ≤ udpPort.toNat ∨
      (∃ p, p.val = udpPort.toNat ∧ (s.udpPortStates p).isActive ≠ 0) ∨
      ∀ i, (s.socketDescs taskID i).isActive ≠ 0 := by
  rcases openSocket_cases s taskID udpPort with ⟨he, hwhy⟩ | ⟨p, i, d, hp, hact, hfree, _, he⟩
  · rw [he]
    refine ⟨fun _ => hwhy.imp_right (Or.imp_left ?_), fun _ => rfl⟩
    intro h
    obtain ⟨p, hp, h1⟩ := h
    exact ⟨p, hp, by rw [h1]; decide⟩
  · rw [he]
    constructor
    · intro h
      have : (i.val : Int) = -1 := h
      omega
    · intro hwhy
      rcases hwhy with hge | ⟨q, hq, hne⟩ | hall
      · have := p.isLt
        omega
      · have hqp : q = p := Fin.ext (hq.trans hp.symm)
        exact absurd (ho.port q hne).1 (hqp ▸ hact)
      · exact absurd hfree (hall i)

theorem openSocket_refused {s : SocketManager T} {taskID : Fin T} {udpPort : UInt16}
    (h : (s.openSocket taskID udpPort).1 = -1) : (s.openSocket taskID udpPort).2 = s := by
  rcases openSocket_cases s taskID udpPort with ⟨he, _⟩ | ⟨p, i, d, _, _, _, _, he⟩
  · rw [he]
  · rw [he] at h
    have : (i.val : Int) = -1 := h
    omega

theorem othersKept_openSocket {s : SocketManager T} (ho : Owned s) (taskID : Fin T) (udpPort : UInt16) :
    OthersKept taskID s (s.openSocket taskID udpPort).2 := by
  rcases openSocket_cases s taskID udpPort with ⟨he, _⟩ | ⟨p, i, d, _, hnot, _, _, he⟩
  · rw [he]
    exact .refl taskID s
  · rw [he]
    refine (othersKept_setDesc s taskID i d).trans ⟨fun _ _ => rfl, fun q hact _ => ?_⟩
    have hne : q ≠ p := by
      intro hqp
      subst hqp
      exact hnot (ho.port q hact).1
    exact Function.update_of_ne hne _ _

/-! ## Closing -/

/-- The port of an active descriptor is in the table and names the descriptor. -/
theorem Owned.names {s : SocketManager T} (ho : Owned s) {t : Fin T} {i : SocketID} {p : Fin NUM_UDP_PORTS}
    (hact : (s.socketDescs t i).isActive ≠ 0) (hp : (s.socketDescs t i).udpPort.toNat = p.val) :
    (s.udpPortStates p).isActive ≠ 0 ∧ (s.udpPortStates p).taskID.toNat = t.val ∧
      (s.udpPortStates p).socketID.toNat = i.val := by
  obtain ⟨_, q, hq, hqact, hindex⟩ := ho.desc t i hact
  have hqp : q = p := Fin.ext (hq.trans hp)
  subst hqp
  unfold descIndex at hindex
  split at hindex
  · split at hindex
    · cases hindex
      exact ⟨hqact, rfl, rfl⟩
    · cases hindex
  · cases hindex

/-- `closeSocket` finds no active socket, or closes the socket and its port. -/
theorem closeSocket_cases {s s' : SocketManager T} {taskID : Fin T} {socketID : UInt8}
    (h : s.closeSocket taskID socketID = some s') :
    (s' = s ∧ ∀ i : SocketID, i.val = socketID.toNat → (s.socketDescs taskID i).isActive ≠ 1) ∨
    ∃ (i : SocketID) (p : Fin NUM_UDP_PORTS), i.val = socketID.toNat ∧ (s.socketDescs taskID i).isActive = 1 ∧
      p.val = (s.socketDescs taskID i).udpPort.toNat ∧
      s' = (s.setPortState p { s.udpPortStates p with isActive := 0 }).setDesc taskID i
        { s.socketDescs taskID i with isActive := 0 } := by
  unfold closeSocket at h
  split at h
  · rename_i hs
    dsimp only at h
    split at h
    · rename_i hact
      split at h
      · cases h
        exact .inr ⟨_, _, rfl, hact, rfl, rfl⟩
      · cases h
    · rename_i hact
      cases h
      refine .inl ⟨rfl, fun i hi => ?_⟩
      cases (Fin.ext hi : i = ⟨socketID.toNat, hs⟩)
      exact hact
  · rename_i hs
    cases h
    refine .inl ⟨rfl, fun i hi => absurd i.isLt ?_⟩
    rw [hi]
    exact hs

/-- Which sockets are closed by the loop over the sockets of a task. -/
theorem closeLoop_cases {taskID : Fin T} {is : List Nat} {s s' : SocketManager T} (ho : Owned s)
    (h : closeLoop taskID is s = some s') (t : Fin T) (i : SocketID) :
    s'.socketDescs t i = s.socketDescs t i ∧ ¬ (t = taskID ∧ i.val ∈ is ∧ (s.socketDescs t i).isActive ≠ 0) ∨
      t = taskID ∧ (s'.socketDescs t i).isActive = 0 := by
  induction is generalizing s with
  | nil =>
    cases h
    exact .inl ⟨rfl, by simp⟩
  | cons j is ih =>
    obtain ⟨s1, h1, h2⟩ := Option.bind_eq_some_iff.mp h
    have ih := ih (owned_closeSocket ho h1) h2
    rcases closeSocket_cases h1 with ⟨rfl, hnot⟩ | ⟨k, p, hk, hact, hp, rfl⟩
    · refine ih.imp_left fun hs => ⟨hs.1, fun hclosed => ?_⟩
      obtain ⟨rfl, hmem, hne⟩ := hclosed
      rcases List.mem_cons.mp hmem with hij | hmem
      · have hlt : i.val < 10 := i.isLt
        refine hnot i ?_ (ho.desc t i hne).1
        rw [UInt8.toNat_ofNat']
        omega
      · exact hs.2 ⟨rfl, hmem, hne⟩
    · by_cases he : (t, i) = (taskID, k)
      · cases he
        rcases ih with ⟨hsame, _⟩ | hclosed
        · rw [hsame, socketDescs_setDesc]
          exact .inr ⟨rfl, rfl⟩
        · exact .inr hclosed
      · rw [socketDescs_setDesc_of_ne _ _ he] at ih
        refine ih.imp_left fun hs => ⟨hs.1, fun hclosed => ?_⟩
        obtain ⟨rfl, hmem, hne⟩ := hclosed
        rcases List.mem_cons.mp hmem with hij | hmem
        · have hlt : i.val < 10 := i.isLt
          have hik : i.val = k.val := by
            rw [hk, UInt8.toNat_ofNat']
            omega
          exact he (Prod.ext rfl (Fin.ext hik))
        · exact hs.2 ⟨rfl, hmem, hne⟩

/-- Afterwards the task has no active socket, and the descriptors of the other
tasks are as before. -/
theorem closeAllSocketsForTask_descs {taskID : Fin T} {s s' : SocketManager T} (ho : Owned s)
    (h : s.closeAllSocketsForTask taskID = some s') (t : Fin T) (i : SocketID) :
    (t = taskID → (s'.socketDescs t i).isActive = 0) ∧
      (t ≠ taskID → s'.socketDescs t i = s.socketDescs t i) := by
  rcases closeLoop_cases ho h t i with ⟨hsame, hnot⟩ | ⟨ht, hclosed⟩
  · refine ⟨fun ht => ?_, fun _ => hsame⟩
    rw [hsame]
    by_contra hne
    exact hnot ⟨ht, List.mem_range.mpr i.isLt, hne⟩
  · exact ⟨fun _ => hclosed, fun hne => absurd ht hne⟩

theorem closeSocket_othersKept {s : SocketManager T} (ho : Owned s) (taskID : Fin T) (socketID : UInt8) :
    ∃ s', s.closeSocket taskID socketID = some s' ∧ OthersKept taskID s s' := by
  unfold closeSocket
  split
  · rename_i hs
    dsimp only
    split
    · rename_i hact
      have hne : (s.socketDescs taskID ⟨socketID.toNat, hs⟩).isActive ≠ 0 := by
        rw [hact]
        decide
      obtain ⟨_, p, hp, _⟩ := ho.desc taskID _ hne
      have hlt : (s.socketDescs taskID ⟨socketID.toNat, hs⟩).udpPort.toNat < NUM_UDP_PORTS := hp ▸ p.isLt
      rw [dif_pos hlt]
      refine ⟨_, rfl, .trans (m := s.setPortState _ _) ⟨fun _ _ => rfl, fun q _ hother => ?_⟩
        (othersKept_setDesc _ taskID _ _)⟩
      -- the port that is closed is one of the caller's
      have hqp : q ≠ ⟨_, hlt⟩ := by
        intro hqp
        subst hqp
        exact hother (ho.names hne rfl).2.1
      exact Function.update_of_ne hqp _ _
    · exact ⟨s, rfl, .refl taskID s⟩
  · exact ⟨s, rfl, .refl taskID s⟩

theorem closeLoop_othersKept (taskID : Fin T) (is : List Nat) {s : SocketManager T} (ho : Owned s) :
    ∃ s', closeLoop taskID is s = some s' ∧ OthersKept taskID s s' := by
  induction is generalizing s with
  | nil => exact ⟨s, rfl, .refl taskID s⟩
  | cons i is ih =>
    obtain ⟨s1, h1, hkept1⟩ := closeSocket_othersKept ho taskID (UInt8.ofNat i)
    obtain ⟨s2, h2, hkept2⟩ := ih (owned_closeSocket ho h1)
    refine ⟨s2, ?_, hkept1.trans hkept2⟩
    rw [closeLoop, h1]
    exact h2

/-! ## Buffers -/

/-- `setReceiveBuffer` fails and changes nothing, or writes a descriptor of
the caller. -/
theorem setReceiveBuffer_cases (s : SocketManager T) (taskID : Fin T) (socketID : UInt8)
    (newBuffer newBufferSize : UInt32) :
    s.setReceiveBuffer taskID socketID newBuffer newBufferSize = (-1, s) ∨
      ∃ i : SocketID, i.val = socketID.toNat ∧
        s.setReceiveBuffer taskID socketID newBuffer newBufferSize = (0, s.setDesc taskID i
          { s.socketDescs taskID i with receiveBuffer := newBuffer, receiveBufferSize := newBufferSize }) := by
  unfold setReceiveBuffer
  split
  · dsimp only
    split
    · exact .inl rfl
    · split
      · exact .inl rfl
      · exact .inr ⟨_, rfl, rfl⟩
  · exact .inl rfl

/-- `setSendBuffer` fails and changes nothing, or the caller cancels, or a
request for the port of the caller's socket is added. -/
theorem setSendBuffer_cases (s : SocketManager T) (taskID : Fin T) (socketID : UInt8)
    (newBuffer newBufferSize indicatorWhenFinished : UInt32) :
    s.setSendBuffer taskID socketID newBuffer newBufferSize indicatorWhenFinished = (-1, s) ∨
    ∃ i : SocketID, i.val = socketID.toNat ∧ (s.socketDescs taskID i).isActive ≠ 0 ∧
      ((newBufferSize = 0 ∧ newBuffer = 0 ∧ indicatorWhenFinished = 0) ∧
        s.setSendBuffer taskID socketID newBuffer newBufferSize indicatorWhenFinished =
          (0, s.setDesc taskID i
            { s.socketDescs taskID i with
              sendBuffer := 0, sendBufferSize := 0, sendBufferIdentification := 0
              sendBufferFragmentOffset := 0, sendBufferIndicatorWhenFinished := 0 }) ∨
      ¬ (newBufferSize = 0 ∧ newBuffer = 0 ∧ indicatorWhenFinished = 0) ∧
        ∃ s', s.addRequest (s.socketDescs taskID i).udpPort = some s' ∧
          s.setSendBuffer taskID socketID newBuffer newBufferSize indicatorWhenFinished =
            (0, s'.setDesc taskID i
              { s.socketDescs taskID i with
                sendBuffer := newBuffer, sendBufferSize := newBufferSize, sendBufferIdentification := 0
                sendBufferFragmentOffset := 0, sendBufferIndicatorWhenFinished := indicatorWhenFinished })) := by
  unfold setSendBuffer
  split
  · rename_i hs
    dsimp only
    split
    · exact .inl rfl
    · split
      · exact .inl rfl
      · rename_i hact
        split
        · rename_i hzero
          exact .inr ⟨_, rfl, hact, .inl ⟨hzero, rfl⟩⟩
        · rename_i hzero
          cases hr : s.addRequest _ with
          | none => exact .inl rfl
          | some s' => exact .inr ⟨_, rfl, hact, .inr ⟨hzero, s', hr, rfl⟩⟩
  · exact .inl rfl

/-! ## Every reachable state -/

/-- A call for a task has a defined outcome, and it leaves the other tasks
alone. -/
theorem call_othersKept {s : Sockets T} (ho : Owned s.manager) {c : SocketCall T} {taskID : Fin T}
    (hc : c.caller = some taskID) : ∃ s', s.call c = some s' ∧ OthersKept taskID s.manager s'.manager := by
  cases c with
  | openSocket t udpPort =>
    cases hc
    exact ⟨_, rfl, othersKept_openSocket ho taskID udpPort⟩
  | closeSocket t socketID =>
    cases hc
    obtain ⟨m, hm, hkept⟩ := closeSocket_othersKept ho taskID socketID
    exact ⟨{ s with manager := m }, by rw [Sockets.call, hm]; rfl, hkept⟩
  | closeAllSocketsForTask t =>
    cases hc
    obtain ⟨m, hm, hkept⟩ := closeLoop_othersKept taskID (List.range MAX_NUM_SOCKETS_PER_TASK) ho
    exact ⟨{ s with manager := m }, by rw [Sockets.call, closeAllSocketsForTask, hm]; rfl, hkept⟩
  | setReceiveBuffer t socketID newBuffer newBufferSize =>
    cases hc
    refine ⟨_, rfl, ?_⟩
    rcases setReceiveBuffer_cases s.manager taskID socketID newBuffer newBufferSize with he | ⟨i, _, he⟩
    · simp only [he]
      exact .refl taskID _
    · simp only [he]
      exact othersKept_setDesc s.manager taskID i _
  | setSendBuffer t socketID newBuffer newBufferSize indicatorWhenFinished =>
    cases hc
    refine ⟨_, rfl, ?_⟩
    rcases setSendBuffer_cases s.manager taskID socketID newBuffer newBufferSize indicatorWhenFinished with
      he | ⟨i, _, _, ⟨_, he⟩ | ⟨_, m, hr, he⟩⟩
    · simp only [he]
      exact .refl taskID _
    · simp only [he]
      exact othersKept_setDesc s.manager taskID i _
    · obtain ⟨hsame, hdescs⟩ := sameSockets_addRequest hr
      simp only [he]
      refine .trans (m := m) ⟨fun t _ => ?_, fun p _ _ => ?_⟩ (othersKept_setDesc m taskID i _)
      · rw [hdescs]
      · rw [hsame.ports]
  | received | userWrite | getTransmissionRequestsIterator | goToNext | updateTop | removeTop
  | indicateAsFinished | remove | relocateToEnd => cases hc

/-- What holds between the descriptors and the ports, and what the next call
of a task can do to them. -/
structure SocketTables (s : Sockets T) : Prop where
  port : ∀ p, (s.manager.udpPortStates p).isActive ≠ 0 ↔
    ∃! ti : Fin T × SocketID, (s.manager.socketDescs ti.1 ti.2).isActive ≠ 0 ∧
      (s.manager.socketDescs ti.1 ti.2).udpPort.toNat = p.val
  names : ∀ p t i, (s.manager.socketDescs t i).isActive ≠ 0 →
    (s.manager.socketDescs t i).udpPort.toNat = p.val →
      (s.manager.udpPortStates p).taskID.toNat = t.val ∧ (s.manager.udpPortStates p).socketID.toNat = i.val
  others : ∀ (c : SocketCall T) taskID, c.caller = some taskID →
    ∃ s', s.call c = some s' ∧ OthersKept taskID s.manager s'.manager
  openSocket_fails : ∀ taskID udpPort, (s.manager.openSocket taskID udpPort).1 = -1 ↔
    NUM_UDP_PORTS ≤ udpPort.toNat ∨
    (∃ p, p.val = udpPort.toNat ∧ (s.manager.udpPortStates p).isActive ≠ 0) ∨
    ∀ i, (s.manager.socketDescs taskID i).isActive ≠ 0
  openSocket_refused : ∀ taskID udpPort, (s.manager.openSocket taskID udpPort).1 = -1 →
    (s.manager.openSocket taskID udpPort).2 = s.manager
  setReceiveBuffer_refused : ∀ taskID socketID newBuffer newBufferSize,
    (s.manager.setReceiveBuffer taskID socketID newBuffer newBufferSize).1 = -1 →
      (s.manager.setReceiveBuffer taskID socketID newBuffer newBufferSize).2 = s.manager
  setSendBuffer_refused : ∀ taskID socketID newBuffer newBufferSize indicatorWhenFinished,
    (s.manager.setSendBuffer taskID socketID newBuffer newBufferSize indicatorWhenFinished).1 = -1 →
      (s.manager.setSendBuffer taskID socketID newBuffer newBufferSize indicatorWhenFinished).2 = s.manager

theorem Owned.port_iff {s : SocketManager T} (ho : Owned s) (p : Fin NUM_UDP_PORTS) :
    (s.udpPortStates p).isActive ≠ 0 ↔
      ∃! ti : Fin T × SocketID, (s.socketDescs ti.1 ti.2).isActive ≠ 0 ∧
        (s.socketDescs ti.1 ti.2).udpPort.toNat = p.val := by
  constructor
  · intro hact
    obtain ⟨_, t, i, hindex, hdesc, hport⟩ := ho.port p hact
    refine ⟨(t, i), ⟨by rw [hdesc]; decide, hport⟩, fun ti hti => ?_⟩
    obtain ⟨_, ht, hi⟩ := ho.names hti.1 hti.2
    obtain ⟨_, ht', hi'⟩ := ho.names (p := p) (t := t) (i := i) (by rw [hdesc]; decide) hport
    exact Prod.ext (Fin.ext (ht.symm.trans ht')) (Fin.ext (hi.symm.trans hi'))
  · intro hex
    obtain ⟨ti, hti, _⟩ := hex
    exact (ho.names hti.1 hti.2).1

/-- The two tables agree in every reachable state, and no call of a task
reaches the sockets of another. -/
theorem socket_tables (hT : T ≤ 256) (s : Sockets T) (hs : (socketLTS T).Reachable s) : SocketTables s := by
  have ho := owned_of_reachable hT hs
  constructor
  case port => exact ho.port_iff
  case names => exact fun p t i hact hp => (ho.names hact hp).2
  case others => exact fun c taskID hc => call_othersKept ho hc
  case openSocket_fails => exact openSocket_fails_iff ho
  case openSocket_refused => exact fun taskID udpPort h => openSocket_refused h
  case setReceiveBuffer_refused =>
    intro taskID socketID newBuffer newBufferSize h
    rcases setReceiveBuffer_cases s.manager taskID socketID newBuffer newBufferSize with he | ⟨i, _, he⟩
    · rw [he]
    · rw [he] at h
      cases h
  case setSendBuffer_refused =>
    intro taskID socketID newBuffer newBufferSize indicatorWhenFinished h
    rcases setSendBuffer_cases s.manager taskID socketID newBuffer newBufferSize indicatorWhenFinished with
      he | ⟨i, _, _, ⟨_, he⟩ | ⟨_, m, _, he⟩⟩
    · rw [he]
    · rw [he] at h
      cases h
    · rw [he] at h
      cases h

/-- A task that has port 80 open. -/
theorem socket_tables_port80 : (port80.manager.udpPortStates ⟨80, by decide⟩).isActive = 1 ∧ SocketTables port80 :=
  ⟨by decide +kernel, socket_tables (by decide) port80 reachable_port80⟩

end CpuScheduler.L3
