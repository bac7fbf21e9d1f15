import CpuScheduler.L3Sockets.SocketTables
import CpuScheduler.L3Sockets.TransmissionQueue

/-!
# What becomes of a send buffer

A transmission request names a port and nothing else. Several requests can
name the same port, and a request stays in the list when its socket is given
another buffer, cancelled, closed, or when the port is opened again.

`Sends` is the socket layer with, for each socket, the `setSendBuffer` call
whose buffer it has (`current`; the calls are numbered). The calls of the
tasks come in any order between the rounds of the network task; a round runs
with task switching paused, so it is one step. `sends_kept`: an active socket
with a send buffer has a request, and a round only uses the buffer and the
indicator of the current call of an active socket.
-/
namespace CpuScheduler.L3

open Links Word L2 SocketManager

variable {T : Nat}

/-! ## What a round does with the send buffers -/

/-- What a round does through the send fields of a socket: the header of a
packet is read, the bytes of a packet are given to the sending loop, the call
is finished, which sets the indicator if there is one. -/
inductive Use where
  | header (address : UInt32)
  | data (address dataLen : UInt32)
  | finish (indicator : UInt32)
  deriving DecidableEq

def Use.isFinish : Use → Bool
  | .finish _ => true
  | _ => false

abbrev Uses (T : Nat) := List ((Fin T × SocketID) × Use)

/-- The uses close the call of the socket. -/
def Uses.finish (uses : Uses T) (ti : Fin T × SocketID) : Bool := uses.any fun u => u.1 == ti && u.2.isFinish

namespace SocketManager

/-- The header is read if the buffer can hold a packet.
mirrors socket_manager.cpp:324-331 -/
def getTopUses (s : SocketManager T) (udpPort : UInt16) : Uses T :=
  match s.boundSocket udpPort with
  | some (some (t, i)) =>
    let d := s.socketDescs t i
    if d.sendBufferSize.toNat < SEND_BUFFER_HEADER_SIZE + UDP_HEADER_SIZE then []
    else [((t, i), .header d.sendBuffer)]
  | _ => []

/-- The bytes the sending loop works on.
mirrors network_management_task.cpp:351-376 -/
def sendingUses (s : SocketManager T) (udpPort : UInt16) (packet : OutgoingUDPPacket) : Uses T :=
  match s.boundSocket udpPort with
  | some (some ti) => [(ti, .data packet.data packet.dataLen)]
  | _ => []

/-- mirrors socket_manager.cpp:262-270 -/
def removeTopUses (s : SocketManager T) (udpPort : UInt16) : Uses T :=
  match s.boundSocket udpPort with
  | some (some (t, i)) =>
    let d := s.socketDescs t i
    if d.sendBufferSize.toNat < 2 * (SEND_BUFFER_HEADER_SIZE + UDP_HEADER_SIZE) then []
    else [((t, i), .header d.sendBuffer)]
  | _ => []

/-- mirrors socket_manager.cpp:298-300 -/
def indicateAsFinishedUses (s : SocketManager T) (udpPort : UInt16) : Uses T :=
  match s.boundSocket udpPort with
  | some (some (t, i)) => [((t, i), .finish (s.socketDescs t i).sendBufferIndicatorWhenFinished)]
  | _ => []

end SocketManager

/-- The uses of one round, branch by branch as in `handleTransmissionRequest`. -/
def Sockets.roundUses (s : Sockets T) (outcome : SendOutcome) : Uses T :=
  match s.cursor with
  | none => []
  | some e =>
    let udpPort := s.manager.request e
    match s.manager.getTop s.mem udpPort with
    | none => []
    | some outgoingUDPPacket =>
      s.manager.getTopUses udpPort ++
        if outgoingUDPPacket.dataLen = 0 then s.manager.indicateAsFinishedUses udpPort
        else s.manager.sendingUses udpPort outgoingUDPPacket ++
          if outcome.fragmentOffset ≥ outgoingUDPPacket.dataLen then
            s.manager.removeTopUses udpPort ++
              match s.manager.removeTop outcome.mem udpPort with
              | some (true, manager) => manager.indicateAsFinishedUses udpPort
              | _ => []
          else []

/-! ## The system -/

/-- The arguments of a `setSendBuffer` call. -/
structure SendBufferCall where
  number : Nat
  buffer : UInt32
  bufferSize : UInt32
  indicator : UInt32
  deriving DecidableEq

/-- `current`: the call whose buffer the socket has; `calls`: how many calls
there were. -/
structure Sends (T : Nat) where
  sockets : Sockets T
  current : Fin T → SocketID → Option SendBufferCall
  calls : Nat

inductive SendsStep (T : Nat) where
  | call (c : SocketCall T)
  | handleTransmissionRequest (outcome : SendOutcome)

/-- The calls that are not part of a round. -/
def SocketCall.BetweenRounds : SocketCall T → Prop
  | .goToNext | .updateTop _ _ | .removeTop | .indicateAsFinished | .remove | .relocateToEnd => False
  | _ => True

namespace Sends

/-- The current calls after a call of a task: opening and closing a socket ends
the current call, and so does a cancelling call of `setSendBuffer`. -/
def currentAfter (s : Sends T) : SocketCall T → Fin T → SocketID → Option SendBufferCall
  | .openSocket taskID udpPort, t, i =>
    if t = taskID ∧ (s.sockets.manager.openSocket taskID udpPort).1 = i.val then none else s.current t i
  | .closeSocket taskID socketID, t, i =>
    if t = taskID ∧ i.val = socketID.toNat then none else s.current t i
  | .closeAllSocketsForTask taskID, t, i => if t = taskID then none else s.current t i
  | .setSendBuffer taskID socketID newBuffer newBufferSize indicatorWhenFinished, t, i =>
    if (t = taskID ∧ i.val = socketID.toNat) ∧
        (s.sockets.manager.setSendBuffer taskID socketID newBuffer newBufferSize indicatorWhenFinished).1 = 0 then
      if newBufferSize = 0 ∧ newBuffer = 0 ∧ indicatorWhenFinished = 0 then none
      else some ⟨s.calls, newBuffer, newBufferSize, indicatorWhenFinished⟩
    else s.current t i
  | _, t, i => s.current t i

def callsAfter (s : Sends T) : SocketCall T → Nat
  | .setSendBuffer .. => s.calls + 1
  | _ => s.calls

end Sends

def sendsStep (s : Sends T) : SendsStep T → Sends T → Prop
  | .call c, t => c.BetweenRounds ∧ s.sockets.call c = some t.sockets ∧ t.current = s.currentAfter c ∧
      t.calls = s.callsAfter c
  | .handleTransmissionRequest outcome, t => s.sockets.handleTransmissionRequest outcome = some t.sockets ∧
      t.current = (fun t i => if (s.sockets.roundUses outcome).finish (t, i) then none else s.current t i) ∧
      t.calls = s.calls

/-- Any order of calls and rounds, on a newly constructed manager. -/
def sendsLTS (T : Nat) : LTS (Sends T) (SendsStep T) where
  init s := Started s.sockets ∧ s.current = (fun _ _ => none) ∧ s.calls = 0
  step := sendsStep

/-! ## The invariant -/

/-- The send fields of a socket are those of its current call; `removeTop` has
moved the buffer on by some bytes. -/
def Holds (d : SocketDesc) : Option SendBufferCall → Prop
  | none => d.sendBufferSize = 0 ∧ d.sendBufferIndicatorWhenFinished = 0
  | some call => d.sendBufferIndicatorWhenFinished = call.indicator ∧
      ∃ sent, d.sendBuffer = call.buffer + UInt32.ofNat sent ∧ d.sendBufferSize.toNat + sent = call.bufferSize.toNat

/-- The transmission list contains a request for the port. -/
def Requested (s : SocketManager T) (udpPort : UInt16) : Prop :=
  ∃ xs, Queue s xs ∧ ∃ e ∈ xs, s.request e = udpPort

theorem Requested.kept {s t : SocketManager T} {udpPort : UInt16} (h : Requested s udpPort)
    (hr : RequestsKept s t) : Requested t udpPort := by
  obtain ⟨xs, hq, e, he, hreq⟩ := h
  obtain ⟨xs', hq', hsub⟩ := hr xs hq
  exact ⟨xs', hq', e, (hsub e he).1, (hsub e he).2.trans hreq⟩

/-- What is kept for one socket. -/
structure SocketSends (s : SocketManager T) (current : Option SendBufferCall) (d : SocketDesc) : Prop where
  holds : d.isActive ≠ 0 → Holds d current
  requested : d.isActive ≠ 0 → d.sendBufferSize ≠ 0 → Requested s d.udpPort
  closed : d.isActive = 0 → current = none

structure SendsInv (s : Sends T) : Prop where
  listed : Listed s.sockets
  owned : Owned s.sockets.manager
  socket : ∀ t i, SocketSends s.sockets.manager (s.current t i) (s.sockets.manager.socketDescs t i)
  numbered : ∀ t i call, s.current t i = some call → call.number < s.calls

/-- The fields that only sending reads and writes, and the binding. -/
structure SameSend (d d' : SocketDesc) : Prop where
  isActive : d'.isActive = d.isActive
  udpPort : d'.udpPort = d.udpPort
  sendBuffer : d'.sendBuffer = d.sendBuffer
  sendBufferSize : d'.sendBufferSize = d.sendBufferSize
  indicator : d'.sendBufferIndicatorWhenFinished = d.sendBufferIndicatorWhenFinished

theorem SameSend.refl (d : SocketDesc) : SameSend d d := ⟨rfl, rfl, rfl, rfl, rfl⟩

theorem SameSend.holds {d d' : SocketDesc} (h : SameSend d d') {current : Option SendBufferCall}
    (hd : Holds d current) : Holds d' current := by
  cases current with
  | none => exact ⟨h.sendBufferSize.trans hd.1, h.indicator.trans hd.2⟩
  | some call =>
    obtain ⟨hind, sent, hbuffer, hsize⟩ := hd
    refine ⟨h.indicator.trans hind, sent, h.sendBuffer.trans hbuffer, ?_⟩
    rw [h.sendBufferSize]
    exact hsize

/-- A socket whose send fields stay, while no request is lost. -/
theorem SocketSends.same {s s' : SocketManager T} {current : Option SendBufferCall} {d d' : SocketDesc}
    (h : SocketSends s current d) (hr : RequestsKept s s') (hd : SameSend d d') : SocketSends s' current d' where
  holds hact := hd.holds (h.holds (hd.isActive ▸ hact))
  requested hact hsize := by
    rw [hd.udpPort]
    exact (h.requested (hd.isActive ▸ hact) (hd.sendBufferSize ▸ hsize)).kept hr
  closed hact := h.closed (hd.isActive ▸ hact)

/-- A socket that has no send buffer. -/
theorem SocketSends.empty {s : SocketManager T} {d : SocketDesc} (h0 : d.sendBufferSize = 0)
    (hind : d.sendBufferIndicatorWhenFinished = 0) : SocketSends s none d where
  holds _ := ⟨h0, hind⟩
  requested _ hsize := absurd h0 hsize
  closed _ := rfl

/-- A closed socket. -/
theorem SocketSends.ofClosed {s : SocketManager T} {d : SocketDesc} (h0 : d.isActive = 0) :
    SocketSends s none d where
  holds hact := absurd h0 hact
  requested hact _ := absurd h0 hact
  closed _ := rfl

/-! ## Calls of the tasks -/

def SameSends (s s' : SocketManager T) : Prop := ∀ t i, SameSend (s.socketDescs t i) (s'.socketDescs t i)

theorem SameSends.refl (s : SocketManager T) : SameSends s s := fun _ _ => .refl _

theorem sameSends_setDesc {s : SocketManager T} {t : Fin T} {i : SocketID} {d : SocketDesc}
    (h : SameSend (s.socketDescs t i) d) : SameSends s (s.setDesc t i d) := by
  intro t' i'
  by_cases he : (t', i') = (t, i)
  · cases he
    rw [socketDescs_setDesc]
    exact h
  · rw [socketDescs_setDesc_of_ne s d he]
    exact .refl _

theorem sameSends_setReceiveBuffer (s : SocketManager T) (taskID : Fin T) (socketID : UInt8)
    (newBuffer newBufferSize : UInt32) :
    SameSends s (s.setReceiveBuffer taskID socketID newBuffer newBufferSize).2 := by
  unfold setReceiveBuffer
  split
  · dsimp only
    split
    · exact .refl s
    · split
      · exact .refl s
      · exact sameSends_setDesc ⟨rfl, rfl, rfl, rfl, rfl⟩
  · exact .refl s

theorem sameSends_received {s : SocketManager T} {mem : Mem} {behind : Nat → UDPPortState} {packet : IPv4Packet}
    {fragments : List IPv4Packet} {r : SocketManager T × Mem}
    (h : (s.handleReceivedPacket mem behind packet fragments).val = some r) : SameSends s r.1 := by
  unfold handleReceivedPacket at h
  simp only [Traced.val_ite, Traced.val_pure, Traced.val_bind] at h
  split at h
  · cases h
    exact .refl s
  · split at h
    · cases h
      exact .refl s
    · split at h
      · cases h
        exact .refl s
      · split at h
        · cases h
        · cases h
          unfold deliver
          dsimp only
          split
          · exact .refl s
          · split
            · exact .refl s
            · split
              · exact .refl s
              · exact sameSends_setDesc ⟨rfl, rfl, rfl, rfl, rfl⟩

section Calls
variable {s : Sends T}

theorem sends_openSocket (h : SendsInv s) (taskID : Fin T) (udpPort : UInt16) (t : Fin T) (i : SocketID) :
    SocketSends (s.sockets.manager.openSocket taskID udpPort).2 (s.currentAfter (.openSocket taskID udpPort) t i)
      ((s.sockets.manager.openSocket taskID udpPort).2.socketDescs t i) := by
  have hr := requestsKept_of_sameQueue (sameQueue_openSocket s.sockets.manager taskID udpPort)
  simp only [Sends.currentAfter]
  rcases openSocket_cases s.sockets.manager taskID udpPort with ⟨he, _⟩ | ⟨p, j, d, _, _, _, hd, he⟩
  · rw [he] at hr ⊢
    have hneg : ¬ (t = taskID ∧ (-1 : Int) = i.val) := fun hi => by omega
    rw [if_neg hneg]
    exact (h.socket t i).same hr (.refl _)
  · rw [he] at hr ⊢
    by_cases hti : (t, i) = (taskID, j)
    · cases hti
      rw [if_pos ⟨rfl, rfl⟩]
      dsimp only [setPortState]
      rw [socketDescs_setDesc]
      exact .empty hd.2.2.1 hd.2.2.2
    · have hneg : ¬ (t = taskID ∧ (j.val : Int) = i.val) := by
        intro hi
        exact hti (Prod.ext hi.1 (Fin.ext (Int.ofNat.inj hi.2).symm))
      rw [if_neg hneg]
      refine (h.socket t i).same hr ?_
      dsimp only [setPortState]
      rw [socketDescs_setDesc_of_ne _ _ hti]
      exact .refl _

theorem sends_closeSocket (h : SendsInv s) {taskID : Fin T} {socketID : UInt8} {m : SocketManager T}
    (hm : s.sockets.manager.closeSocket taskID socketID = some m) (t : Fin T) (i : SocketID) :
    SocketSends m (s.currentAfter (.closeSocket taskID socketID) t i) (m.socketDescs t i) := by
  have hr := requestsKept_of_sameQueue (sameQueue_closeSocket hm)
  simp only [Sends.currentAfter]
  rcases closeSocket_cases hm with ⟨rfl, hnot⟩ | ⟨j, p, hj, hact, hp, rfl⟩
  · split
    · rename_i hti
      obtain ⟨rfl, hi⟩ := hti
      have hzero : (s.sockets.manager.socketDescs t i).isActive = 0 := by
        by_contra hne
        exact hnot i hi (h.owned.desc t i hne).1
      exact .ofClosed hzero
    · exact (h.socket t i).same hr (.refl _)
  · by_cases hti : (t, i) = (taskID, j)
    · cases hti
      rw [if_pos ⟨rfl, hj⟩, socketDescs_setDesc]
      exact .ofClosed rfl
    · have hneg : ¬ (t = taskID ∧ i.val = socketID.toNat) := by
        intro hi
        exact hti (Prod.ext hi.1 (Fin.ext (hi.2.trans hj.symm)))
      rw [if_neg hneg]
      refine (h.socket t i).same hr ?_
      rw [socketDescs_setDesc_of_ne _ _ hti]
      exact .refl _

theorem sends_closeAllSocketsForTask (h : SendsInv s) {taskID : Fin T} {m : SocketManager T}
    (hm : s.sockets.manager.closeAllSocketsForTask taskID = some m) (t : Fin T) (i : SocketID) :
    SocketSends m (s.currentAfter (.closeAllSocketsForTask taskID) t i) (m.socketDescs t i) := by
  have hr := requestsKept_of_sameQueue (sameQueue_closeLoop hm)
  obtain ⟨hclosed, hother⟩ := closeAllSocketsForTask_descs h.owned hm t i
  simp only [Sends.currentAfter]
  split
  · rename_i ht
    exact .ofClosed (hclosed ht)
  · rename_i ht
    rw [hother ht]
    exact (h.socket t i).same hr (.refl _)

theorem sends_setSendBuffer (h : SendsInv s) (taskID : Fin T) (socketID : UInt8)
    (newBuffer newBufferSize indicatorWhenFinished : UInt32) (t : Fin T) (i : SocketID) :
    let m := (s.sockets.manager.setSendBuffer taskID socketID newBuffer newBufferSize indicatorWhenFinished).2
    SocketSends m
      (s.currentAfter (.setSendBuffer taskID socketID newBuffer newBufferSize indicatorWhenFinished) t i)
      (m.socketDescs t i) := by
  obtain ⟨xs, hq, _⟩ := h.listed
  have hr : RequestsKept s.sockets.manager
      (s.sockets.manager.setSendBuffer taskID socketID newBuffer newBufferSize indicatorWhenFinished).2 :=
    fun ys hys => setSendBuffer_queue hys taskID socketID newBuffer newBufferSize indicatorWhenFinished
  dsimp only
  simp only [Sends.currentAfter]
  rcases setSendBuffer_cases s.sockets.manager taskID socketID newBuffer newBufferSize indicatorWhenFinished with
    he | ⟨j, hj, hact, ⟨hzero, he⟩ | ⟨hzero, m, hadd, he⟩⟩
  · rw [he] at hr ⊢
    rw [if_neg (fun hi => by cases hi.2)]
    exact (h.socket t i).same hr (.refl _)
  · rw [he] at hr ⊢
    by_cases hti : (t, i) = (taskID, j)
    · cases hti
      rw [if_pos ⟨⟨rfl, hj⟩, rfl⟩, if_pos hzero, socketDescs_setDesc]
      exact .empty rfl rfl
    · have hneg : ¬ ((t = taskID ∧ i.val = socketID.toNat) ∧ (0 : Int) = 0) := by
        intro hi
        exact hti (Prod.ext hi.1.1 (Fin.ext (hi.1.2.trans hj.symm)))
      rw [if_neg hneg, socketDescs_setDesc_of_ne _ _ hti]
      exact (h.socket t i).same hr (.refl _)
  · obtain ⟨e, _, hq', hreq, hsame⟩ := addRequest_queue hq hadd
    rw [he] at hr ⊢
    by_cases hti : (t, i) = (taskID, j)
    · cases hti
      rw [if_pos ⟨⟨rfl, hj⟩, rfl⟩, if_neg hzero, socketDescs_setDesc]
      refine ⟨fun _ => ⟨rfl, 0, by simp, by simp⟩, fun _ _ => ?_, fun h0 => absurd h0 hact⟩
      refine ⟨e :: xs, (sameQueue_setDesc m _ _ _).queue hq', e, by simp, ?_⟩
      exact (congrFun hreq e).trans (Function.update_self ..)
    · have hneg : ¬ ((t = taskID ∧ i.val = socketID.toNat) ∧ (0 : Int) = 0) := by
        intro hi
        exact hti (Prod.ext hi.1.1 (Fin.ext (hi.1.2.trans hj.symm)))
      rw [if_neg hneg, socketDescs_setDesc_of_ne _ _ hti, hsame.socketDescs]
      exact (h.socket t i).same hr (.refl _)

theorem sends_call (h : SendsInv s) {c : SocketCall T} {sockets : Sockets T} (hc : c.BetweenRounds)
    (hstep : s.sockets.call c = some sockets) (t : Fin T) (i : SocketID) :
    SocketSends sockets.manager (s.currentAfter c t i) (sockets.manager.socketDescs t i) := by
  cases c with
  | openSocket taskID udpPort =>
    cases hstep
    exact sends_openSocket h taskID udpPort t i
  | closeSocket taskID socketID =>
    obtain ⟨m, hm, rfl⟩ := Option.map_eq_some_iff.mp hstep
    exact sends_closeSocket h hm t i
  | closeAllSocketsForTask taskID =>
    obtain ⟨m, hm, rfl⟩ := Option.map_eq_some_iff.mp hstep
    exact sends_closeAllSocketsForTask h hm t i
  | setReceiveBuffer taskID socketID newBuffer newBufferSize =>
    cases hstep
    exact (h.socket t i).same (requestsKept_of_sameQueue (sameQueue_setReceiveBuffer ..))
      (sameSends_setReceiveBuffer _ _ _ _ _ t i)
  | setSendBuffer taskID socketID newBuffer newBufferSize indicatorWhenFinished =>
    cases hstep
    exact sends_setSendBuffer h taskID socketID newBuffer newBufferSize indicatorWhenFinished t i
  | received behind packet fragments =>
    obtain ⟨r, hr, rfl⟩ := Option.map_eq_some_iff.mp hstep
    exact (h.socket t i).same (requestsKept_of_sameQueue (sameQueue_received hr)) (sameSends_received hr t i)
  | userWrite mem =>
    cases hstep
    exact h.socket t i
  | getTransmissionRequestsIterator =>
    cases hstep
    exact h.socket t i
  | goToNext | updateTop | removeTop | indicateAsFinished | remove | relocateToEnd => cases hc

/-- A call keeps the current call of a socket, ends it, or is the new one. -/
theorem currentAfter_cases (s : Sends T) (c : SocketCall T) (t : Fin T) (i : SocketID) :
    s.currentAfter c t i = none ∨ s.currentAfter c t i = s.current t i ∨
      ∃ call, s.currentAfter c t i = some call ∧ call.number = s.calls ∧ s.callsAfter c = s.calls + 1 := by
  cases c with
  | openSocket | closeSocket | closeAllSocketsForTask =>
    simp only [Sends.currentAfter]
    split
    · exact .inl rfl
    · exact .inr (.inl rfl)
  | setSendBuffer =>
    simp only [Sends.currentAfter]
    split
    · split
      · exact .inl rfl
      · exact .inr (.inr ⟨_, rfl, rfl, rfl⟩)
    · exact .inr (.inl rfl)
  | setReceiveBuffer | received | userWrite | getTransmissionRequestsIterator | goToNext | updateTop | removeTop
  | indicateAsFinished | remove | relocateToEnd => exact .inr (.inl rfl)

theorem calls_le_callsAfter (s : Sends T) (c : SocketCall T) : s.calls ≤ s.callsAfter c := by
  cases c <;> simp [Sends.callsAfter]

end Calls

/-! ## Rounds -/

theorem active_of_bound {s : SocketManager T} (ho : Owned s) {udpPort : UInt16} {t : Fin T} {i : SocketID}
    (h : s.boundSocket udpPort = some (some (t, i))) : (s.socketDescs t i).isActive ≠ 0 := by
  unfold boundSocket at h
  split at h
  · dsimp only at h
    split at h
    · cases h
    · rename_i hact
      obtain ⟨_, t', i', hindex, hdesc, _⟩ := ho.port _ hact
      rw [hindex] at h
      cases h
      rw [hdesc]
      decide
  · cases h

/-- A finished request: its socket has no send buffer any more, and only the
requests for its port become fewer. -/
theorem finish_effect {s s' : Sockets T} {e : ReqElem} (hl : Listed s) (he : s.cursor = some e)
    (h : s.finish = some s') :
    (∀ t i, s.manager.boundSocket (s.manager.request e) = some (some (t, i)) →
      (s'.manager.socketDescs t i).sendBufferSize = 0 ∧
        (s'.manager.socketDescs t i).sendBufferIndicatorWhenFinished = 0) ∧
    (∀ t i, s.manager.boundSocket (s.manager.request e) ≠ some (some (t, i)) →
      s'.manager.socketDescs t i = s.manager.socketDescs t i) ∧
    ∀ udpPort, udpPort ≠ s.manager.request e → Requested s.manager udpPort → Requested s'.manager udpPort := by
  obtain ⟨middle, h1, h2⟩ := Option.bind_eq_some_iff.mp h
  have hl1 := call_listed hl h1
  simp only [Sockets.call, he, Option.bind_some] at h1
  obtain ⟨⟨m, mem⟩, hr, rfl⟩ := Option.map_eq_some_iff.mp h1
  have hq := (onlyBound_indicateAsFinished hr).sameQueue
  simp only [Sockets.call] at h2
  cases h2
  obtain ⟨as, bs, hqueue⟩ := hl1.split (rfl : _ = some e)
  obtain ⟨hqueue', _, hreq, htables⟩ := remove_queue hqueue
  dsimp only at hqueue' hreq htables hqueue ⊢
  rw [htables.socketDescs]
  refine ⟨fun t i hb => ?_, fun t i hb => ?_, fun udpPort hne hrequested => ?_⟩
  · rcases indicateAsFinished_cases hr with ⟨hnone, _, _⟩ | ⟨t', i', d, hsome, rfl, hind, _, hsize⟩
    · rw [hnone] at hb
      cases hb
    · rw [hsome] at hb
      cases hb
      rw [socketDescs_setDesc]
      exact ⟨hsize, hind⟩
  · rcases indicateAsFinished_cases hr with ⟨_, rfl, _⟩ | ⟨t', i', d, hsome, rfl, _⟩
    · rfl
    · refine socketDescs_setDesc_of_ne _ _ fun heq => hb ?_
      rw [hsome, heq]
  · obtain ⟨xs, hxs, x, hx, hport⟩ := hrequested.kept (requestsKept_of_sameQueue hq)
    cases hxs.unique hqueue
    have hxe : x ≠ e := by
      intro hxe
      subst hxe
      rw [hq.request] at hport
      exact hne hport.symm
    exact ⟨as ++ bs, hqueue', x, by simpa [hxe] using hx, (congrFun hreq x).trans hport⟩

/-- A round that ends with a finished request. -/
theorem sends_finish {s : Sends T} {s' : Sockets T} {e : ReqElem} (h : SendsInv s) {mem : Mem}
    (he : s.sockets.cursor = some e) (hstep : Sockets.finish { s.sockets with mem := mem } = some s')
    {uses : Uses T} (huses : ∀ ti, uses.finish ti = true ↔
      s.sockets.manager.boundSocket (s.sockets.manager.request e) = some (some ti)) (t : Fin T) (i : SocketID) :
    SocketSends s'.manager (if uses.finish (t, i) then none else s.current t i) (s'.manager.socketDescs t i) := by
  have hl : Listed { s.sockets with mem := mem } := h.listed.of_sameQueue (.refl _) rfl
  obtain ⟨hdone, hother, hrequests⟩ := finish_effect hl he hstep
  split
  · rename_i hf
    obtain ⟨h0, hind⟩ := hdone t i ((huses _).mp hf)
    exact .empty h0 hind
  · rename_i hf
    have hb : s.sockets.manager.boundSocket (s.sockets.manager.request e) ≠ some (some (t, i)) :=
      fun hb => hf ((huses _).mpr hb)
    rw [hother t i hb]
    have hsocket := h.socket t i
    refine ⟨hsocket.holds, fun hact hsize => hrequests _ (fun hport => hb ?_) (hsocket.requested hact hsize),
      hsocket.closed⟩
    -- the port of an active socket leads to it
    rw [← hport]
    exact boundSocket_of_owned h.owned hact

theorem removeTop_cases {s m : SocketManager T} {mem : Mem} {udpPort : UInt16} {done : Bool}
    (h : s.removeTop mem udpPort = some (done, m)) :
    done = true ∧ m = s ∨ done = false ∧ ∃ t i used, s.boundSocket udpPort = some (some (t, i)) ∧
      used ≤ (s.socketDescs t i).sendBufferSize.toNat ∧
      m = s.setDesc t i { s.socketDescs t i with
        sendBuffer := (s.socketDescs t i).sendBuffer + UInt32.ofNat used
        sendBufferSize := (s.socketDescs t i).sendBufferSize - UInt32.ofNat used
        sendBufferIdentification := 0, sendBufferFragmentOffset := 0 } := by
  unfold removeTop at h
  obtain ⟨o, ho, h⟩ := Option.map_eq_some_iff.mp h
  cases o with
  | none =>
    cases h
    exact .inl ⟨rfl, rfl⟩
  | some ti =>
    dsimp only at h
    split at h
    · cases h
      exact .inl ⟨rfl, rfl⟩
    · split at h
      · cases h
        exact .inl ⟨rfl, rfl⟩
      · rename_i hlong
        cases h
        refine .inr ⟨rfl, ti.1, ti.2, _, ho, ?_, rfl⟩
        simp only [SEND_BUFFER_HEADER_SIZE, UDP_HEADER_SIZE] at hlong ⊢
        omega

/-- The buffer is moved on to the next packet of the same call. -/
theorem Holds.advance {d : SocketDesc} {current : Option SendBufferCall} {used : Nat} (h : Holds d current)
    (hused : used ≤ d.sendBufferSize.toNat) :
    Holds { d with sendBuffer := d.sendBuffer + UInt32.ofNat used
                   sendBufferSize := d.sendBufferSize - UInt32.ofNat used
                   sendBufferIdentification := 0, sendBufferFragmentOffset := 0 } current := by
  have hword : (UInt32.ofNat used).toNat = used := by
    have := d.sendBufferSize.toNat_lt
    rw [UInt32.toNat_ofNat']
    omega
  cases current with
  | none =>
    obtain ⟨h0, hind⟩ := h
    have hz : used = 0 := by
      rw [h0] at hused
      simpa using hused
    subst hz
    exact ⟨by simp [h0], hind⟩
  | some call =>
    obtain ⟨hind, sent, hbuffer, hsize⟩ := h
    refine ⟨hind, sent + used, ?_, ?_⟩
    · simp only [hbuffer, UInt32.ofNat_add, UInt32.add_assoc]
    · dsimp only
      rw [UInt32.toNat_sub_of_le _ _ (by rw [UInt32.le_iff_toNat_le, hword]; exact hused), hword]
      omega

theorem sends_advance {s : Sends T} {m : SocketManager T} (h : SendsInv s) {mem : Mem} {udpPort : UInt16}
    (hr : s.sockets.manager.removeTop mem udpPort = some (false, m)) (t : Fin T) (i : SocketID) :
    SocketSends m (s.current t i) (m.socketDescs t i) := by
  have hkept := requestsKept_of_sameQueue (onlyBound_removeTop hr).sameQueue
  have hsocket := h.socket t i
  rcases removeTop_cases hr with ⟨hd, _⟩ | ⟨_, t', i', used, _, hused, rfl⟩
  · cases hd
  · by_cases he : (t, i) = (t', i')
    · cases he
      rw [socketDescs_setDesc]
      refine ⟨fun hact => (hsocket.holds hact).advance hused, fun hact hsize => ?_, hsocket.closed⟩
      refine (hsocket.requested hact fun h0 => hsize ?_).kept hkept
      rw [h0] at hused
      have hz : used = 0 := by simpa using hused
      simp [h0, hz]
    · rw [socketDescs_setDesc_of_ne _ _ he]
      exact hsocket.same hkept (.refl _)

theorem sameSends_updateTop {s s' : SocketManager T} {udpPort : UInt16} {newFragmentOffset : UInt32}
    {newIdentification : UInt16} (h : s.updateTop udpPort newFragmentOffset newIdentification = some s') :
    SameSends s s' := by
  unfold updateTop at h
  obtain ⟨o, _, rfl⟩ := Option.map_eq_some_iff.mp h
  cases o with
  | none => exact .refl s
  | some ti =>
    dsimp only
    split
    · exact .refl s
    · exact sameSends_setDesc ⟨rfl, rfl, rfl, rfl, rfl⟩

/-! ## The uses of a round -/

theorem finish_nil (ti : Fin T × SocketID) : Uses.finish [] ti = false := rfl

theorem finish_append (us vs : Uses T) (ti : Fin T × SocketID) :
    Uses.finish (us ++ vs) ti = (us.finish ti || vs.finish ti) := List.any_append

theorem finish_getTopUses (s : SocketManager T) (udpPort : UInt16) (ti : Fin T × SocketID) :
    (s.getTopUses udpPort).finish ti = false := by
  unfold getTopUses
  split
  · dsimp only
    split
    · rfl
    · simp [Uses.finish, Use.isFinish]
  · rfl

theorem finish_sendingUses (s : SocketManager T) (udpPort : UInt16) (packet : OutgoingUDPPacket)
    (ti : Fin T × SocketID) : (s.sendingUses udpPort packet).finish ti = false := by
  unfold sendingUses
  split
  · simp [Uses.finish, Use.isFinish]
  · rfl

theorem finish_removeTopUses (s : SocketManager T) (udpPort : UInt16) (ti : Fin T × SocketID) :
    (s.removeTopUses udpPort).finish ti = false := by
  unfold removeTopUses
  split
  · dsimp only
    split
    · rfl
    · simp [Uses.finish, Use.isFinish]
  · rfl

theorem finish_indicateAsFinishedUses (s : SocketManager T) (udpPort : UInt16) (ti : Fin T × SocketID) :
    (s.indicateAsFinishedUses udpPort).finish ti = true ↔ s.boundSocket udpPort = some (some ti) := by
  unfold indicateAsFinishedUses
  split
  · rename_i t i hb
    simp [Uses.finish, Use.isFinish, hb]
  · rename_i hb
    constructor
    · intro h
      cases h
    · intro h
      exact absurd h (hb ti.1 ti.2)

theorem sends_round {s : Sends T} {s' : Sockets T} {outcome : SendOutcome} (h : SendsInv s)
    (hstep : s.sockets.handleTransmissionRequest outcome = some s') (t : Fin T) (i : SocketID) :
    SocketSends s'.manager (if (s.sockets.roundUses outcome).finish (t, i) then none else s.current t i)
      (s'.manager.socketDescs t i) := by
  have hsocket := h.socket t i
  unfold Sockets.roundUses
  obtain ⟨e, he, hstep⟩ := Option.bind_eq_some_iff.mp hstep
  obtain ⟨packet, hp, hstep⟩ := Option.bind_eq_some_iff.mp hstep
  simp only [he, hp]
  dsimp only at hstep
  split at hstep
  · rename_i hdata
    refine sends_finish h he hstep (fun ti => ?_) t i
    rw [if_pos hdata, finish_append, finish_getTopUses, Bool.false_or]
    exact finish_indicateAsFinishedUses _ _ ti
  · rename_i hdata
    rw [if_neg hdata]
    split at hstep
    · rename_i hsent
      obtain ⟨⟨done, m⟩, hr, hstep⟩ := Option.bind_eq_some_iff.mp hstep
      dsimp only at hr hstep
      split at hstep
      · rename_i hdone
        subst hdone
        rcases removeTop_cases hr with ⟨_, rfl⟩ | ⟨hfalse, _⟩
        · refine sends_finish h he hstep (fun ti => ?_) t i
          rw [if_pos hsent, hr]
          simp only [finish_append, finish_getTopUses, finish_sendingUses, finish_removeTopUses, Bool.false_or]
          exact finish_indicateAsFinishedUses _ _ ti
        · cases hfalse
      · rename_i hdone
        have hdone : done = false := by simpa using hdone
        subst hdone
        rw [if_pos hsent, hr]
        simp only [finish_append, finish_getTopUses, finish_sendingUses, finish_removeTopUses, Bool.false_or,
          finish_nil]
        obtain ⟨r, hrelocated, rfl⟩ := Option.map_eq_some_iff.mp hstep
        have hl : Listed { s.sockets with manager := m, mem := outcome.mem } :=
          h.listed.of_sameQueue (onlyBound_removeTop hr).sameQueue rfl
        obtain ⟨htables, hkept⟩ := relocateToEnd_kept hl hrelocated
        dsimp only
        rw [htables.socketDescs]
        exact (sends_advance h hr t i).same hkept (.refl _)
    · rename_i hsent
      have hupdated {middle : Sockets T} (hu : Sockets.call { s.sockets with mem := outcome.mem }
          (.updateTop outcome.fragmentOffset outcome.identification) = some middle) :
          SocketSends middle.manager (s.current t i) (middle.manager.socketDescs t i) := by
        obtain ⟨_, _, hu⟩ := Option.bind_eq_some_iff.mp hu
        obtain ⟨m, hm, rfl⟩ := Option.map_eq_some_iff.mp hu
        exact hsocket.same (requestsKept_of_sameQueue (onlyBound_updateTop hm).sameQueue) (sameSends_updateTop hm t i)
      rw [if_neg hsent]
      simp only [finish_append, finish_getTopUses, finish_sendingUses, Bool.false_or, finish_nil]
      split at hstep
      · obtain ⟨middle, h1, h2⟩ := Option.bind_eq_some_iff.mp hstep
        cases h2
        have hmiddle := hupdated h1
        exact hmiddle
      · exact hupdated hstep

/-- What a use is, in terms of the descriptor it goes through. -/
def Use.From (d : SocketDesc) : Use → Prop
  | .header address => address = d.sendBuffer ∧ SEND_BUFFER_HEADER_SIZE ≤ d.sendBufferSize.toNat
  | .data address dataLen => address = d.sendBuffer + UInt32.ofNat SEND_BUFFER_HEADER_SIZE ∧
      SEND_BUFFER_HEADER_SIZE + dataLen.toNat ≤ d.sendBufferSize.toNat
  | .finish indicator => indicator = d.sendBufferIndicatorWhenFinished

/-- The packet `getTop` finds is inside the send buffer. -/
theorem getTop_inside {s : SocketManager T} {mem : Mem} {udpPort : UInt16} {packet : OutgoingUDPPacket} {t : Fin T}
    {i : SocketID} (h : s.getTop mem udpPort = some packet) (hb : s.boundSocket udpPort = some (some (t, i)))
    (hdata : packet.dataLen ≠ 0) : Use.From (s.socketDescs t i) (.data packet.data packet.dataLen) := by
  unfold getTop at h
  rw [hb] at h
  simp only [Option.map_some, Option.some.injEq] at h
  split at h
  · subst h
    exact absurd rfl hdata
  · split at h
    · subst h
      exact absurd rfl hdata
    · rename_i hlong
      subst h
      refine ⟨rfl, ?_⟩
      have := (s.socketDescs t i).sendBufferSize.toNat_lt
      simp only [UInt32.toNat_ofNat', SEND_BUFFER_HEADER_SIZE, UDP_HEADER_SIZE] at hlong ⊢
      omega

theorem indicateAsFinishedUses_from {s : SocketManager T} {udpPort : UInt16} {ti : Fin T × SocketID} {use : Use}
    (hu : (ti, use) ∈ s.indicateAsFinishedUses udpPort) :
    s.boundSocket udpPort = some (some ti) ∧ use.From (s.socketDescs ti.1 ti.2) := by
  unfold indicateAsFinishedUses at hu
  split at hu
  · rename_i hb
    cases List.mem_singleton.mp hu
    exact ⟨hb, rfl⟩
  · cases hu

/-- A round uses the send fields of the socket its request is bound to. -/
theorem roundUses_from {s : Sockets T} {outcome : SendOutcome} {ti : Fin T × SocketID} {use : Use}
    (hu : (ti, use) ∈ s.roundUses outcome) :
    (∃ udpPort, s.manager.boundSocket udpPort = some (some ti)) ∧
      use.From (s.manager.socketDescs ti.1 ti.2) := by
  unfold Sockets.roundUses at hu
  split at hu
  · cases hu
  · rename_i e he
    dsimp only at hu
    split at hu
    · cases hu
    · rename_i packet hp
      rcases List.mem_append.mp hu with hu | hu
      · unfold getTopUses at hu
        split at hu
        · rename_i hb
          dsimp only at hu
          split at hu
          · cases hu
          · rename_i hsize
            cases List.mem_singleton.mp hu
            exact ⟨⟨_, hb⟩, rfl, by dsimp only; omega⟩
        · cases hu
      · split at hu
        · obtain ⟨hb, hfrom⟩ := indicateAsFinishedUses_from hu
          exact ⟨⟨_, hb⟩, hfrom⟩
        · rename_i hdata
          rcases List.mem_append.mp hu with hu | hu
          · unfold sendingUses at hu
            split at hu
            · rename_i hb
              cases List.mem_singleton.mp hu
              exact ⟨⟨_, hb⟩, getTop_inside hp hb hdata⟩
            · cases hu
          · split at hu
            · rcases List.mem_append.mp hu with hu | hu
              · unfold removeTopUses at hu
                split at hu
                · rename_i hb
                  dsimp only at hu
                  split at hu
                  · cases hu
                  · rename_i hsize
                    cases List.mem_singleton.mp hu
                    exact ⟨⟨_, hb⟩, rfl, by dsimp only; omega⟩
                · cases hu
              · split at hu
                · rename_i m hr
                  rcases removeTop_cases hr with ⟨_, rfl⟩ | ⟨hfalse, _⟩
                  · obtain ⟨hb, hfrom⟩ := indicateAsFinishedUses_from hu
                    exact ⟨⟨_, hb⟩, hfrom⟩
                  · cases hfalse
                · cases hu
            · cases hu

/-- The use is one of the buffer or the indicator of the call. -/
def Use.Within (call : SendBufferCall) : Use → Prop
  | .header address => ∃ k, address = call.buffer + UInt32.ofNat k ∧
      k + SEND_BUFFER_HEADER_SIZE ≤ call.bufferSize.toNat
  | .data address dataLen => ∃ k, address = call.buffer + UInt32.ofNat k ∧
      k + dataLen.toNat ≤ call.bufferSize.toNat
  | .finish indicator => indicator = call.indicator

/-- The use touches memory of a task. -/
def Use.Touches : Use → Prop
  | .finish indicator => indicator ≠ 0
  | _ => True

/-- A socket that has bytes left has a current call. -/
theorem Holds.current {d : SocketDesc} {current : Option SendBufferCall} (h : Holds d current)
    (hsize : 0 < d.sendBufferSize.toNat) :
    ∃ call, current = some call ∧ ∃ sent, d.sendBuffer = call.buffer + UInt32.ofNat sent ∧
      d.sendBufferSize.toNat + sent = call.bufferSize.toNat := by
  cases current with
  | none =>
    rw [h.1] at hsize
    exact absurd hsize (by decide)
  | some call => exact ⟨call, rfl, h.2⟩

/-- What is touched through a descriptor belongs to its current call. -/
theorem Holds.within {d : SocketDesc} {current : Option SendBufferCall} {use : Use} (h : Holds d current)
    (hfrom : use.From d) (htouch : use.Touches) : ∃ call, current = some call ∧ use.Within call := by
  cases use with
  | header address =>
    obtain ⟨rfl, hsize⟩ := hfrom
    simp only [SEND_BUFFER_HEADER_SIZE] at hsize
    obtain ⟨call, hcall, sent, hbuffer, hsent⟩ := h.current (by omega)
    refine ⟨call, hcall, sent, hbuffer, ?_⟩
    simp only [SEND_BUFFER_HEADER_SIZE]
    omega
  | data address dataLen =>
    obtain ⟨rfl, hlen⟩ := hfrom
    simp only [SEND_BUFFER_HEADER_SIZE] at hlen
    obtain ⟨call, hcall, sent, hbuffer, hsent⟩ := h.current (by omega)
    refine ⟨call, hcall, sent + 8, ?_, by omega⟩
    rw [hbuffer, UInt32.ofNat_add, UInt32.add_assoc]
    rfl
  | finish indicator =>
    subst hfrom
    cases current with
    | none => exact absurd h.2 htouch
    | some call => exact ⟨call, rfl, h.1⟩

/-- Everything a round touches belongs to the current call of an active
socket. -/
theorem uses_within {s : Sends T} (h : SendsInv s) {outcome : SendOutcome} {ti : Fin T × SocketID} {use : Use}
    (hu : (ti, use) ∈ s.sockets.roundUses outcome) (htouch : use.Touches) :
    (s.sockets.manager.socketDescs ti.1 ti.2).isActive ≠ 0 ∧
      ∃ call, s.current ti.1 ti.2 = some call ∧ use.Within call := by
  obtain ⟨⟨udpPort, hb⟩, hfrom⟩ := roundUses_from hu
  have hact := active_of_bound h.owned hb
  exact ⟨hact, ((h.socket ti.1 ti.2).holds hact).within hfrom htouch⟩

/-- Only a finished call has its indicator set, and its socket has no send
buffer any more. -/
theorem round_indicates {s s' : Sockets T} {outcome : SendOutcome} (hl : Listed s)
    (hstep : s.handleTransmissionRequest outcome = some s') :
    s'.mem = outcome.mem ∨ ∃ ti indicator, (ti, .finish indicator) ∈ s.roundUses outcome ∧ indicator ≠ 0 ∧
      s'.mem = writeBytes outcome.mem indicator (fun k => if k = 0 then 1 else 0) 4 ∧
      (s'.manager.socketDescs ti.1 ti.2).sendBufferSize = 0 ∧
      (s'.manager.socketDescs ti.1 ti.2).sendBufferIndicatorWhenFinished = 0 := by
  obtain ⟨e, he, hstep⟩ := Option.bind_eq_some_iff.mp hstep
  obtain ⟨packet, hp, hstep⟩ := Option.bind_eq_some_iff.mp hstep
  have hfinish (hf : Sockets.finish { s with mem := outcome.mem } = some s') :
      s'.mem = outcome.mem ∨
        ∃ ti indicator, (ti, .finish indicator) ∈ s.manager.indicateAsFinishedUses (s.manager.request e) ∧
          indicator ≠ 0 ∧ s'.mem = writeBytes outcome.mem indicator (fun k => if k = 0 then 1 else 0) 4 ∧
          (s'.manager.socketDescs ti.1 ti.2).sendBufferSize = 0 ∧
          (s'.manager.socketDescs ti.1 ti.2).sendBufferIndicatorWhenFinished = 0 := by
    have hl' : Listed { s with mem := outcome.mem } := hl.of_sameQueue (.refl _) rfl
    have hdone := (finish_effect hl' he hf).1
    obtain ⟨middle, h1, h2⟩ := Option.bind_eq_some_iff.mp hf
    simp only [Sockets.call, he, Option.bind_some] at h1
    obtain ⟨⟨m, mem⟩, hr, rfl⟩ := Option.map_eq_some_iff.mp h1
    cases h2
    rcases indicateAsFinished_cases hr with ⟨_, _, hmem⟩ | ⟨t, i, d, hsome, _, _, hmem, _⟩
    · exact .inl hmem
    · by_cases hzero : (s.manager.socketDescs t i).sendBufferIndicatorWhenFinished = 0
      · refine .inl (hmem.trans ?_)
        rw [if_neg (by simpa using hzero)]
      · refine .inr ⟨(t, i), _, ?_, hzero, hmem.trans (if_pos hzero), hdone t i hsome⟩
        unfold indicateAsFinishedUses
        rw [hsome]
        exact List.mem_singleton.mpr rfl
  unfold Sockets.roundUses
  simp only [he, hp]
  dsimp only at hstep
  split at hstep
  · rename_i hdata
    rw [if_pos hdata]
    refine (hfinish hstep).imp_right ?_
    intro hex
    obtain ⟨ti, indicator, hu, hrest⟩ := hex
    exact ⟨ti, indicator, List.mem_append_right _ hu, hrest⟩
  · rename_i hdata
    rw [if_neg hdata]
    split at hstep
    · rename_i hsent
      obtain ⟨⟨done, m⟩, hr, hstep⟩ := Option.bind_eq_some_iff.mp hstep
      rw [if_pos hsent]
      dsimp only at hr hstep
      split at hstep
      · rename_i hdone
        subst hdone
        rcases removeTop_cases hr with ⟨_, rfl⟩ | ⟨hfalse, _⟩
        · refine (hfinish hstep).imp_right ?_
          intro hex
          obtain ⟨ti, indicator, hu, hrest⟩ := hex
          rw [hr]
          refine ⟨ti, indicator, ?_, hrest⟩
          exact List.mem_append_right _ (List.mem_append_right _ (List.mem_append_right _ hu))
        · cases hfalse
      · obtain ⟨r, _, rfl⟩ := Option.map_eq_some_iff.mp hstep
        exact .inl rfl
    · have hupdated {middle : Sockets T} (hu : Sockets.call { s with mem := outcome.mem }
          (.updateTop outcome.fragmentOffset outcome.identification) = some middle) : middle.mem = outcome.mem := by
        obtain ⟨_, _, hu⟩ := Option.bind_eq_some_iff.mp hu
        obtain ⟨m, _, rfl⟩ := Option.map_eq_some_iff.mp hu
        rfl
      split at hstep
      · obtain ⟨middle, h1, h2⟩ := Option.bind_eq_some_iff.mp hstep
        cases h2
        have hmiddle := hupdated h1
        exact .inl hmiddle
      · exact .inl (hupdated hstep)

/-! ## Runs -/

/-- A round is a sequence of calls. -/
theorem round_run {s s' : Sockets T} {outcome : SendOutcome}
    (hstep : s.handleTransmissionRequest outcome = some s') : ∃ cs, (socketLTS T).Run s cs s' := by
  have hfinish {s1 : Sockets T} (hf : s1.finish = some s') :
      (socketLTS T).Run s1 [.indicateAsFinished, .remove] s' := by
    obtain ⟨middle, h1, h2⟩ := Option.bind_eq_some_iff.mp hf
    exact .cons h1 (.cons h2 (.nil s'))
  have hmem : (socketLTS T).step s (.userWrite outcome.mem) { s with mem := outcome.mem } := rfl
  obtain ⟨e, he, hstep⟩ := Option.bind_eq_some_iff.mp hstep
  obtain ⟨packet, hp, hstep⟩ := Option.bind_eq_some_iff.mp hstep
  dsimp only at hstep
  split at hstep
  · exact ⟨_, .cons hmem (hfinish hstep)⟩
  · split at hstep
    · obtain ⟨⟨done, m⟩, hr, hstep⟩ := Option.bind_eq_some_iff.mp hstep
      have hremoved : (socketLTS T).step { s with mem := outcome.mem } .removeTop
          { s with manager := m, mem := outcome.mem } := by
        simp only [socketLTS, Sockets.call, he, Option.bind_some, hr, Option.map_some]
      dsimp only at hstep
      split at hstep
      · exact ⟨_, .cons hmem (.cons hremoved (hfinish hstep))⟩
      · exact ⟨_, .cons hmem (.cons hremoved (.cons hstep (.nil s')))⟩
    · split at hstep
      · obtain ⟨middle, h1, h2⟩ := Option.bind_eq_some_iff.mp hstep
        exact ⟨_, .cons hmem (.cons h1 (.cons h2 (.nil s')))⟩
      · exact ⟨_, .cons hmem (.cons hstep (.nil s'))⟩

theorem sameSockets_round {s s' : Sockets T} {outcome : SendOutcome}
    (hstep : s.handleTransmissionRequest outcome = some s') : SameSockets s.manager s'.manager := by
  have hfinish {s1 : Sockets T} (hf : s1.finish = some s') : SameSockets s1.manager s'.manager := by
    obtain ⟨middle, h1, h2⟩ := Option.bind_eq_some_iff.mp hf
    obtain ⟨e, _, h1⟩ := Option.bind_eq_some_iff.mp h1
    obtain ⟨r, hr, rfl⟩ := Option.map_eq_some_iff.mp h1
    cases h2
    exact ((sameSockets_transmission _ _ _ 0 0).2.2 r hr).trans (sameSockets_remove _ _)
  have hupdate {s1 middle : Sockets T}
      (hu : s1.call (.updateTop outcome.fragmentOffset outcome.identification) = some middle) :
      SameSockets s1.manager middle.manager := by
    obtain ⟨e, _, hu⟩ := Option.bind_eq_some_iff.mp hu
    obtain ⟨m, hm, rfl⟩ := Option.map_eq_some_iff.mp hu
    exact (sameSockets_transmission _ s1.mem _ _ _).1 m hm
  obtain ⟨e, he, hstep⟩ := Option.bind_eq_some_iff.mp hstep
  obtain ⟨packet, hp, hstep⟩ := Option.bind_eq_some_iff.mp hstep
  dsimp only at hstep
  split at hstep
  · have hfinished := hfinish hstep
    exact hfinished
  · split at hstep
    · obtain ⟨⟨done, m⟩, hr, hstep⟩ := Option.bind_eq_some_iff.mp hstep
      have hremoved : SameSockets s.manager m := (sameSockets_transmission _ _ _ 0 0).2.1 _ hr
      dsimp only at hstep
      split at hstep
      · have hfinished := hfinish hstep
        exact hremoved.trans hfinished
      · obtain ⟨r, hrelocated, rfl⟩ := Option.map_eq_some_iff.mp hstep
        exact hremoved.trans (sameSockets_relocateToEnd hrelocated)
    · split at hstep
      · obtain ⟨middle, h1, h2⟩ := Option.bind_eq_some_iff.mp hstep
        cases h2
        have hmiddle := hupdate h1
        exact hmiddle
      · have hmiddle := hupdate hstep
        exact hmiddle

/-- The requests in the list are for ports of the table. -/
def InRange (s : SocketManager T) : Prop :=
  ∀ xs, Queue s xs → ∀ e ∈ xs, (s.request e).toNat < NUM_UDP_PORTS

/-- What holds for the lists and tables, whoever makes the calls. -/
structure QueueInv (s : Sockets T) : Prop where
  listed : Listed s
  owned : Owned s.manager
  inRange : InRange s.manager

theorem InRange.of_queue {s t : SocketManager T} (h : InRange s) {xs ys : List ReqElem} (hq : Queue s xs)
    (hq' : Queue t ys) (hsub : ∀ e ∈ ys, e ∈ xs) (hreq : t.request = s.request) : InRange t := by
  intro zs hzs e he
  cases hzs.unique hq'
  rw [hreq]
  exact h xs hq e (hsub e he)

theorem InRange.of_sameQueue {s t : SocketManager T} (h : InRange s) (hl : ∃ xs, Queue s xs) (hq : SameQueue s t) :
    InRange t := by
  obtain ⟨xs, hxs⟩ := hl
  exact h.of_queue hxs (hq.queue hxs) (fun _ he => he) hq.request

theorem inRange_setSendBuffer {s : SocketManager T} (h : InRange s) (ho : Owned s) {xs : List ReqElem}
    (hq : Queue s xs) (taskID : Fin T) (socketID : UInt8) (newBuffer newBufferSize indicatorWhenFinished : UInt32) :
    InRange (s.setSendBuffer taskID socketID newBuffer newBufferSize indicatorWhenFinished).2 := by
  rcases setSendBuffer_cases s taskID socketID newBuffer newBufferSize indicatorWhenFinished with
    he | ⟨i, _, hact, ⟨_, he⟩ | ⟨_, m, hadd, he⟩⟩
  · rw [he]
    exact h
  · rw [he]
    exact h.of_sameQueue ⟨xs, hq⟩ (sameQueue_setDesc s taskID i _)
  · obtain ⟨e, hnew, hq', hreq, _⟩ := addRequest_queue hq hadd
    rw [he]
    intro ys hys x hx
    cases hys.unique ((sameQueue_setDesc m taskID i _).queue hq')
    show (m.request x).toNat < NUM_UDP_PORTS
    rw [hreq]
    by_cases hxe : x = e
    · -- the port of an active socket is in the table
      obtain ⟨_, p, hp, _⟩ := ho.desc taskID i hact
      rw [hxe, Function.update_self, ← hp]
      exact p.isLt
    · rw [Function.update_of_ne hxe]
      exact h xs hq x ((List.mem_cons.mp hx).resolve_left hxe)

theorem queueInv_call (hT : T ≤ 256) {s t : Sockets T} {c : SocketCall T} (h : QueueInv s) (hc : s.call c = some t) :
    QueueInv t := by
  refine ⟨call_listed h.listed hc, call_owned hT h.owned hc, ?_⟩
  obtain ⟨xs, hq, hcursor⟩ := h.listed
  have hsame {m : SocketManager T} (hm : SameQueue s.manager m) : InRange m := h.inRange.of_sameQueue ⟨xs, hq⟩ hm
  cases c with
  | openSocket taskID udpPort =>
    cases hc
    exact hsame (sameQueue_openSocket ..)
  | closeSocket taskID socketID =>
    obtain ⟨m, hm, rfl⟩ := Option.map_eq_some_iff.mp hc
    exact hsame (sameQueue_closeSocket hm)
  | closeAllSocketsForTask taskID =>
    obtain ⟨m, hm, rfl⟩ := Option.map_eq_some_iff.mp hc
    exact hsame (sameQueue_closeLoop hm)
  | setReceiveBuffer taskID socketID newBuffer newBufferSize =>
    cases hc
    exact hsame (sameQueue_setReceiveBuffer ..)
  | setSendBuffer taskID socketID newBuffer newBufferSize indicatorWhenFinished =>
    cases hc
    exact inRange_setSendBuffer h.inRange h.owned hq _ _ _ _ _
  | received behind packet fragments =>
    obtain ⟨r, hr, rfl⟩ := Option.map_eq_some_iff.mp hc
    exact hsame (sameQueue_received hr)
  | userWrite mem =>
    cases hc
    exact h.inRange
  | getTransmissionRequestsIterator =>
    cases hc
    exact h.inRange
  | goToNext =>
    cases hc
    exact h.inRange
  | updateTop newFragmentOffset newIdentification =>
    obtain ⟨e, _, hc⟩ := Option.bind_eq_some_iff.mp hc
    obtain ⟨m, hm, rfl⟩ := Option.map_eq_some_iff.mp hc
    exact hsame (onlyBound_updateTop hm).sameQueue
  | removeTop =>
    obtain ⟨e, _, hc⟩ := Option.bind_eq_some_iff.mp hc
    obtain ⟨r, hr, rfl⟩ := Option.map_eq_some_iff.mp hc
    exact hsame (onlyBound_removeTop hr).sameQueue
  | indicateAsFinished =>
    obtain ⟨e, _, hc⟩ := Option.bind_eq_some_iff.mp hc
    obtain ⟨r, hr, rfl⟩ := Option.map_eq_some_iff.mp hc
    exact hsame (onlyBound_indicateAsFinished hr).sameQueue
  | remove =>
    cases hc
    cases hcur : s.cursor with
    | none => exact h.inRange
    | some e =>
      obtain ⟨as, bs, hq'⟩ := h.listed.split hcur
      obtain ⟨hremoved, _, hreq, _⟩ := remove_queue hq'
      exact h.inRange.of_queue hq' hremoved (by simp; tauto) hreq
  | relocateToEnd =>
    obtain ⟨r, hr, rfl⟩ := Option.map_eq_some_iff.mp hc
    cases hcur : s.cursor with
    | none =>
      rw [hcur] at hr
      cases hr
      exact h.inRange
    | some e =>
      rw [hcur] at hr
      obtain ⟨as, bs, hq'⟩ := h.listed.split hcur
      cases bs with
      | nil =>
        rw [relocateToEnd_last hq'] at hr
        cases hr
        exact h.inRange
      | cons q bs =>
        obtain ⟨m, hm, hmoved, hreq, _⟩ := relocateToEnd_queue hq'
        rw [hm] at hr
        cases hr
        exact h.inRange.of_queue hq' hmoved (by simp; tauto) hreq

/-! ## A round has a defined outcome -/

theorem boundSocket_inRange {s : SocketManager T} (ho : Owned s) {udpPort : UInt16}
    (hp : udpPort.toNat < NUM_UDP_PORTS) : ∃ o, s.boundSocket udpPort = some o := by
  unfold boundSocket
  rw [dif_pos hp]
  dsimp only
  split
  · exact ⟨none, rfl⟩
  · rename_i hact
    obtain ⟨_, t, i, hindex, _⟩ := ho.port _ hact
    exact ⟨some (t, i), by rw [hindex]; rfl⟩

theorem finish_defined {s : Sockets T} {e : ReqElem} (ho : Owned s.manager) (he : s.cursor = some e)
    (hp : (s.manager.request e).toNat < NUM_UDP_PORTS) : ∃ s', s.finish = some s' := by
  obtain ⟨o, hbound⟩ := boundSocket_inRange ho hp
  obtain ⟨r, hr⟩ : ∃ r, s.manager.indicateAsFinished s.mem (s.manager.request e) = some r := by
    unfold indicateAsFinished
    rw [hbound]
    exact ⟨_, rfl⟩
  unfold Sockets.finish
  simp only [Sockets.call, he, Option.bind_some, hr, Option.map_some]
  exact ⟨_, rfl⟩

theorem relocateToEnd_defined {s : Sockets T} {e : ReqElem} (hl : Listed s) (he : s.cursor = some e) :
    ∃ s', s.call .relocateToEnd = some s' := by
  obtain ⟨as, bs, hq⟩ := hl.split he
  unfold Sockets.call
  cases bs with
  | nil =>
    rw [he, relocateToEnd_last hq]
    exact ⟨_, rfl⟩
  | cons q bs =>
    obtain ⟨m, hm, _⟩ := relocateToEnd_queue hq
    rw [he, hm]
    exact ⟨_, rfl⟩

theorem round_defined {s : Sockets T} (h : QueueInv s) {e : ReqElem} (he : s.cursor = some e)
    (outcome : SendOutcome) : ∃ s', s.handleTransmissionRequest outcome = some s' := by
  obtain ⟨xs, hq, hcursor⟩ := h.listed
  have hp := h.inRange xs hq e (hcursor e he)
  obtain ⟨o, hbound⟩ := boundSocket_inRange h.owned hp
  obtain ⟨packet, hpacket⟩ : ∃ packet, s.manager.getTop s.mem (s.manager.request e) = some packet := by
    unfold getTop
    rw [hbound]
    exact ⟨_, rfl⟩
  unfold Sockets.handleTransmissionRequest
  rw [he, Option.bind_some, hpacket, Option.bind_some]
  dsimp only
  split
  · exact finish_defined (s := { s with mem := outcome.mem, cursor := some e }) h.owned rfl hp
  · split
    · obtain ⟨⟨done, m⟩, hr⟩ : ∃ r, s.manager.removeTop outcome.mem (s.manager.request e) = some r := by
        unfold removeTop
        rw [hbound]
        exact ⟨_, rfl⟩
      have hqueue := (onlyBound_removeTop hr).sameQueue
      have ho : Owned m := ((sameSockets_transmission _ _ _ 0 0).2.1 _ hr).owned h.owned
      rw [hr, Option.bind_some]
      dsimp only
      split
      · refine finish_defined (s := { s with manager := m, mem := outcome.mem, cursor := some e }) ho rfl ?_
        show (m.request e).toNat < NUM_UDP_PORTS
        rw [hqueue.request]
        exact hp
      · exact relocateToEnd_defined (s := { s with manager := m, mem := outcome.mem, cursor := some e })
          (h.listed.of_sameQueue hqueue he.symm) rfl
    · obtain ⟨m, hm⟩ : ∃ m, s.manager.updateTop (s.manager.request e) outcome.fragmentOffset
          outcome.identification = some m := by
        unfold updateTop
        rw [hbound]
        exact ⟨_, rfl⟩
      simp only [Sockets.call, Option.bind_some, hm, Option.map_some]
      split
      · exact ⟨_, rfl⟩
      · exact ⟨_, rfl⟩

/-! ## Every reachable state -/

theorem sendsInv_step (hT : T ≤ 256) {s t : Sends T} {l : SendsStep T} (h : SendsInv s)
    (hr : InRange s.sockets.manager) (hstep : sendsStep s l t) : SendsInv t ∧ InRange t.sockets.manager := by
  have hq : QueueInv s.sockets := ⟨h.listed, h.owned, hr⟩
  cases l with
  | call c =>
    obtain ⟨hc, hcall, hcurrent, hcalls⟩ := hstep
    have hq' := queueInv_call hT hq hcall
    refine ⟨⟨hq'.listed, hq'.owned, fun t' i => ?_, fun t' i call hsome => ?_⟩, hq'.inRange⟩
    · rw [hcurrent]
      exact sends_call h hc hcall t' i
    · rw [hcurrent] at hsome
      rw [hcalls]
      rcases currentAfter_cases s c t' i with hnone | hsame | ⟨new, hnew, hnumber, hcalls⟩
      · rw [hnone] at hsome
        cases hsome
      · rw [hsame] at hsome
        exact Nat.lt_of_lt_of_le (h.numbered t' i call hsome) (calls_le_callsAfter s c)
      · rw [hnew] at hsome
        cases hsome
        omega
  | handleTransmissionRequest outcome =>
    obtain ⟨hround, hcurrent, hcalls⟩ := hstep
    obtain ⟨cs, hrun⟩ := round_run hround
    have hq' : QueueInv t.sockets := hrun.keeps (I := QueueInv) (fun _ _ _ hq hc => queueInv_call hT hq hc) hq
    refine ⟨⟨hq'.listed, hq'.owned, fun t' i => ?_, fun t' i call hsome => ?_⟩, hq'.inRange⟩
    · rw [hcurrent]
      exact sends_round h hround t' i
    · rw [hcurrent] at hsome
      rw [hcalls]
      dsimp only at hsome
      split at hsome
      · cases hsome
      · exact h.numbered t' i call hsome

theorem queueInv_started {s : Sockets T} (h : Started s) : QueueInv s := by
  obtain ⟨⟨old, hold⟩, hcursor⟩ := h
  have hq : Queue s.manager [] := hold ▸ (lists_init old).queue
  refine ⟨⟨[], hq, fun e he => ?_⟩, hold ▸ owned_init old, fun xs hxs => ?_⟩
  · rw [hcursor] at he
    cases he
  · cases hxs.unique hq
    exact fun e he => by cases he

theorem sendsInv_init {s : Sends T} (h : (sendsLTS T).init s) : SendsInv s ∧ InRange s.sockets.manager := by
  obtain ⟨hstarted, hcurrent, _⟩ := h
  have hqueue := queueInv_started hstarted
  obtain ⟨⟨old, hold⟩, _⟩ := hstarted
  refine ⟨⟨hqueue.listed, hqueue.owned, fun t i => ?_, fun t i call hsome => ?_⟩, hqueue.inRange⟩
  · rw [hcurrent, hold]
    exact .ofClosed rfl
  · rw [hcurrent] at hsome
    cases hsome

theorem sendsInv_reachable (hT : T ≤ 256) {s : Sends T} (hs : (sendsLTS T).Reachable s) :
    SendsInv s ∧ InRange s.sockets.manager :=
  LTS.Inductive.reachable (I := fun s : Sends T => SendsInv s ∧ InRange s.sockets.manager)
    ⟨fun _ h => sendsInv_init h, fun _ _ _ h hstep => sendsInv_step hT h.1 h.2 hstep⟩ s hs

/-- The calls of a socket from some point on. -/
theorem current_later {s t : Sends T} {l : SendsStep T} {t' : Fin T} {i : SocketID} {n : Nat}
    (h : n ≤ s.calls ∧ ∀ call, s.current t' i = some call → n ≤ call.number) (hstep : (sendsLTS T).step s l t) :
    n ≤ t.calls ∧ ∀ call, t.current t' i = some call → n ≤ call.number := by
  cases l with
  | call c =>
    obtain ⟨_, _, hcurrent, hcalls⟩ := hstep
    rw [hcurrent, hcalls]
    refine ⟨h.1.trans (calls_le_callsAfter s c), fun call hsome => ?_⟩
    rcases currentAfter_cases s c t' i with hnone | hsame | ⟨new, hnew, hnumber, _⟩
    · rw [hnone] at hsome
      cases hsome
    · rw [hsame] at hsome
      exact h.2 call hsome
    · rw [hnew] at hsome
      cases hsome
      rw [hnumber]
      exact h.1
  | handleTransmissionRequest outcome =>
    obtain ⟨_, hcurrent, hcalls⟩ := hstep
    rw [hcurrent, hcalls]
    refine ⟨h.1, fun call hsome => ?_⟩
    dsimp only at hsome
    split at hsome
    · cases hsome
    · exact h.2 call hsome

/-- What a round does next, and in any later state. -/
structure SendsKept (s : Sends T) : Prop where
  requested : ∀ t i, (s.sockets.manager.socketDescs t i).isActive ≠ 0 →
    (s.sockets.manager.socketDescs t i).sendBufferSize ≠ 0 →
      ∃ xs, Seg s.sockets.manager.next s.sockets.manager.transmissionRequestsHead xs none ∧
        ∃ e ∈ xs, s.sockets.manager.request e = (s.sockets.manager.socketDescs t i).udpPort
  defined : ∀ e, s.sockets.cursor = some e → ∀ outcome, ∃ s', s.sockets.handleTransmissionRequest outcome = some s'
  indicated : ∀ outcome s', s.sockets.handleTransmissionRequest outcome = some s' →
    s'.mem = outcome.mem ∨ ∃ t i call, (s.sockets.manager.socketDescs t i).isActive ≠ 0 ∧
      s.current t i = some call ∧ Holds (s.sockets.manager.socketDescs t i) (some call) ∧
      s'.mem = writeBytes outcome.mem call.indicator (fun k => if k = 0 then 1 else 0) 4
  touched : ∀ outcome ti use, (ti, use) ∈ s.sockets.roundUses outcome → use.Touches →
    (s.sockets.manager.socketDescs ti.1 ti.2).isActive ≠ 0 ∧
      ∃ call, s.current ti.1 ti.2 = some call ∧ use.Within call
  closed : ∀ t i, (s.sockets.manager.socketDescs t i).isActive = 0 → ∀ ls s', (sendsLTS T).Run s ls s' →
    ∀ outcome use, ((t, i), use) ∈ s'.sockets.roundUses outcome → use.Touches →
      ∃ call, s'.current t i = some call ∧ s.calls ≤ call.number ∧ use.Within call

/-- No send buffer is forgotten, an indicator is set only for the call whose
buffer the socket has, and after a socket is closed only the buffers of later
calls are touched through it. -/
theorem sends_kept (hT : T ≤ 256) (s : Sends T) (hs : (sendsLTS T).Reachable s) : SendsKept s := by
  obtain ⟨h, hr⟩ := sendsInv_reachable hT hs
  constructor
  case requested =>
    intro t i hact hsize
    obtain ⟨xs, hq, e, he, hport⟩ := (h.socket t i).requested hact hsize
    exact ⟨xs, hq.requests.forward, e, he, hport⟩
  case defined => exact fun e he outcome => round_defined ⟨h.listed, h.owned, hr⟩ he outcome
  case indicated =>
    intro outcome s' hround
    rcases round_indicates h.listed hround with hmem | ⟨ti, indicator, hu, hne, hmem, _⟩
    · exact .inl hmem
    · obtain ⟨hact, call, hcall, rfl⟩ := uses_within h hu hne
      have hholds := (h.socket ti.1 ti.2).holds hact
      rw [hcall] at hholds
      exact .inr ⟨ti.1, ti.2, call, hact, hcall, hholds, hmem⟩
  case touched => exact fun outcome ti use hu htouch => uses_within h hu htouch
  case closed =>
    intro t i hclosed ls s' hrun outcome use hu htouch
    have hlater : s.calls ≤ s'.calls ∧ ∀ call, s'.current t i = some call → s.calls ≤ call.number := by
      refine hrun.keeps (I := fun s' => s.calls ≤ s'.calls ∧ ∀ call, s'.current t i = some call → s.calls ≤ call.number)
        (fun _ _ _ hlater hstep => current_later hlater hstep) ⟨Nat.le_refl _, fun call hsome => ?_⟩
      rw [(h.socket t i).closed hclosed] at hsome
      cases hsome
    obtain ⟨h', _⟩ := sendsInv_reachable hT (hs.run hrun)
    obtain ⟨_, call, hcall, hwithin⟩ := uses_within h' hu htouch
    exact ⟨call, hcall, hlater.2 call hcall, hwithin⟩

/-! ## A task with a buffer to send -/

/-- The task has port 80 open and a send buffer of 32 bytes at 0x2000; its
indicator is at 0x3000. -/
def sending80 : Sends 1 where
  sockets :=
    { manager := (((SocketManager.init blankManager).openSocket ⟨0, Nat.one_pos⟩ 80).2.setSendBuffer
        ⟨0, Nat.one_pos⟩ 0 0x2000 32 0x3000).2
      mem := fun _ => 0
      cursor := none }
  current := fun _ i => if i.val = 0 then some ⟨0, 0x2000, 32, 0x3000⟩ else none
  calls := 1

theorem reachable_sending80 : (sendsLTS 1).Reachable sending80 := by
  refine ⟨⟨⟨SocketManager.init blankManager, fun _ => 0, none⟩, fun _ _ => none, 0⟩,
    [.call (.openSocket 0 80), .call (.setSendBuffer 0 0 0x2000 32 0x3000)], ⟨⟨⟨_, rfl⟩, rfl⟩, rfl, rfl⟩, ?_⟩
  refine .cons (t := ⟨⟨((SocketManager.init blankManager).openSocket ⟨0, Nat.one_pos⟩ 80).2, fun _ => 0, none⟩,
    fun _ _ => none, 0⟩) ⟨trivial, rfl, ?_, rfl⟩ (.cons ⟨trivial, rfl, ?_, rfl⟩ (.nil _))
  · funext t i
    simp [Sends.currentAfter]
  · funext t i
    fin_cases t
    fin_cases i <;> rfl

/-- The buffer of port 80 has a request. -/
theorem sends_kept_sending80 : (sending80.sockets.manager.socketDescs 0 ⟨0, firstSocket_lt⟩).sendBufferSize = 32 ∧
    SendsKept sending80 :=
  ⟨by decide +kernel, sends_kept (by decide) sending80 reachable_sending80⟩

end CpuScheduler.L3
