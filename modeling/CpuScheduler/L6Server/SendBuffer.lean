import CpuScheduler.L3Sockets.TransmissionQueue
import CpuScheduler.L4Task.Syscalls
import CpuScheduler.L6Server.CoapServer

/-!
# Waiting for a transmission

The server gives a write buffer away with `setSendBuffer` and waits until the
network task sets the indicator. The wrapper of the system call clears the
indicator before the call, and the server does not look at the result. So the
wait ends only if the call succeeded.

`sendLTS` interleaves the steps of the server, the rounds of the network task
and `setSendBuffer` calls of other tasks. The indicator is a word of memory.
`attemptWriteBufferSwap` is two steps: the clearing of the indicator, after
which the server is inside the call (`calling`), and the system call.
The sending loop of a round is its outcome; it may write all of memory but the
indicator, and so may the tasks.
-/
namespace CpuScheduler.L6

open Links L3 L3.SocketManager L4

/-- The socket of the server, and where its variables are. -/
structure Endpoint (T : Nat) where
  taskID : Fin T
  socketID : SocketID
  udpPort : UInt16
  indicator : UInt32
  writeBuffers : Bool → UInt32
  indicator_ne : indicator ≠ 0

structure Sending (T : Nat) where
  sockets : Sockets T
  server : CoAPServer
  calling : Option SendCall

inductive SendStep (T : Nat) where
  | writeResponse (sourceIP : UInt32) (sourcePort : UInt16) (udpPayload : Nat → UInt8) (udpPayloadSize : Nat)
      (h : Header) (offset : Nat) (s : PathState)
  | attemptWriteBufferSwap
  | setSendBuffer
  | otherSetSendBuffer (taskID : Fin T) (socketID : UInt8) (newBuffer newBufferSize indicatorWhenFinished : UInt32)
  | userWrite (mem : Mem)
  | getTransmissionRequestsIterator
  | handleTransmissionRequest (outcome : SendOutcome)

/-- The word at `a` and the word at `b` share no byte. -/
def Apart (a b : UInt32) : Prop := ∀ x : UInt32, (x - a).toNat < 4 → ¬ (x - b).toNat < 4

section
variable {T : Nat} (E : Endpoint T)

namespace Endpoint

/-- The two memories agree on the indicator. -/
def SameIndicator (mem mem' : Mem) : Prop := ∀ x : UInt32, (x - E.indicator).toNat < 4 → mem' x = mem x

end Endpoint

namespace Sending

/-- `currentlySendingWritebufferIndicatorWhenFinished` -/
def flag (s : Sending T) : UInt32 := readWord s.sockets.mem E.indicator

/-- The server with the indicator as it is in memory. -/
def current (s : Sending T) : CoAPServer :=
  { s.server with currentlySendingWritebufferIndicatorWhenFinished := s.flag E }

/-- The part of `attemptWriteBufferSwap` in front of the system call. -/
def attemptWriteBufferSwap (s : Sending T) : Sending T :=
  match (s.current E).attemptWriteBufferSwap with
  | (server, none) => { s with server := server }
  | (server, some call) =>
    { s with
      sockets := { s.sockets with mem := writeWord s.sockets.mem E.indicator 0 }
      server := server
      calling := some call }

/-- The system call. -/
def setSendBuffer (s : Sending T) (call : SendCall) : Int × Sending T :=
  let (success, manager) := s.sockets.manager.setSendBuffer E.taskID (socketByte E.socketID) (E.writeBuffers call.buffer)
    (UInt32.ofNat call.bufferSize) E.indicator
  (success, { s with sockets := { s.sockets with manager := manager }, calling := none })

end Sending

def sendStep (s : Sending T) : SendStep T → Sending T → Prop
  | .writeResponse sourceIP sourcePort udpPayload udpPayloadSize h offset ps, t =>
    s.calling = none ∧
      t = { s with
        server := (s.server.writeResponse sourceIP sourcePort udpPayload udpPayloadSize h offset ps).val.1 }
  | .attemptWriteBufferSwap, t => s.calling = none ∧ t = s.attemptWriteBufferSwap E
  | .setSendBuffer, t => ∃ call, s.calling = some call ∧ t = (s.setSendBuffer E call).2
  | .otherSetSendBuffer taskID socketID newBuffer newBufferSize indicatorWhenFinished, t =>
    taskID ≠ E.taskID ∧ (indicatorWhenFinished ≠ 0 → Apart indicatorWhenFinished E.indicator) ∧
      s.sockets.call (.setSendBuffer taskID socketID newBuffer newBufferSize indicatorWhenFinished) =
        some t.sockets ∧ t.server = s.server ∧ t.calling = s.calling
  | .userWrite mem, t => E.SameIndicator s.sockets.mem mem ∧ t = { s with sockets := { s.sockets with mem := mem } }
  | .getTransmissionRequestsIterator, t =>
    s.sockets.call .getTransmissionRequestsIterator = some t.sockets ∧ t.server = s.server ∧ t.calling = s.calling
  | .handleTransmissionRequest outcome, t => E.SameIndicator s.sockets.mem outcome.mem ∧
      s.sockets.handleTransmissionRequest outcome = some t.sockets ∧ t.server = s.server ∧ t.calling = s.calling

/-- The server has been constructed on sockets that any calls have made; no
other socket uses the server's indicator.
mirrors coap_server.cpp:59-82 -/
def Constructed (s : Sending T) : Prop :=
  ∃ start cs before receiveBuffer receiveBufferSize,
    Started start ∧ (socketLTS T).Run start cs before ∧
    (∀ t i, (before.manager.socketDescs t i).sendBufferIndicatorWhenFinished ≠ 0 →
      Apart (before.manager.socketDescs t i).sendBufferIndicatorWhenFinished E.indicator) ∧
    (before.manager.openSocket E.taskID E.udpPort).1 = E.socketID.val ∧
    s.sockets.manager = ((before.manager.openSocket E.taskID E.udpPort).2.setReceiveBuffer E.taskID (socketByte E.socketID)
      receiveBuffer receiveBufferSize).2 ∧
    s.sockets.cursor = before.cursor ∧ s.flag E = 1 ∧
    s.server.currentlyWrittenToWriteBufferDataLen = 0 ∧ s.calling = none

def sendLTS : LTS (Sending T) (SendStep T) where
  init := Constructed E
  step := sendStep E

/-- The transmission list contains a request for the server's port, and the
server's socket has the indicator. -/
def Waiting (s : Sending T) : Prop :=
  (∃ xs, Seg s.sockets.manager.next s.sockets.manager.transmissionRequestsHead xs none ∧
    ∃ e ∈ xs, s.sockets.manager.request e = E.udpPort) ∧
  (s.sockets.manager.socketDescs E.taskID E.socketID).sendBufferIndicatorWhenFinished = E.indicator

/-- A request element is unused, and the buffer can hold a packet. -/
def CanSend (s : Sending T) (call : SendCall) : Prop :=
  s.sockets.manager.unusedTransmissionRequestsHead ≠ none ∧
    SEND_BUFFER_HEADER_SIZE + UDP_HEADER_SIZE ≤ call.bufferSize

/-- The condition on a step: a system call of the server can send. -/
def Sendable (s : Sending T) : SendStep T → Prop
  | .setSendBuffer => ∀ call, s.calling = some call → CanSend s call
  | _ => True

/-! ## The indicator in memory -/

variable {E}

theorem readWord_writeBytes_apart {mem : Mem} {a b : UInt32} {bytes : Nat → UInt8} (h : Apart a b) :
    readWord (writeBytes mem a bytes 4) b = readWord mem b := by
  refine readWord_congr fun x hx => ?_
  rw [writeBytes, if_neg]
  exact fun hxa => h x hxa hx

/-! ## The invariant -/

variable (E)

structure SendInv (s : Sending T) : Prop where
  listed : Listed s.sockets
  owned : Owned s.sockets.manager
  active : (s.sockets.manager.socketDescs E.taskID E.socketID).isActive ≠ 0
  port : (s.sockets.manager.socketDescs E.taskID E.socketID).udpPort = E.udpPort
  own : (s.sockets.manager.socketDescs E.taskID E.socketID).sendBufferIndicatorWhenFinished = 0 ∨
    (s.sockets.manager.socketDescs E.taskID E.socketID).sendBufferIndicatorWhenFinished = E.indicator
  others : ∀ t i, (t, i) ≠ (E.taskID, E.socketID) →
    (s.sockets.manager.socketDescs t i).sendBufferIndicatorWhenFinished ≠ 0 →
      Apart (s.sockets.manager.socketDescs t i).sendBufferIndicatorWhenFinished E.indicator
  size : ∀ call, s.calling = some call → call.bufferSize ≤ WRITE_BUFFER_SIZE
  pending : s.flag E = 0 → s.calling = none → Waiting E s

variable {E}

theorem Waiting.kept {s t : Sending T} (h : Waiting E s) (hl : Listed s.sockets)
    (hr : RequestsKept s.sockets.manager t.sockets.manager)
    (hd : (t.sockets.manager.socketDescs E.taskID E.socketID).sendBufferIndicatorWhenFinished =
      (s.sockets.manager.socketDescs E.taskID E.socketID).sendBufferIndicatorWhenFinished) : Waiting E t := by
  obtain ⟨⟨xs, hseg, e, he, hreq⟩, hind⟩ := h
  obtain ⟨ys, hq, _⟩ := hl
  have hxy : xs = ys := hseg.unique hq.requests.forward
  subst hxy
  obtain ⟨xs', hq', hsub⟩ := hr xs hq
  obtain ⟨he', hreq'⟩ := hsub e he
  exact ⟨⟨xs', hq'.requests.forward, e, he', hreq'.trans hreq⟩, hd.trans hind⟩

/-- A step that keeps the server's socket, its request and the indicator. -/
theorem SendInv.kept {s t : Sending T} (h : SendInv E s) (hl : Listed t.sockets)
    (hs : SameSockets s.sockets.manager t.sockets.manager) (hw : Waiting E s → Waiting E t)
    (hd : (t.sockets.manager.socketDescs E.taskID E.socketID).sendBufferIndicatorWhenFinished =
      (s.sockets.manager.socketDescs E.taskID E.socketID).sendBufferIndicatorWhenFinished)
    (ho : ∀ t' i, (t', i) ≠ (E.taskID, E.socketID) →
      (t.sockets.manager.socketDescs t' i).sendBufferIndicatorWhenFinished ≠ 0 →
        Apart (t.sockets.manager.socketDescs t' i).sendBufferIndicatorWhenFinished E.indicator)
    (hf : t.flag E = s.flag E) (hc : t.calling = s.calling) : SendInv E t where
  listed := hl
  owned := hs.owned h.owned
  active := by rw [hs.isActive]; exact h.active
  port := by rw [hs.udpPort]; exact h.port
  own := by rw [hd]; exact h.own
  others := ho
  size := by rw [hc]; exact h.size
  pending := by
    rw [hf, hc]
    exact fun h0 hnone => hw (h.pending h0 hnone)

/-- The indicators of all sockets are the same. -/
def SameIndicators (s t : SocketManager T) : Prop :=
  ∀ t' i, (t.socketDescs t' i).sendBufferIndicatorWhenFinished = (s.socketDescs t' i).sendBufferIndicatorWhenFinished

theorem sameIndicators_setDesc {s : SocketManager T} {t : Fin T} {i : SocketID} {d : SocketDesc}
    (h : d.sendBufferIndicatorWhenFinished = (s.socketDescs t i).sendBufferIndicatorWhenFinished) :
    SameIndicators s (s.setDesc t i d) := by
  intro t' i'
  by_cases he : (t', i') = (t, i)
  · cases he
    rw [socketDescs_setDesc, h]
  · rw [socketDescs_setDesc_of_ne s d he]

theorem sameIndicators_of_sameTables {s t : SocketManager T} (h : SameTables s t) : SameIndicators s t := by
  intro t' i
  rw [h.socketDescs]

/-- A step that keeps all sockets and requests, and the indicator. -/
theorem SendInv.same {s t : Sending T} (h : SendInv E s) (hl : Listed t.sockets)
    (hs : SameSockets s.sockets.manager t.sockets.manager)
    (hr : RequestsKept s.sockets.manager t.sockets.manager)
    (hi : SameIndicators s.sockets.manager t.sockets.manager)
    (hf : t.flag E = s.flag E) (hc : t.calling = s.calling) : SendInv E t := by
  refine h.kept hl hs (fun hw => hw.kept h.listed hr (hi _ _)) (hi _ _) (fun t' i hne => ?_) hf hc
  rw [hi t' i]
  exact h.others t' i hne

/-! ## Steps of the server and of the tasks -/

theorem sendInv_writeResponse {s : Sending T} (h : SendInv E s) (server : CoAPServer) :
    SendInv E { s with server := server } :=
  ⟨h.listed, h.owned, h.active, h.port, h.own, h.others, h.size, h.pending⟩

theorem sendInv_attemptWriteBufferSwap {s : Sending T} (h : SendInv E s) :
    SendInv E (s.attemptWriteBufferSwap E) := by
  unfold Sending.attemptWriteBufferSwap CoAPServer.attemptWriteBufferSwap
  split
  · rename_i server hcall
    exact sendInv_writeResponse h server
  · rename_i server call hcall
    split at hcall
    · cases hcall
      refine ⟨h.listed.of_sameQueue (.refl _) rfl, h.owned, h.active, h.port, h.own, h.others, fun call hc => ?_,
        fun _ hnone => absurd hnone (by simp)⟩
      cases hc
      exact s.server.dataLen_le
    · cases hcall

theorem sendInv_userWrite {s : Sending T} {mem : Mem} (h : SendInv E s) (hmem : E.SameIndicator s.sockets.mem mem) :
    SendInv E { s with sockets := { s.sockets with mem := mem } } :=
  h.same (h.listed.of_sameQueue (.refl _) rfl) (.refl _) (requestsKept_of_sameQueue (.refl _)) (fun _ _ => rfl)
    (readWord_congr hmem) rfl

/-- The system call succeeds if there is an unused request element and the
buffer can hold a packet: the request is in the list, and the socket has the
indicator. -/
theorem setSendBuffer_accepted {s : Sending T} (h : SendInv E s) {call : SendCall} (hcall : s.calling = some call)
    (hsend : CanSend s call) :
    ∃ m e xs, s.sockets.manager.addRequest E.udpPort = some m ∧ Queue m (e :: xs) ∧ m.request e = E.udpPort ∧
      SameTables s.sockets.manager m ∧
      s.setSendBuffer E call = (0, { s with
        sockets := { s.sockets with
          manager := m.setDesc E.taskID E.socketID
            { s.sockets.manager.socketDescs E.taskID E.socketID with
              sendBuffer := E.writeBuffers call.buffer, sendBufferSize := UInt32.ofNat call.bufferSize
              sendBufferIdentification := 0, sendBufferFragmentOffset := 0
              sendBufferIndicatorWhenFinished := E.indicator } }
        calling := none }) := by
  obtain ⟨hunused, hsize⟩ := hsend
  obtain ⟨xs, hq, _⟩ := h.listed
  obtain ⟨m, hm⟩ : ∃ m, s.sockets.manager.addRequest E.udpPort = some m := by
    obtain ⟨e, he⟩ := Option.ne_none_iff_exists'.mp hunused
    rw [addRequest, he]
    exact ⟨_, rfl⟩
  obtain ⟨e, _, hq', hreq, hsame⟩ := addRequest_queue hq hm
  refine ⟨m, e, xs, hm, hq', by rw [hreq, Function.update_self], hsame, ?_⟩
  have hlt : (socketByte E.socketID).toNat < MAX_NUM_SOCKETS_PER_TASK := by
    rw [toNat_socketByte E.socketID]
    exact E.socketID.isLt
  have hid : (⟨(socketByte E.socketID).toNat, hlt⟩ : SocketID) = E.socketID := Fin.ext (toNat_socketByte E.socketID)
  have hword : (UInt32.ofNat call.bufferSize).toNat = call.bufferSize := by
    have hle : call.bufferSize ≤ 3 * 0x10000 := h.size call hcall
    rw [UInt32.toNat_ofNat']
    omega
  unfold Sending.setSendBuffer SocketManager.setSendBuffer
  rw [dif_pos hlt, hid, if_neg (by rw [hword]; omega), if_neg h.active,
    if_neg (fun hzero => E.indicator_ne hzero.2.2), h.port, hm]
  dsimp only
  rw [h.port]

theorem sendInv_setSendBuffer {s : Sending T} (h : SendInv E s) {call : SendCall} (hcall : s.calling = some call)
    (hsend : CanSend s call) : SendInv E (s.setSendBuffer E call).2 := by
  obtain ⟨m, e, xs, hm, hq, hreq, hsame, hset⟩ := setSendBuffer_accepted h hcall hsend
  have hl : Listed { s.sockets with manager := (s.setSendBuffer E call).2.sockets.manager } :=
    call_listed (c := .setSendBuffer E.taskID (socketByte E.socketID) (E.writeBuffers call.buffer)
      (UInt32.ofNat call.bufferSize) E.indicator) h.listed rfl
  have hs : SameSockets s.sockets.manager (s.setSendBuffer E call).2.sockets.manager :=
    sameSockets_setSendBuffer _ _ _ _ _ _
  rw [hset] at hl hs ⊢
  refine ⟨hl, hs.owned h.owned, ?_, ?_, .inr ?_, fun t i hne => ?_, fun _ hcalling => ?_, fun _ _ => ?_⟩
  · rw [hs.isActive]
    exact h.active
  · rw [hs.udpPort]
    exact h.port
  · rw [socketDescs_setDesc]
  · rw [socketDescs_setDesc_of_ne _ _ hne, hsame.socketDescs]
    exact h.others t i hne
  · cases hcalling
  · refine ⟨⟨e :: xs, hq.requests.forward, e, List.mem_cons_self, hreq⟩, ?_⟩
    rw [socketDescs_setDesc]

/-- The descriptors after a call of `setSendBuffer`. -/
theorem setSendBuffer_indicator (s : SocketManager T) (taskID : Fin T) (socketID : UInt8)
    (newBuffer newBufferSize indicatorWhenFinished : UInt32) (t : Fin T) (i : SocketID) :
    let s' := (s.setSendBuffer taskID socketID newBuffer newBufferSize indicatorWhenFinished).2
    s'.socketDescs t i = s.socketDescs t i ∨ t = taskID ∧
      ((s'.socketDescs t i).sendBufferIndicatorWhenFinished = 0 ∨
        (s'.socketDescs t i).sendBufferIndicatorWhenFinished = indicatorWhenFinished) := by
  have hset (m : SocketManager T) (hm : m.socketDescs = s.socketDescs) (j : SocketID) (d : SocketDesc)
      (hd : d.sendBufferIndicatorWhenFinished = 0 ∨ d.sendBufferIndicatorWhenFinished = indicatorWhenFinished) :
      (m.setDesc taskID j d).socketDescs t i = s.socketDescs t i ∨ t = taskID ∧
        (((m.setDesc taskID j d).socketDescs t i).sendBufferIndicatorWhenFinished = 0 ∨
          ((m.setDesc taskID j d).socketDescs t i).sendBufferIndicatorWhenFinished = indicatorWhenFinished) := by
    by_cases he : (t, i) = (taskID, j)
    · cases he
      rw [socketDescs_setDesc]
      exact .inr ⟨rfl, hd⟩
    · rw [socketDescs_setDesc_of_ne _ _ he, hm]
      exact .inl rfl
  unfold SocketManager.setSendBuffer
  split
  · dsimp only
    split
    · exact .inl rfl
    · split
      · exact .inl rfl
      · split
        · exact hset s rfl _ _ (.inl rfl)
        · cases hr : s.addRequest _ with
          | none => exact .inl rfl
          | some m => exact hset m (sameSockets_addRequest hr).2 _ _ (.inr rfl)
  · exact .inl rfl

theorem sendInv_otherSetSendBuffer {s t : Sending T} (h : SendInv E s) {taskID : Fin T} {socketID : UInt8}
    {newBuffer newBufferSize indicatorWhenFinished : UInt32} (hother : taskID ≠ E.taskID)
    (hapart : indicatorWhenFinished ≠ 0 → Apart indicatorWhenFinished E.indicator)
    (hstep : s.sockets.call (.setSendBuffer taskID socketID newBuffer newBufferSize indicatorWhenFinished) =
      some t.sockets) (hc : t.calling = s.calling) : SendInv E t := by
  have hl := call_listed h.listed hstep
  have ht : t.sockets = { s.sockets with
      manager := (s.sockets.manager.setSendBuffer taskID socketID newBuffer newBufferSize
        indicatorWhenFinished).2 } := (Option.some.inj hstep).symm
  have hind := setSendBuffer_indicator s.sockets.manager taskID socketID newBuffer newBufferSize indicatorWhenFinished
  have hown : (t.sockets.manager.socketDescs E.taskID E.socketID).sendBufferIndicatorWhenFinished =
      (s.sockets.manager.socketDescs E.taskID E.socketID).sendBufferIndicatorWhenFinished := by
    rw [ht]
    rcases hind E.taskID E.socketID with hsame | ⟨he, _⟩
    · rw [hsame]
    · exact absurd he.symm hother
  refine h.kept hl ?_ (fun hw => hw.kept h.listed ?_ hown) hown ?_ ?_ hc
  · rw [ht]
    exact sameSockets_setSendBuffer _ _ _ _ _ _
  · rw [ht]
    exact fun xs hq => setSendBuffer_queue hq taskID socketID newBuffer newBufferSize indicatorWhenFinished
  · rw [ht]
    intro t' i hne hnz
    rcases hind t' i with hsame | ⟨_, h0 | hi⟩
    · rw [hsame] at hnz ⊢
      exact h.others t' i hne hnz
    · exact absurd h0 hnz
    · rw [hi] at hnz ⊢
      exact hapart hnz
  · unfold Sending.flag
    rw [ht]

/-! ## Rounds of the network task -/

theorem sameIndicators_updateTop {s s' : SocketManager T} {udpPort : UInt16} {newFragmentOffset : UInt32}
    {newIdentification : UInt16} (h : s.updateTop udpPort newFragmentOffset newIdentification = some s') :
    SameIndicators s s' := by
  unfold updateTop at h
  obtain ⟨o, _, rfl⟩ := Option.map_eq_some_iff.mp h
  cases o with
  | none => exact fun _ _ => rfl
  | some ti =>
    dsimp only
    split
    · exact fun _ _ => rfl
    · exact sameIndicators_setDesc rfl

theorem sameIndicators_removeTop {s : SocketManager T} {mem : Mem} {udpPort : UInt16} {r : Bool × SocketManager T}
    (h : s.removeTop mem udpPort = some r) : SameIndicators s r.2 := by
  unfold removeTop at h
  obtain ⟨o, _, rfl⟩ := Option.map_eq_some_iff.mp h
  cases o with
  | none => exact fun _ _ => rfl
  | some ti =>
    dsimp only
    split
    · exact fun _ _ => rfl
    · split
      · exact fun _ _ => rfl
      · exact sameIndicators_setDesc rfl

/-- The state with other sockets. -/
def Sending.setSockets (s : Sending T) (sockets : Sockets T) : Sending T := { s with sockets := sockets }

theorem sendInv_updateTop {s : Sending T} {sockets : Sockets T} (h : SendInv E s) {newFragmentOffset : UInt32}
    {newIdentification : UInt16}
    (hstep : s.sockets.call (.updateTop newFragmentOffset newIdentification) = some sockets) :
    SendInv E (s.setSockets sockets) := by
  have hl := call_listed h.listed hstep
  obtain ⟨e, _, hstep⟩ := Option.bind_eq_some_iff.mp hstep
  obtain ⟨m, hm, rfl⟩ := Option.map_eq_some_iff.mp hstep
  exact h.same hl ((sameSockets_transmission _ s.sockets.mem _ _ _).1 m hm)
    (requestsKept_of_sameQueue (onlyBound_updateTop hm).sameQueue) (sameIndicators_updateTop hm) rfl rfl

theorem sendInv_removeTop {s : Sending T} {udpPort : UInt16} {r : Bool × SocketManager T} (h : SendInv E s)
    (hr : s.sockets.manager.removeTop s.sockets.mem udpPort = some r) :
    SendInv E (s.setSockets { s.sockets with manager := r.2 }) :=
  h.same (h.listed.of_sameQueue (onlyBound_removeTop hr).sameQueue rfl)
    ((sameSockets_transmission _ _ _ 0 0).2.1 r hr) (requestsKept_of_sameQueue (onlyBound_removeTop hr).sameQueue)
    (sameIndicators_removeTop hr) rfl rfl

/-- Moving the iterator. -/
theorem sendInv_cursor {s : Sending T} {c : ReqPtr} (h : SendInv E s) (hl : Listed { s.sockets with cursor := c }) :
    SendInv E (s.setSockets { s.sockets with cursor := c }) :=
  h.same hl (.refl _) (requestsKept_of_sameQueue (.refl _)) (fun _ _ => rfl) rfl rfl

theorem sendInv_relocateToEnd {s : Sending T} {sockets : Sockets T} (h : SendInv E s)
    (hstep : s.sockets.call .relocateToEnd = some sockets) : SendInv E (s.setSockets sockets) := by
  have hl := call_listed h.listed hstep
  obtain ⟨r, hr, rfl⟩ := Option.map_eq_some_iff.mp hstep
  obtain ⟨htables, hkept⟩ := relocateToEnd_kept h.listed hr
  exact h.same hl (sameSockets_relocateToEnd hr) hkept (sameIndicators_of_sameTables htables) rfl rfl

/-- The request of the server is finished. -/
theorem SendInv.finished {s t : Sending T} (h : SendInv E s) (hl : Listed t.sockets)
    (hs : SameSockets s.sockets.manager t.sockets.manager)
    (hown : (t.sockets.manager.socketDescs E.taskID E.socketID).sendBufferIndicatorWhenFinished = 0)
    (hothers : ∀ t' i, (t', i) ≠ (E.taskID, E.socketID) →
      t.sockets.manager.socketDescs t' i = s.sockets.manager.socketDescs t' i)
    (hflag : t.flag E = 0 → s.calling ≠ none) (hc : t.calling = s.calling) : SendInv E t where
  listed := hl
  owned := hs.owned h.owned
  active := by rw [hs.isActive]; exact h.active
  port := by rw [hs.udpPort]; exact h.port
  own := .inl hown
  others := by
    intro t' i hne
    rw [hothers t' i hne]
    exact h.others t' i hne
  size := by rw [hc]; exact h.size
  pending := by
    rw [hc]
    exact fun h0 hnone => absurd hnone (hflag h0)

/-- The indicator after the server's request is finished: it is set, or was not
cleared. -/
theorem flag_finished {s : Sending T} (h : SendInv E s)
    (hflag : readWord (if (s.sockets.manager.socketDescs E.taskID E.socketID).sendBufferIndicatorWhenFinished ≠ 0 then
        writeBytes s.sockets.mem (s.sockets.manager.socketDescs E.taskID E.socketID).sendBufferIndicatorWhenFinished
          (fun k => if k = 0 then 1 else 0) 4
      else s.sockets.mem) E.indicator = 0) : s.calling ≠ none := by
  intro hnone
  rcases h.own with h0 | hind
  · rw [h0, if_neg (by simp)] at hflag
    exact E.indicator_ne ((h.pending hflag hnone).2.symm.trans h0)
  · rw [hind, if_pos E.indicator_ne, readWord_writeBytes_self] at hflag
    exact absurd hflag (by decide)

/-- The server is told that its own request is finished, and nobody else's. -/
theorem sendInv_indicateAsFinished {s : Sending T} {sockets : Sockets T} (h : SendInv E s)
    (hstep : s.sockets.call .indicateAsFinished = some sockets) :
    SendInv E (s.setSockets sockets) ∧ ∀ e, sockets.cursor = some e → sockets.manager.request e = E.udpPort →
      (sockets.manager.socketDescs E.taskID E.socketID).sendBufferIndicatorWhenFinished = 0 := by
  have hl := call_listed h.listed hstep
  obtain ⟨e, he, hstep⟩ := Option.bind_eq_some_iff.mp hstep
  obtain ⟨⟨m, mem⟩, hr, rfl⟩ := Option.map_eq_some_iff.mp hstep
  have hs : SameSockets s.sockets.manager m := (sameSockets_transmission _ _ _ 0 0).2.2 _ hr
  have hq : SameQueue s.sockets.manager m := (onlyBound_indicateAsFinished hr).sameQueue
  have hbound := boundSocket_of_owned h.owned h.active
  rw [h.port] at hbound
  -- a request for the server's port is bound to the server's socket
  have hport {e' : ReqElem} (he' : s.sockets.cursor = some e') (hreq : m.request e' = E.udpPort) :
      s.sockets.manager.boundSocket (s.sockets.manager.request e) = some (some (E.taskID, E.socketID)) := by
    cases he.symm.trans he'
    rw [hq.request] at hreq
    rw [hreq, hbound]
  rcases indicateAsFinished_cases hr with ⟨hnone, rfl, rfl⟩ | ⟨t, i, d, hsome, rfl, hd, rfl, _⟩
  · refine ⟨h.same hl hs (requestsKept_of_sameQueue hq) (fun _ _ => rfl) rfl rfl, fun e' he' hreq => ?_⟩
    rw [hport he' hreq] at hnone
    cases hnone
  · by_cases hown : (E.taskID, E.socketID) = (t, i)
    · cases hown
      have hzero : ((s.sockets.manager.setDesc E.taskID E.socketID d).socketDescs E.taskID
          E.socketID).sendBufferIndicatorWhenFinished = 0 := by
        rw [socketDescs_setDesc, hd]
      exact ⟨h.finished hl hs hzero (fun t' i' hne => socketDescs_setDesc_of_ne _ _ hne) (flag_finished h) rfl,
        fun _ _ _ => hzero⟩
    · have hsame := socketDescs_setDesc_of_ne s.sockets.manager d hown
      have hind := congrArg SocketDesc.sendBufferIndicatorWhenFinished hsame
      refine ⟨h.kept hl hs (fun hw => hw.kept h.listed (requestsKept_of_sameQueue hq) hind) hind ?_ ?_ rfl,
        fun e' he' hreq => ?_⟩
      · intro t' i' hne hnz
        by_cases he' : (t', i') = (t, i)
        · cases he'
          exact absurd ((congrArg _ (socketDescs_setDesc ..)).trans hd) hnz
        · change ((s.sockets.manager.setDesc t i d).socketDescs t' i').sendBufferIndicatorWhenFinished ≠ 0 at hnz
          show Apart ((s.sockets.manager.setDesc t i d).socketDescs t' i').sendBufferIndicatorWhenFinished _
          rw [socketDescs_setDesc_of_ne s.sockets.manager d he'] at hnz ⊢
          exact h.others t' i' hne hnz
      · unfold Sending.flag
        dsimp only [Sending.setSockets]
        split
        · rename_i hnz
          exact readWord_writeBytes_apart (h.others t i (Ne.symm hown) hnz)
        · rfl
      · rw [hport he' hreq] at hsome
        cases hsome
        exact absurd rfl hown

/-- The request at the iterator is removed, after its socket was told. -/
theorem sendInv_remove {s : Sending T} {sockets : Sockets T} (h : SendInv E s)
    (htold : ∀ e, s.sockets.cursor = some e → s.sockets.manager.request e = E.udpPort →
      (s.sockets.manager.socketDescs E.taskID E.socketID).sendBufferIndicatorWhenFinished = 0)
    (hstep : s.sockets.call .remove = some sockets) : SendInv E (s.setSockets sockets) := by
  have hl := call_listed h.listed hstep
  have hsockets : sockets = { s.sockets with
      manager := (s.sockets.manager.remove s.sockets.cursor).1
      cursor := (s.sockets.manager.remove s.sockets.cursor).2 } := (Option.some.inj hstep).symm
  cases hc : s.sockets.cursor with
  | none =>
    rw [hc] at hsockets
    subst hsockets
    exact sendInv_cursor h hl
  | some e =>
    rw [hc] at hsockets
    subst hsockets
    have hs := sameSockets_remove s.sockets.manager (some e)
    obtain ⟨as, bs, hq⟩ := h.listed.split hc
    obtain ⟨hq', _, hreq, hsame⟩ := remove_queue hq
    have hi := sameIndicators_of_sameTables hsame
    refine h.kept hl hs (fun hw => ?_) (hi _ _) (fun t i hne => ?_) rfl rfl
    · obtain ⟨⟨xs, hseg, e', he', hport⟩, hind⟩ := hw
      refine ⟨⟨as ++ bs, hq'.requests.forward, e', ?_, (congrFun hreq e').trans hport⟩, (hi _ _).trans hind⟩
      cases hseg.unique hq.requests.forward
      -- the removed request is not the server's
      have hne : e' ≠ e := by
        rintro rfl
        exact E.indicator_ne (hind.symm.trans (htold e' hc hport))
      simpa [hne] using he'
    · show ((s.sockets.manager.remove (some e)).1.socketDescs t i).sendBufferIndicatorWhenFinished ≠ 0 →
        Apart ((s.sockets.manager.remove (some e)).1.socketDescs t i).sendBufferIndicatorWhenFinished _
      rw [hi t i]
      exact h.others t i hne

theorem sendInv_finish {s : Sending T} {sockets : Sockets T} (h : SendInv E s)
    (hstep : s.sockets.finish = some sockets) : SendInv E (s.setSockets sockets) := by
  obtain ⟨middle, h1, h2⟩ := Option.bind_eq_some_iff.mp hstep
  obtain ⟨hinv, htold⟩ := sendInv_indicateAsFinished h h1
  have hremoved := sendInv_remove hinv htold h2
  exact hremoved

theorem sendInv_handleTransmissionRequest {s : Sending T} {sockets : Sockets T} {outcome : SendOutcome}
    (h : SendInv E s) (hmem : E.SameIndicator s.sockets.mem outcome.mem)
    (hstep : s.sockets.handleTransmissionRequest outcome = some sockets) : SendInv E (s.setSockets sockets) := by
  have hw := sendInv_userWrite h hmem
  obtain ⟨e, _, hstep⟩ := Option.bind_eq_some_iff.mp hstep
  obtain ⟨packet, _, hstep⟩ := Option.bind_eq_some_iff.mp hstep
  dsimp only at hstep
  split at hstep
  · have hfinished := sendInv_finish hw hstep
    exact hfinished
  · split at hstep
    · obtain ⟨⟨txRequestDone, manager⟩, hr, hstep⟩ := Option.bind_eq_some_iff.mp hstep
      have hremoved := sendInv_removeTop hw hr
      dsimp only at hstep
      split at hstep
      · have hfinished := sendInv_finish hremoved hstep
        exact hfinished
      · have hrelocated := sendInv_relocateToEnd hremoved hstep
        exact hrelocated
    · split at hstep
      · obtain ⟨middle, h1, h2⟩ := Option.bind_eq_some_iff.mp hstep
        have hupdated := sendInv_updateTop hw h1
        have hl := call_listed hupdated.listed h2
        cases h2
        have hnext := sendInv_cursor hupdated hl
        exact hnext
      · have hupdated := sendInv_updateTop hw hstep
        exact hupdated

/-! ## Runs -/

theorem sameIndicators_setReceiveBuffer (s : SocketManager T) (taskID : Fin T) (socketID : UInt8)
    (newBuffer newBufferSize : UInt32) :
    SameIndicators s (s.setReceiveBuffer taskID socketID newBuffer newBufferSize).2 := by
  unfold setReceiveBuffer
  split
  · dsimp only
    split
    · exact fun _ _ => rfl
    · split
      · exact fun _ _ => rfl
      · exact sameIndicators_setDesc rfl
  · exact fun _ _ => rfl

theorem sendInv_constructed (hT : T ≤ 256) {s : Sending T} (h : Constructed E s) : SendInv E s := by
  obtain ⟨start, cs, before, receiveBuffer, receiveBufferSize, hstart, hrun, hapart, hopen, hmanager, hcursor, hflag, _,
    hcalling⟩ := h
  have hlisted := listed_of_run hstart hrun
  have howned := owned_of_reachable hT ⟨start, cs, hstart.1, hrun⟩
  obtain ⟨⟨d, hd, hactive, hport, hzero⟩, hothers⟩ := openSocket_opened hopen
  have hs := sameSockets_setReceiveBuffer (before.manager.openSocket E.taskID E.udpPort).2 E.taskID (socketByte E.socketID)
    receiveBuffer receiveBufferSize
  have hi := sameIndicators_setReceiveBuffer (before.manager.openSocket E.taskID E.udpPort).2 E.taskID (socketByte E.socketID)
    receiveBuffer receiveBufferSize
  rw [← hmanager] at hs hi
  refine ⟨?_, hs.owned (owned_openSocket hT howned E.taskID E.udpPort), ?_, ?_, .inl ?_, fun t i hne => ?_,
    fun call hcall => ?_, fun h0 => ?_⟩
  · refine hlisted.of_sameQueue ?_ hcursor
    rw [hmanager]
    exact (sameQueue_openSocket ..).trans (sameQueue_setReceiveBuffer ..)
  · rw [hs.isActive, hd, hactive]
    decide
  · rw [hs.udpPort, hd, hport]
  · rw [hi, hd, hzero]
  · rw [hi, hothers t i hne]
    exact hapart t i
  · rw [hcalling] at hcall
    cases hcall
  · rw [hflag] at h0
    exact absurd h0 (by decide)

theorem sendInv_step {s t : Sending T} {l : SendStep T} (h : SendInv E s) (hsend : Sendable s l)
    (hstep : sendStep E s l t) : SendInv E t := by
  cases l with
  | writeResponse sourceIP sourcePort udpPayload udpPayloadSize header offset ps =>
    obtain ⟨_, rfl⟩ := hstep
    exact sendInv_writeResponse h _
  | attemptWriteBufferSwap =>
    obtain ⟨_, rfl⟩ := hstep
    exact sendInv_attemptWriteBufferSwap h
  | setSendBuffer =>
    obtain ⟨call, hcall, rfl⟩ := hstep
    exact sendInv_setSendBuffer h hcall (hsend call hcall)
  | otherSetSendBuffer taskID socketID newBuffer newBufferSize indicatorWhenFinished =>
    obtain ⟨hother, hapart, hcall, _, hc⟩ := hstep
    exact sendInv_otherSetSendBuffer h hother hapart hcall hc
  | userWrite mem =>
    obtain ⟨hmem, rfl⟩ := hstep
    exact sendInv_userWrite h hmem
  | getTransmissionRequestsIterator =>
    obtain ⟨hcall, hserver, hc⟩ := hstep
    have hl := call_listed h.listed hcall
    cases t
    cases hcall
    cases hserver
    cases hc
    exact sendInv_cursor h hl
  | handleTransmissionRequest outcome =>
    obtain ⟨hmem, hcall, hserver, hc⟩ := hstep
    have hround := sendInv_handleTransmissionRequest h hmem hcall
    cases t
    cases hserver
    cases hc
    exact hround

variable (E)

/-- In a run in which every system call of the server can send, the server
waits only for a request that is there, and its system calls succeed. -/
theorem waits_for_request (hT : T ≤ 256) (s : Sending T) (hs : ((sendLTS E).Guarded Sendable).Reachable s) :
    (s.flag E = 0 → s.calling = none → Waiting E s) ∧
      ∀ call, s.calling = some call → CanSend s call → (s.setSendBuffer E call).1 = 0 := by
  have hinv : SendInv E s := by
    refine LTS.Inductive.reachable (I := SendInv E) ⟨fun s hi => ?_, fun s l t hinv hstep => ?_⟩ s hs
    · exact sendInv_constructed hT hi
    · exact sendInv_step hinv hstep.1 hstep.2
  refine ⟨hinv.pending, fun call hcall hsend => ?_⟩
  obtain ⟨m, e, xs, _, _, _, _, hset⟩ := setSendBuffer_accepted hinv hcall hsend
  rw [hset]

end

/-! ## A server and another task -/

theorem indicatorAddress_ne : (0x2000 : UInt32) ≠ 0 := by decide

/-- The server is task 0, on port 5683. -/
def coapEndpoint : Endpoint 2 where
  taskID := ⟨0, Nat.two_pos⟩
  socketID := ⟨0, firstSocket_lt⟩
  udpPort := 5683
  indicator := 0x2000
  writeBuffers current := if current then 0x60000 else 0x30000
  indicator_ne := indicatorAddress_ne

def blankTables : SocketManager 2 where
  socketDescs _ _ := ⟨0, 0, 0, 0, 0, 0, 0, 0, 0⟩
  udpPortStates _ := ⟨0, 0, 0⟩
  next _ := none
  prev _ := none
  request _ := 0
  transmissionRequestsHead := none
  transmissionRequestsTail := none
  unusedTransmissionRequestsHead := none

/-- Task 1 has opened port 81; then the server was constructed. -/
def idleServer : Sending 2 where
  sockets :=
    { manager := ((((SocketManager.init blankTables).openSocket ⟨1, Nat.one_lt_two⟩ 81).2.openSocket
        ⟨0, Nat.two_pos⟩ 5683).2.setReceiveBuffer ⟨0, Nat.two_pos⟩ 0 0x100000 0x30000).2
      mem := fun a => if a = 0x2000 then 1 else 0
      cursor := none }
  server :=
    { pathListElements := fun _ => ⟨[], 0, fun _ _ _ _ => (⟨0, 0, .textPlainCharsetUTF8⟩, fun _ => 0), Nat.zero_le _⟩
      used := []
      writeBuffers := fun _ _ => 0
      currentlySendingWritebuffer := true
      currentlySendingWritebufferIndicatorWhenFinished := 1
      currentlyWrittenToWriteBufferDataLen := 0
      dataLen_le := Nat.zero_le _ }
  calling := none

theorem constructed_idleServer : Constructed coapEndpoint idleServer := by
  refine ⟨⟨SocketManager.init blankTables, idleServer.sockets.mem, none⟩, [.openSocket ⟨1, Nat.one_lt_two⟩ 81],
    ⟨((SocketManager.init blankTables).openSocket ⟨1, Nat.one_lt_two⟩ 81).2, idleServer.sockets.mem, none⟩,
    0x100000, 0x30000, ⟨⟨_, rfl⟩, rfl⟩, .cons rfl (.nil _), fun t i hnz => absurd ?_ hnz, ?_, rfl, rfl, ?_, rfl, rfl⟩
  · revert t i
    decide +kernel
  · decide +kernel
  · decide +kernel

/-- Task 1 calls `setSendBuffer` `n` times. -/
def busySockets : Nat → Sockets 2
  | 0 => idleServer.sockets
  | n + 1 => { busySockets n with
      manager := ((busySockets n).manager.setSendBuffer ⟨1, Nat.one_lt_two⟩ 0 0x300000 16 0x4000).2 }

/-- A request for a path nobody handles. -/
def unhandledPath : PathState :=
  ⟨fun _ => 0, 1, [], idleServer.server.pathListElements, .textPlainCharsetUTF8⟩

/-- The server has a "not found" response to send. -/
def answered (sockets : Sockets 2) : Sending 2 where
  sockets := sockets
  server := (idleServer.server.writeResponse 0x0200000A 5683 (fun _ => 0) 4 ⟨false, 0, 1, 0, 0, []⟩ 4
    unhandledPath).val.1
  calling := none

/-- The server is inside `setSendBuffer`. -/
def swapping (sockets : Sockets 2) : Sending 2 := (answered sockets).attemptWriteBufferSwap coapEndpoint

/-- The server is back from `setSendBuffer`. -/
def swapped (sockets : Sockets 2) : Sending 2 := ((swapping sockets).setSendBuffer coapEndpoint ⟨false, 20⟩).2

theorem apart_of_le {a b : UInt32} (h1 : 4 ≤ (a - b).toNat) (h2 : 4 ≤ (b - a).toNat) : Apart a b := by
  intro x hxa hxb
  rcases Nat.le_total (x - a).toNat (x - b).toNat with hle | hle
  · have hab : a - b = (x - b) - (x - a) := (sub_sub_sub_cancel_left b a x).symm
    rw [hab, UInt32.toNat_sub_of_le _ _ (UInt32.le_iff_toNat_le.mpr hle)] at h1
    omega
  · have hba : b - a = (x - a) - (x - b) := (sub_sub_sub_cancel_left a b x).symm
    rw [hba, UInt32.toNat_sub_of_le _ _ (UInt32.le_iff_toNat_le.mpr hle)] at h2
    omega

def answerSteps : List (SendStep 2) :=
  [.writeResponse 0x0200000A 5683 (fun _ => 0) 4 ⟨false, 0, 1, 0, 0, []⟩ 4 unhandledPath, .attemptWriteBufferSwap,
    .setSendBuffer]

theorem run_swapped {sockets : Sockets 2} (hcall : (swapping sockets).calling = some ⟨false, 20⟩) :
    (sendLTS coapEndpoint).Run ⟨sockets, idleServer.server, none⟩ answerSteps (swapped sockets) :=
  .cons ⟨rfl, rfl⟩ (.cons ⟨rfl, rfl⟩ (.cons ⟨_, hcall, rfl⟩ (.nil _)))

theorem reachable_busySockets (n : Nat) :
    (sendLTS coapEndpoint).Reachable ⟨busySockets n, idleServer.server, none⟩ := by
  induction n with
  | zero => exact ⟨idleServer, [], constructed_idleServer, .nil _⟩
  | succ n ih =>
    refine ih.step (l := .otherSetSendBuffer ⟨1, Nat.one_lt_two⟩ 0 0x300000 16 0x4000) ?_
    exact ⟨by decide, fun _ => apart_of_le (by decide) (by decide), rfl, rfl, rfl⟩

/-- Task 1 uses all request elements; then the server answers a request. -/
theorem busy_server_stuck : ∃ s, (sendLTS coapEndpoint).Reachable s ∧ s.flag coapEndpoint = 0 ∧ s.calling = none ∧
    ¬ Waiting coapEndpoint s := by
  have hcall : (swapping (busySockets MAX_NUM_TRANSMISSION_REQUESTS)).calling = some ⟨false, 20⟩ := by decide +kernel
  refine ⟨swapped (busySockets MAX_NUM_TRANSMISSION_REQUESTS), (reachable_busySockets _).run (run_swapped hcall),
    by decide +kernel, rfl, fun hw => ?_⟩
  exact absurd hw.2 (by decide +kernel)

/-- With an unused element the server waits for a request that is there. -/
theorem waits_for_request_idle : (swapped idleServer.sockets).flag coapEndpoint = 0 ∧
    Waiting coapEndpoint (swapped idleServer.sockets) := by
  have hcall : (swapping idleServer.sockets).calling = some ⟨false, 20⟩ := by decide +kernel
  have hsend : CanSend (swapping idleServer.sockets) ⟨false, 20⟩ :=
    show _ ∧ _ from ⟨by decide +kernel, by decide⟩
  have hflag : (swapped idleServer.sockets).flag coapEndpoint = 0 := by decide +kernel
  refine ⟨hflag, (waits_for_request coapEndpoint (by decide) _ ?_).1 hflag rfl⟩
  refine ⟨idleServer, answerSteps, constructed_idleServer, .cons ⟨trivial, rfl, rfl⟩ (.cons ⟨trivial, rfl, rfl⟩
    (.cons ⟨fun call hc => ?_, _, hcall, rfl⟩ (.nil _)))⟩
  cases hcall.symm.trans hc
  exact hsend

end CpuScheduler.L6
