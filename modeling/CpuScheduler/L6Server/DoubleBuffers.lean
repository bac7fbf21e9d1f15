import CpuScheduler.L3Sockets.KernelWrites
import CpuScheduler.L6Server.PathBounds
import CpuScheduler.L6Server.SendBuffer
import CpuScheduler.L6Server.ReceiveBuffer

/-!
# Who owns which half

The server has two receive buffers and two write buffers. Which half belongs
to the server and which to the kernel is nowhere written down: it follows
from `currentlyWrittenToReceiveBuffer`, `currentlySendingWritebuffer`, the
indicator, and the pointers in the server's socket descriptor, and these
change at different moments.

`servingLTS` puts the steps of both directions together. The steps of the
server may come in any order (the write buffers are swapped from three
places), the other tasks make any calls with memory of their own, and the
system calls of the server may fail: `setSendBuffer` when no request element
is left, `setReceiveBuffer` when the constructor got no socket.

`buffers_owned`: the server writes no byte of the write buffer that the
kernel holds, and the kernel writes no byte of the receive buffer that the
server is decoding.
-/
namespace CpuScheduler.L6

open Links L2 L3 L3.SocketManager L4

/-- Where the fields of the server are, from the receive buffers on.
mirrors coap_server.h:95-100 -/
structure Placement (T : Nat) where
  taskID : Fin T
  udpPort : UInt16
  receiveBuffers : UInt32

def WRITE_BUFFERS_OFFSET : Nat := 2 * RECEIVE_BUFFER_SIZE + 4
def INDICATOR_OFFSET : Nat := WRITE_BUFFERS_OFFSET + 2 * WRITE_BUFFER_SIZE + 4

/-- Where a write buffer starts. -/
def writeOffset (b : Bool) : Nat := WRITE_BUFFERS_OFFSET + if b then WRITE_BUFFER_SIZE else 0

namespace Placement

variable {T : Nat} (P : Placement T)

def fields : Span := ⟨P.receiveBuffers, INDICATOR_OFFSET + 4⟩

def receiveHalf (b : Bool) : Span := ⟨P.receiveBuffers + UInt32.ofNat (bufferOffset b), RECEIVE_BUFFER_SIZE⟩

def writeHalf (b : Bool) : Span := ⟨P.receiveBuffers + UInt32.ofNat (writeOffset b), WRITE_BUFFER_SIZE⟩

/-- Address of `currentlySendingWritebufferIndicatorWhenFinished`. -/
def indicator : UInt32 := P.receiveBuffers + UInt32.ofNat INDICATOR_OFFSET

theorem receiveHalf_within (b : Bool) : (P.receiveHalf b).Within P.fields :=
  Span.within_of_le (by cases b <;> decide) (by decide)

theorem indicator_within : Span.Within ⟨P.indicator, 4⟩ P.fields :=
  Span.within_of_le (by decide) (by decide)

theorem receiveHalves_apart (b : Bool) : (P.receiveHalf b).Apart (P.receiveHalf (!b)) := by
  cases b with
  | false => exact Span.apart_of_le (by decide) (by decide)
  | true => exact (Span.apart_of_le (by decide) (by decide)).symm

theorem writeHalves_apart (b : Bool) : (P.writeHalf b).Apart (P.writeHalf (!b)) := by
  cases b with
  | false => exact Span.apart_of_le (by decide) (by decide)
  | true => exact (Span.apart_of_le (by decide) (by decide)).symm

theorem receiveHalf_apart_writeHalf (b c : Bool) : (P.receiveHalf b).Apart (P.writeHalf c) :=
  Span.apart_of_le (by cases b <;> cases c <;> decide) (by cases c <;> decide)

theorem receiveHalf_apart_indicator (b : Bool) : (P.receiveHalf b).Apart ⟨P.indicator, 4⟩ :=
  Span.apart_of_le (by cases b <;> decide) (by decide)

end Placement

/-! ## The system -/

/-- `socketID` is what the constructor got from `openSocket`, as it is passed in
system calls. -/
structure Serving (T : Nat) where
  sockets : Sockets T
  server : CoAPServer
  socketID : UInt8
  currentlyWrittenToReceiveBuffer : Bool
  phase : Phase
  calling : Option SendCall

inductive ServingStep (T : Nat) where
  | attemptReceiveBufferSwap
  | attemptWriteBufferSwap
  | setSendBuffer
  | writeResponse (sourceIP : UInt32) (sourcePort : UInt16) (udpPayload : Nat → UInt8) (udpPayloadSize : Nat)
      (h : Header) (offset : Nat) (s : PathState)
  | call (c : SocketCall T)
  | handleTransmissionRequest (outcome : SendOutcome)

section
variable {T : Nat} (P : Placement T)

namespace Serving

/-- `currentlySendingWritebufferIndicatorWhenFinished` -/
def flag (s : Serving T) : UInt32 := readWord s.sockets.mem P.indicator

/-- The bytes of the receive buffers. -/
def buffers (s : Serving T) : Nat → UInt8 := view s.sockets.mem P.receiveBuffers

/-- One step of `attemptReceiveBufferSwap`; the handling of a datagram is made
of the other steps. mirrors coap_server.cpp:139-161, syscalls.cpp:27-46 -/
def attemptReceiveBufferSwap (s : Serving T) : Serving T :=
  let first := bufferOffset s.currentlyWrittenToReceiveBuffer
  let other := (P.receiveHalf (!s.currentlyWrittenToReceiveBuffer)).start
  match s.phase with
  | .idle => { s with phase := if s.buffers P (first + 6) ≠ 0 then .swapping else .second }
  | .second => { s with phase := if s.buffers P (first + 7) ≠ 0 then .swapping else .idle }
  | .swapping =>
    { s with
      sockets := { s.sockets with mem := writeBytes s.sockets.mem other (fun _ => 0) RECEIVE_BUFFER_HEADER_SIZE }
      phase := .cleared }
  | .cleared =>
    { s with
      sockets := { s.sockets with
        manager := (s.sockets.manager.setReceiveBuffer P.taskID s.socketID other (UInt32.ofNat RECEIVE_BUFFER_SIZE)).2 }
      phase := .draining 0 }
  | .draining offset =>
    if s.buffers P (first + offset + 6) ≠ 0 ∨ s.buffers P (first + offset + 7) ≠ 0 then
      { s with phase := .draining (offset + (readDatagram (s.buffers P) (first + offset)).size) }
    else { s with currentlyWrittenToReceiveBuffer := !s.currentlyWrittenToReceiveBuffer, phase := .idle }

/-- The part of `attemptWriteBufferSwap` in front of the system call.
mirrors coap_server.cpp:163-169, syscalls.cpp:48-51 -/
def attemptWriteBufferSwap (s : Serving T) : Serving T :=
  match { s.server with currentlySendingWritebufferIndicatorWhenFinished := s.flag P }.attemptWriteBufferSwap with
  | (server, none) => { s with server := server }
  | (server, some call) =>
    { s with
      sockets := { s.sockets with mem := writeWord s.sockets.mem P.indicator 0 }
      server := server
      calling := some call }

/-- The system call. -/
def setSendBuffer (s : Serving T) (call : SendCall) : Serving T :=
  { s with
    sockets := { s.sockets with
      manager := (s.sockets.manager.setSendBuffer P.taskID s.socketID (P.writeHalf call.buffer).start
        (UInt32.ofNat call.bufferSize) P.indicator).2 }
    calling := none }

end Serving

/-- The calls that are not the server's: the other tasks use memory of their
own, packets have 16-bit sizes, and only the server and the kernel write the
indicator. -/
def Foreign (s : Serving T) : SocketCall T → Prop
  | .setReceiveBuffer _ _ newBuffer newBufferSize => Span.Apart ⟨newBuffer, newBufferSize.toNat⟩ P.fields
  | .setSendBuffer _ _ newBuffer newBufferSize indicatorWhenFinished =>
    Span.Apart ⟨newBuffer, newBufferSize.toNat⟩ P.fields ∧
      (indicatorWhenFinished ≠ 0 → Span.Apart ⟨indicatorWhenFinished, 4⟩ P.fields)
  | .received _ packet fragments => Sized (packet :: fragments)
  | .userWrite mem => ∀ x, Span.Mem ⟨P.indicator, 4⟩ x → mem x = s.sockets.mem x
  | _ => True

/-- Only the sockets change. -/
def Serving.setSockets (s : Serving T) (sockets : Sockets T) : Serving T := { s with sockets := sockets }

def servingStep (s : Serving T) : ServingStep T → Serving T → Prop
  | .attemptReceiveBufferSwap, t => s.calling = none ∧ t = s.attemptReceiveBufferSwap P
  | .attemptWriteBufferSwap, t => s.calling = none ∧ t = s.attemptWriteBufferSwap P
  | .setSendBuffer, t => ∃ call, s.calling = some call ∧ t = s.setSendBuffer P call
  | .writeResponse sourceIP sourcePort udpPayload udpPayloadSize h offset ps, t =>
    s.calling = none ∧ h.token.length = h.tokenLength ∧
      t = { s with
        server := (s.server.writeResponse sourceIP sourcePort udpPayload udpPayloadSize h offset ps).val.1 }
  | .call c, t => c.BetweenRounds ∧ c.caller ≠ some P.taskID ∧ Foreign P s c ∧
      ∃ sockets, s.sockets.call c = some sockets ∧ t = s.setSockets sockets
  | .handleTransmissionRequest outcome, t =>
    (∀ x, Span.Mem ⟨P.indicator, 4⟩ x → outcome.mem x = s.sockets.mem x) ∧
      ∃ sockets, s.sockets.handleTransmissionRequest outcome = some sockets ∧ t = s.setSockets sockets

/-- The buffers of a socket that is not the server's. -/
structure ForeignSocket (d : SocketDesc) : Prop where
  received : d.received.Apart P.fields
  sent : d.sent.Apart P.fields
  indicator : d.sendBufferIndicatorWhenFinished ≠ 0 →
    Span.Apart ⟨d.sendBufferIndicatorWhenFinished, 4⟩ P.fields

/-- The server has been constructed on sockets that any calls have made;
`openSocket` may have failed.
mirrors coap_server.cpp:59-82, syscalls.cpp:27-46 -/
def ServingConstructed (s : Serving T) : Prop :=
  ∃ start cs before, Started start ∧ (socketLTS T).Run start cs before ∧
    (∀ t i, ForeignSocket P (before.manager.socketDescs t i)) ∧
    s.socketID = UInt8.ofNat ((before.manager.openSocket P.taskID P.udpPort).1 % 256).toNat ∧
    s.sockets.manager = ((before.manager.openSocket P.taskID P.udpPort).2.setReceiveBuffer P.taskID s.socketID
      (P.receiveHalf false).start (UInt32.ofNat RECEIVE_BUFFER_SIZE)).2 ∧
    s.sockets.cursor = before.cursor ∧ s.flag P = 1 ∧
    s.server.currentlySendingWritebuffer = true ∧ s.server.currentlyWrittenToWriteBufferDataLen = 0 ∧
    s.currentlyWrittenToReceiveBuffer = false ∧ s.phase = .idle ∧ s.calling = none

def servingLTS : LTS (Serving T) (ServingStep T) where
  init := ServingConstructed P
  step := servingStep P

/-! ## The invariant -/

/-- The receive buffer the kernel fills. -/
def Serving.filled (s : Serving T) : Bool :=
  match s.phase with
  | .draining _ => !s.currentlyWrittenToReceiveBuffer
  | _ => s.currentlyWrittenToReceiveBuffer

/-- The server's own socket. -/
structure OwnSocket (s : Serving T) (d : SocketDesc) : Prop where
  active : d.isActive ≠ 0
  received : d.received.Within (P.receiveHalf s.filled)
  sent : d.sent.Within (P.writeHalf s.server.currentlySendingWritebuffer)
  indicator : d.sendBufferIndicatorWhenFinished = 0 ∨ d.sendBufferIndicatorWhenFinished = P.indicator
  idle : s.flag P = 1 ∨ s.calling ≠ none → d.sendBufferSize = 0 ∧ d.sendBufferIndicatorWhenFinished = 0

def Serving.Own (s : Serving T) (t : Fin T) (i : SocketID) : Prop := t = P.taskID ∧ i.val = s.socketID.toNat

structure ServingInv (s : Serving T) : Prop where
  queue : QueueInv s.sockets
  own : ∀ t i, s.Own P t i → OwnSocket P s (s.sockets.manager.socketDescs t i)
  foreign : ∀ t i, ¬ s.Own P t i → ForeignSocket P (s.sockets.manager.socketDescs t i)
  cleared : s.calling ≠ none → s.flag P = 0
  call : ∀ call, s.calling = some call →
    call.buffer = s.server.currentlySendingWritebuffer ∧ call.bufferSize ≤ WRITE_BUFFER_SIZE

variable {P}

theorem ForeignSocket.shrinks {d d' : SocketDesc} (h : ForeignSocket P d) (hd : Shrinks d d') : ForeignSocket P d' where
  received := h.received.mono hd.received (.refl _)
  sent := h.sent.mono hd.sent (.refl _)
  indicator hne := by
    rcases hd.indicator with h0 | hsame
    · exact absurd h0 hne
    · rw [hsame] at hne ⊢
      exact h.indicator hne

theorem ForeignSocket.empty {d : SocketDesc} (hr : d.receiveBufferSize = 0) (hs : d.sendBufferSize = 0)
    (hi : d.sendBufferIndicatorWhenFinished = 0) : ForeignSocket P d where
  received := Span.apart_of_empty _ (by simp [SocketDesc.received, hr])
  sent := Span.apart_of_empty _ (by simp [SocketDesc.sent, hs])
  indicator hne := absurd hi hne

/-- The server's socket, when its buffers only shrink. -/
theorem OwnSocket.shrinks {s s' : Serving T} {d d' : SocketDesc} (h : OwnSocket P s d) (hd : Shrinks d d')
    (hact : d'.isActive = d.isActive) (hfilled : s'.filled = s.filled)
    (hserver : s'.server.currentlySendingWritebuffer = s.server.currentlySendingWritebuffer)
    (hidle : s'.flag P = 1 ∨ s'.calling ≠ none →
      (s.flag P = 1 ∨ s.calling ≠ none) ∨ d'.sendBufferSize = 0 ∧ d'.sendBufferIndicatorWhenFinished = 0) :
    OwnSocket P s' d' where
  active := hact ▸ h.active
  received := hfilled ▸ hd.received.trans h.received
  sent := hserver ▸ hd.sent.trans h.sent
  indicator := by
    rcases hd.indicator with h0 | hsame
    · exact .inl h0
    · exact hsame ▸ h.indicator
  idle hcond := by
    rcases hidle hcond with hbefore | hdone
    · obtain ⟨h0, hi⟩ := h.idle hbefore
      refine ⟨hd.empty h0, ?_⟩
      rcases hd.indicator with hi' | hsame
      · exact hi'
      · exact hsame.trans hi
    · exact hdone

theorem flag_congr {s t : Serving T}
    (h : ∀ x, Span.Mem ⟨P.indicator, 4⟩ x → t.sockets.mem x = s.sockets.mem x) : t.flag P = s.flag P :=
  readWord_congr h

theorem filled_congr {s t : Serving T} (hphase : t.phase = s.phase)
    (hcurrent : t.currentlyWrittenToReceiveBuffer = s.currentlyWrittenToReceiveBuffer) : t.filled = s.filled := by
  unfold Serving.filled
  rw [hphase, hcurrent]

/-- The server swaps its write buffers while the kernel holds none. -/
theorem OwnSocket.swapped {s t : Serving T} {d : SocketDesc} (h : OwnSocket P s d)
    (hidle : d.sendBufferSize = 0 ∧ d.sendBufferIndicatorWhenFinished = 0) (hphase : t.phase = s.phase)
    (hcurrent : t.currentlyWrittenToReceiveBuffer = s.currentlyWrittenToReceiveBuffer) : OwnSocket P t d where
  active := h.active
  received := by
    rw [filled_congr hphase hcurrent]
    exact h.received
  sent := Span.within_of_empty _ (by simp [SocketDesc.sent, hidle.1])
  indicator := h.indicator
  idle _ := hidle

/-- A step that leaves the sockets and the indicator alone. -/
theorem ServingInv.same {s t : Serving T} (h : ServingInv P s) (hq : QueueInv t.sockets)
    (hm : t.sockets.manager = s.sockets.manager) (hid : t.socketID = s.socketID) (hfilled : t.filled = s.filled)
    (hserver : t.server.currentlySendingWritebuffer = s.server.currentlySendingWritebuffer)
    (hflag : t.flag P = s.flag P) (hc : t.calling = s.calling) : ServingInv P t where
  queue := hq
  own t' i ho := by
    rw [hm]
    refine (h.own t' i ⟨ho.1, hid ▸ ho.2⟩).shrinks (.refl _) rfl hfilled hserver fun hcond => ?_
    rw [hflag, hc] at hcond
    exact .inl hcond
  foreign t' i ho := by
    rw [hm]
    exact h.foreign t' i fun ho' => ho ⟨ho'.1, hid ▸ ho'.2⟩
  cleared := by
    rw [hc, hflag]
    exact h.cleared
  call := by
    rw [hc, hserver]
    exact h.call

/-! ## Steps of the server -/

theorem queueInv_setMem {sockets : Sockets T} (h : QueueInv sockets) (mem : Mem) :
    QueueInv { sockets with mem := mem } := ⟨h.listed.of_sameQueue (.refl _) rfl, h.owned, h.inRange⟩

theorem setReceiveBuffer_accepted {s : SocketManager T} {taskID : Fin T} {socketID : UInt8} {i : SocketID}
    (newBuffer : UInt32) {newBufferSize : UInt32} (hi : i.val = socketID.toNat) (hact : (s.socketDescs taskID i).isActive ≠ 0)
    (hsize : 2 * RECEIVE_BUFFER_HEADER_SIZE ≤ newBufferSize.toNat) :
    (s.setReceiveBuffer taskID socketID newBuffer newBufferSize).1 = 0 := by
  have hlt : socketID.toNat < MAX_NUM_SOCKETS_PER_TASK := hi ▸ i.isLt
  have hid : (⟨socketID.toNat, hlt⟩ : SocketID) = i := Fin.ext hi.symm
  unfold setReceiveBuffer
  rw [dif_pos hlt, if_neg (fun hsmall => absurd hsmall.1 (Nat.not_lt.mpr hsize))]
  dsimp only
  rw [hid, if_neg hact]

theorem receiveBufferSize_word : (UInt32.ofNat RECEIVE_BUFFER_SIZE).toNat = RECEIVE_BUFFER_SIZE := by decide

theorem servingInv_attemptReceiveBufferSwap (hT : T ≤ 256) {s : Serving T} (h : ServingInv P s) :
    ServingInv P (s.attemptReceiveBufferSwap P) := by
  unfold Serving.attemptReceiveBufferSwap
  dsimp only
  split
  · rename_i hphase
    refine h.same h.queue rfl rfl ?_ rfl rfl rfl
    unfold Serving.filled
    rw [hphase]
    by_cases hb : s.buffers P (bufferOffset s.currentlyWrittenToReceiveBuffer + 6) ≠ 0
    · rw [if_pos hb]
    · rw [if_neg hb]
  · rename_i hphase
    refine h.same h.queue rfl rfl ?_ rfl rfl rfl
    unfold Serving.filled
    rw [hphase]
    by_cases hb : s.buffers P (bufferOffset s.currentlyWrittenToReceiveBuffer + 7) ≠ 0
    · rw [if_pos hb]
    · rw [if_neg hb]
  · rename_i hphase
    refine h.same (queueInv_setMem h.queue _) rfl rfl ?_ rfl (flag_congr fun x hx => ?_) rfl
    · unfold Serving.filled
      rw [hphase]
    · dsimp only
      refine writeBytes_of_not_mem fun hx' => ?_
      refine P.receiveHalf_apart_indicator (!s.currentlyWrittenToReceiveBuffer) x ?_ hx
      have hle : RECEIVE_BUFFER_HEADER_SIZE ≤ RECEIVE_BUFFER_SIZE := by decide
      exact Nat.lt_of_lt_of_le hx' hle
  · rename_i hphase
    have hqueue : QueueInv { s.sockets with
        manager := (s.sockets.manager.setReceiveBuffer P.taskID s.socketID
          (P.receiveHalf (!s.currentlyWrittenToReceiveBuffer)).start (UInt32.ofNat RECEIVE_BUFFER_SIZE)).2 } :=
      queueInv_call hT h.queue (c := .setReceiveBuffer P.taskID s.socketID _ _) rfl
    rcases setReceiveBuffer_cases s.sockets.manager P.taskID s.socketID
      (P.receiveHalf (!s.currentlyWrittenToReceiveBuffer)).start (UInt32.ofNat RECEIVE_BUFFER_SIZE) with
      he | ⟨j, hj, he⟩
    · -- the call fails: the server has no socket
      rw [he] at hqueue ⊢
      refine ⟨hqueue, fun t i ho => ?_, h.foreign, h.cleared, h.call⟩
      obtain ⟨rfl, hi⟩ := ho
      have hsize : 2 * RECEIVE_BUFFER_HEADER_SIZE ≤ (UInt32.ofNat RECEIVE_BUFFER_SIZE).toNat := by decide
      have hok := setReceiveBuffer_accepted (P.receiveHalf (!s.currentlyWrittenToReceiveBuffer)).start hi
        (h.own P.taskID i ⟨rfl, hi⟩).active hsize
      rw [he] at hok
      exact absurd hok (by simp)
    · rw [he] at hqueue ⊢
      refine ⟨hqueue, fun t i ho => ?_, fun t i ho => ?_, h.cleared, h.call⟩
      · obtain ⟨rfl, hi⟩ := ho
        have hij : i = j := Fin.ext (hi.trans hj.symm)
        subst hij
        have hown := h.own P.taskID i ⟨rfl, hi⟩
        dsimp only
        rw [socketDescs_setDesc]
        refine ⟨hown.active, ?_, hown.sent, hown.indicator, hown.idle⟩
        show Span.Within ⟨_, (UInt32.ofNat RECEIVE_BUFFER_SIZE).toNat⟩ _
        rw [receiveBufferSize_word]
        exact .refl _
      · have hne : (t, i) ≠ (P.taskID, j) := by
          intro heq
          cases heq
          exact ho ⟨rfl, hj⟩
        dsimp only
        rw [socketDescs_setDesc_of_ne _ _ hne]
        exact h.foreign t i ho
  · rename_i offset hphase
    split
    · refine h.same h.queue rfl rfl ?_ rfl rfl rfl
      unfold Serving.filled
      rw [hphase]
    · refine h.same h.queue rfl rfl ?_ rfl rfl rfl
      unfold Serving.filled
      rw [hphase]

theorem servingInv_attemptWriteBufferSwap {s : Serving T} (h : ServingInv P s) :
    ServingInv P (s.attemptWriteBufferSwap P) := by
  unfold Serving.attemptWriteBufferSwap CoAPServer.attemptWriteBufferSwap
  generalize hf : s.flag P = flag
  split
  · rename_i server hcall
    split at hcall
    · cases hcall
    · cases hcall
      exact h.same h.queue rfl rfl (filled_congr rfl rfl) rfl (flag_congr fun _ _ => rfl) rfl
  · rename_i server call hcall
    split at hcall
    · rename_i hready
      cases hcall
      have hflag : s.flag P = 1 := hf.trans hready.1
      have hzero : readWord (writeWord s.sockets.mem P.indicator 0) P.indicator = 0 := by
        rw [writeWord, readWord_writeBytes_self]
        rfl
      refine ⟨queueInv_setMem h.queue _, fun t i ho => ?_, fun t i ho => ?_, fun _ => hzero, fun call hc => ?_⟩
      · have hown := h.own t i ⟨ho.1, ho.2⟩
        exact hown.swapped (hown.idle (.inl hflag)) rfl rfl
      · exact h.foreign t i fun ho' => ho ⟨ho'.1, ho'.2⟩
      · cases hc
        exact ⟨rfl, s.server.dataLen_le⟩
    · cases hcall

theorem servingInv_setSendBuffer (hT : T ≤ 256) {s : Serving T} (h : ServingInv P s) {call : SendCall}
    (hcall : s.calling = some call) : ServingInv P (s.setSendBuffer P call) := by
  have hne : s.calling ≠ none := by
    rw [hcall]
    exact Option.some_ne_none call
  have hflag : s.flag P = 0 := h.cleared hne
  obtain ⟨hbuffer, hsize⟩ := h.call call hcall
  have hqueue : QueueInv { s.sockets with
      manager := (s.sockets.manager.setSendBuffer P.taskID s.socketID (P.writeHalf call.buffer).start
        (UInt32.ofNat call.bufferSize) P.indicator).2 } :=
    queueInv_call hT h.queue (c := .setSendBuffer P.taskID s.socketID _ _ _) rfl
  -- the indicator is clear, so nothing is promised about the descriptor
  have hbusy {d : SocketDesc} : (s.flag P = 1 ∨ (none : Option SendCall) ≠ none) →
      d.sendBufferSize = 0 ∧ d.sendBufferIndicatorWhenFinished = 0 := by
    intro hcond
    rcases hcond with h1 | hnone
    · rw [hflag] at h1
      exact absurd h1 (by decide)
    · exact absurd rfl hnone
  unfold Serving.setSendBuffer
  rcases setSendBuffer_cases s.sockets.manager P.taskID s.socketID (P.writeHalf call.buffer).start
    (UInt32.ofNat call.bufferSize) P.indicator with he | ⟨j, hj, hact, ⟨_, he⟩ | ⟨_, m, hr, he⟩⟩
  · rw [he] at hqueue ⊢
    refine ⟨hqueue, fun t i ho => ?_, h.foreign, fun hnone => absurd rfl hnone, fun _ hc => by cases hc⟩
    have hown := h.own t i ho
    exact ⟨hown.active, hown.received, hown.sent, hown.indicator, hbusy⟩
  · rw [he] at hqueue ⊢
    refine ⟨hqueue, fun t i ho => ?_, fun t i ho => ?_, fun hnone => absurd rfl hnone, fun _ hc => by cases hc⟩
    · obtain ⟨rfl, hi⟩ := ho
      have hij : i = j := Fin.ext (hi.trans hj.symm)
      subst hij
      have hown := h.own P.taskID i ⟨rfl, hi⟩
      dsimp only
      rw [socketDescs_setDesc]
      exact ⟨hown.active, hown.received, Span.within_of_empty _ rfl, .inl rfl, hbusy⟩
    · have hne : (t, i) ≠ (P.taskID, j) := by
        intro heq
        cases heq
        exact ho ⟨rfl, hj⟩
      dsimp only
      rw [socketDescs_setDesc_of_ne _ _ hne]
      exact h.foreign t i ho
  · obtain ⟨_, hdescs⟩ := sameSockets_addRequest hr
    rw [he] at hqueue ⊢
    refine ⟨hqueue, fun t i ho => ?_, fun t i ho => ?_, fun hnone => absurd rfl hnone, fun _ hc => by cases hc⟩
    · obtain ⟨rfl, hi⟩ := ho
      have hij : i = j := Fin.ext (hi.trans hj.symm)
      subst hij
      have hown := h.own P.taskID i ⟨rfl, hi⟩
      dsimp only
      rw [socketDescs_setDesc]
      refine ⟨hown.active, hown.received, fun x hx => ?_, .inr rfl, hbusy⟩
      show (P.writeHalf s.server.currentlySendingWritebuffer).Mem x
      rw [← hbuffer]
      have hword : (UInt32.ofNat call.bufferSize).toNat ≤ WRITE_BUFFER_SIZE := by
        rw [UInt32.toNat_ofNat']
        omega
      exact Nat.lt_of_lt_of_le hx hword
    · have hne : (t, i) ≠ (P.taskID, j) := by
        intro heq
        cases heq
        exact ho ⟨rfl, hj⟩
      dsimp only
      rw [socketDescs_setDesc_of_ne _ _ hne, hdescs]
      exact h.foreign t i ho

/-- A response does not swap the buffers. -/
theorem sending_writeResponse (server : CoAPServer) (sourceIP : UInt32) (sourcePort : UInt16) (udpPayload : Nat → UInt8)
    (udpPayloadSize : Nat) (h : Header) (offset : Nat) (ps : PathState) :
    (server.writeResponse sourceIP sourcePort udpPayload udpPayloadSize h offset ps).val.1.currentlySendingWritebuffer =
      server.currentlySendingWritebuffer := by
  unfold CoAPServer.writeResponse
  dsimp only
  split
  · rfl
  · simp only [Traced.val_bind]
    split
    · rfl
    · rfl

/-! ## Calls of other tasks, deliveries and rounds -/

/-- The sockets of other tasks after a call that is not the server's. -/
theorem foreign_call {s : Serving T} {c : SocketCall T} {sockets : Sockets T} (hc : c.BetweenRounds)
    (hforeign : Foreign P s c) (hstep : s.sockets.call c = some sockets) {t : Fin T} {i : SocketID}
    (h : ForeignSocket P (s.sockets.manager.socketDescs t i)) : ForeignSocket P (sockets.manager.socketDescs t i) := by
  have hset (m : SocketManager T) (hm : m.socketDescs = s.sockets.manager.socketDescs) (t' : Fin T) (i' : SocketID)
      (d : SocketDesc) (hd : ForeignSocket P (s.sockets.manager.socketDescs t' i') → ForeignSocket P d) :
      ForeignSocket P ((m.setDesc t' i' d).socketDescs t i) := by
    by_cases he : (t, i) = (t', i')
    · cases he
      rw [socketDescs_setDesc]
      exact hd h
    · rw [socketDescs_setDesc_of_ne _ _ he, hm]
      exact h
  cases c with
  | openSocket taskID udpPort =>
    cases hstep
    dsimp only
    rcases openSocket_cases s.sockets.manager taskID udpPort with ⟨he, _⟩ | ⟨p, j, d, _, _, _, hd, he⟩
    · rw [he]
      exact h
    · rw [he]
      exact hset s.sockets.manager rfl taskID j d fun _ => .empty hd.2.1 hd.2.2.1 hd.2.2.2
  | closeSocket taskID socketID =>
    obtain ⟨m, hm, rfl⟩ := Option.map_eq_some_iff.mp hstep
    exact h.shrinks (shrinks_closeSocket hm t i)
  | closeAllSocketsForTask taskID =>
    obtain ⟨m, hm, rfl⟩ := Option.map_eq_some_iff.mp hstep
    exact h.shrinks (shrinks_closeLoop hm t i)
  | setReceiveBuffer taskID socketID newBuffer newBufferSize =>
    cases hstep
    dsimp only
    rcases setReceiveBuffer_cases s.sockets.manager taskID socketID newBuffer newBufferSize with he | ⟨j, _, he⟩
    · rw [he]
      exact h
    · rw [he]
      exact hset s.sockets.manager rfl taskID j _ fun hd => ⟨hforeign, hd.sent, hd.indicator⟩
  | setSendBuffer taskID socketID newBuffer newBufferSize indicatorWhenFinished =>
    cases hstep
    dsimp only
    rcases setSendBuffer_cases s.sockets.manager taskID socketID newBuffer newBufferSize indicatorWhenFinished with
      he | ⟨j, _, _, ⟨_, he⟩ | ⟨_, m, hr, he⟩⟩
    · rw [he]
      exact h
    · rw [he]
      refine hset s.sockets.manager rfl taskID j _ fun hd => ?_
      exact ⟨hd.received, Span.apart_of_empty _ rfl, fun hne => absurd rfl hne⟩
    · rw [he]
      refine hset m (sameSockets_addRequest hr).2 taskID j _ fun hd => ?_
      exact ⟨hd.received, hforeign.1, hforeign.2⟩
  | received behind packet fragments =>
    obtain ⟨r, hr, rfl⟩ := Option.map_eq_some_iff.mp hstep
    exact h.shrinks (shrinks_received hr t i)
  | userWrite mem =>
    cases hstep
    exact h
  | getTransmissionRequestsIterator =>
    cases hstep
    exact h
  | goToNext | updateTop | removeTop | indicateAsFinished | remove | relocateToEnd => cases hc

/-- The server's socket after a call that is not the server's. -/
theorem own_call {s : Serving T} {c : SocketCall T} {sockets : Sockets T} (ho : Owned s.sockets.manager)
    (hc : c.BetweenRounds) (hcaller : c.caller ≠ some P.taskID) (hstep : s.sockets.call c = some sockets)
    (i : SocketID) :
    Shrinks (s.sockets.manager.socketDescs P.taskID i) (sockets.manager.socketDescs P.taskID i) ∧
      (sockets.manager.socketDescs P.taskID i).isActive = (s.sockets.manager.socketDescs P.taskID i).isActive := by
  cases hcase : c.caller with
  | some t =>
    obtain ⟨sockets', hcall, hkept⟩ := call_othersKept ho hcase
    rw [hstep] at hcall
    cases hcall
    have hne : P.taskID ≠ t := by
      intro he
      rw [hcase, he] at hcaller
      exact hcaller rfl
    rw [hkept.socketDescs P.taskID hne]
    exact ⟨.refl _, rfl⟩
  | none =>
    cases c with
    | openSocket | closeSocket | closeAllSocketsForTask | setReceiveBuffer | setSendBuffer => cases hcase
    | received behind packet fragments =>
      obtain ⟨r, hr, rfl⟩ := Option.map_eq_some_iff.mp hstep
      exact ⟨shrinks_received hr _ i, (sameSends_received hr P.taskID i).isActive⟩
    | userWrite mem =>
      cases hstep
      exact ⟨.refl _, rfl⟩
    | getTransmissionRequestsIterator =>
      cases hstep
      exact ⟨.refl _, rfl⟩
    | goToNext | updateTop | removeTop | indicateAsFinished | remove | relocateToEnd => cases hc

/-- Where a delivery writes: not in a receive buffer that the kernel does not
fill, and not at the indicator. -/
theorem receivedWrites_apart {s : Serving T} (h : ServingInv P s) {behind : Nat → UDPPortState} {packet : IPv4Packet}
    {fragments : List IPv4Packet} (hsized : Sized (packet :: fragments)) {a : Span}
    (ha : a ∈ s.sockets.manager.receivedWrites s.sockets.mem behind packet fragments) :
    a.Apart P.fields ∨ a.Within (P.receiveHalf s.filled) := by
  obtain ⟨t, i, hwithin⟩ := receivedWrites_within s.sockets.manager s.sockets.mem behind hsized a ha
  by_cases ho : s.Own P t i
  · exact .inr (hwithin.trans (h.own t i ho).received)
  · exact .inl ((h.foreign t i ho).received.mono hwithin (.refl _))

/-- The indicator after a call that is not the server's. -/
theorem flag_call {s : Serving T} (h : ServingInv P s) {c : SocketCall T} {sockets : Sockets T} (hc : c.BetweenRounds)
    (hforeign : Foreign P s c) (hstep : s.sockets.call c = some sockets) :
    (s.setSockets sockets).flag P = s.flag P := by
  refine flag_congr fun x hx => ?_
  cases c with
  | received behind packet fragments =>
    obtain ⟨r, hr, rfl⟩ := Option.map_eq_some_iff.mp hstep
    refine received_frame hr fun a ha hxa => ?_
    rcases receivedWrites_apart h hforeign ha with hapart | hwithin
    · exact hapart x hxa (P.indicator_within x hx)
    · exact P.receiveHalf_apart_indicator _ x (hwithin x hxa) hx
  | userWrite mem =>
    cases hstep
    exact hforeign x hx
  | closeSocket taskID socketID =>
    obtain ⟨m, _, rfl⟩ := Option.map_eq_some_iff.mp hstep
    rfl
  | closeAllSocketsForTask taskID =>
    obtain ⟨m, _, rfl⟩ := Option.map_eq_some_iff.mp hstep
    rfl
  | openSocket | setReceiveBuffer | setSendBuffer | getTransmissionRequestsIterator =>
    cases hstep
    rfl
  | goToNext | updateTop | removeTop | indicateAsFinished | remove | relocateToEnd => cases hc

theorem servingInv_call (hT : T ≤ 256) {s : Serving T} (h : ServingInv P s) {c : SocketCall T} {sockets : Sockets T}
    (hc : c.BetweenRounds) (hcaller : c.caller ≠ some P.taskID) (hforeign : Foreign P s c)
    (hstep : s.sockets.call c = some sockets) : ServingInv P (s.setSockets sockets) := by
  have hflag := flag_call h hc hforeign hstep
  refine ⟨queueInv_call hT h.queue hstep, fun t i ho => ?_, fun t i ho => ?_, fun hne => ?_, h.call⟩
  · obtain ⟨rfl, hi⟩ := ho
    obtain ⟨hshrinks, hact⟩ := own_call h.queue.owned hc hcaller hstep i
    refine (h.own P.taskID i ⟨rfl, hi⟩).shrinks hshrinks hact rfl rfl fun hcond => ?_
    rw [hflag] at hcond
    exact .inl hcond
  · exact foreign_call hc hforeign hstep (h.foreign t i ho)
  · rw [hflag]
    exact h.cleared hne

/-- The indicator after a round: as before, or the server's call is finished. -/
theorem flag_round {s : Serving T} (h : ServingInv P s) {outcome : SendOutcome} {sockets : Sockets T}
    (hmem : ∀ x, Span.Mem ⟨P.indicator, 4⟩ x → outcome.mem x = s.sockets.mem x)
    (hstep : s.sockets.handleTransmissionRequest outcome = some sockets) :
    (s.setSockets sockets).flag P = s.flag P ∨
      s.calling = none ∧ ∀ t i, s.Own P t i → (sockets.manager.socketDescs t i).sendBufferSize = 0 ∧
        (sockets.manager.socketDescs t i).sendBufferIndicatorWhenFinished = 0 := by
  rcases round_indicates h.queue.listed hstep with heq | ⟨ti, indicator, hu, hne, heq, h0, hi⟩
  · left
    refine flag_congr fun x hx => ?_
    show sockets.mem x = _
    rw [heq]
    exact hmem x hx
  · obtain ⟨_, hfrom⟩ := roundUses_from hu
    have hind : indicator = (s.sockets.manager.socketDescs ti.1 ti.2).sendBufferIndicatorWhenFinished := hfrom
    by_cases ho : s.Own P ti.1 ti.2
    · right
      refine ⟨?_, fun t i ho' => ?_⟩
      · by_contra hcalling
        exact hne (hind.trans ((h.own ti.1 ti.2 ho).idle (.inr hcalling)).2)
      · have ht : t = ti.1 := ho'.1.trans ho.1.symm
        have hi' : i = ti.2 := Fin.ext (ho'.2.trans ho.2.symm)
        subst ht
        subst hi'
        exact ⟨h0, hi⟩
    · left
      refine flag_congr fun x hx => ?_
      show sockets.mem x = _
      rw [heq, writeBytes_of_not_mem]
      · exact hmem x hx
      · intro hx'
        rw [hind] at hx' hne
        exact (h.foreign ti.1 ti.2 ho).indicator hne x hx' (P.indicator_within x hx)

theorem servingInv_round (hT : T ≤ 256) {s : Serving T} (h : ServingInv P s) {outcome : SendOutcome}
    {sockets : Sockets T} (hmem : ∀ x, Span.Mem ⟨P.indicator, 4⟩ x → outcome.mem x = s.sockets.mem x)
    (hstep : s.sockets.handleTransmissionRequest outcome = some sockets) : ServingInv P (s.setSockets sockets) := by
  obtain ⟨cs, hrun⟩ := round_run hstep
  have hqueue : QueueInv sockets := hrun.keeps (I := QueueInv) (fun _ _ _ hq hc => queueInv_call hT hq hc) h.queue
  have hsame : SameSockets s.sockets.manager sockets.manager := sameSockets_round hstep
  have hflag := flag_round h hmem hstep
  refine ⟨hqueue, fun t i ho => ?_, fun t i ho => ?_, fun hne => ?_, h.call⟩
  · refine (h.own t i ho).shrinks (shrinks_round hstep t i) (hsame.isActive t i) rfl rfl fun hcond => ?_
    rcases hflag with hflag | ⟨_, hdone⟩
    · rw [hflag] at hcond
      exact .inl hcond
    · exact .inr (hdone t i ho)
  · exact (h.foreign t i ho).shrinks (shrinks_round hstep t i)
  · rcases hflag with hflag | ⟨hnone, _⟩
    · rw [hflag]
      exact h.cleared hne
    · exact absurd hnone hne

/-! ## Runs -/

theorem queueInv_constructed (hT : T ≤ 256) {before : Sockets T} (h : QueueInv before) (taskID : Fin T)
    (udpPort : UInt16) (socketID : UInt8) (newBuffer newBufferSize : UInt32) {sockets : Sockets T}
    (hm : sockets.manager = ((before.manager.openSocket taskID udpPort).2.setReceiveBuffer taskID socketID newBuffer
      newBufferSize).2) (hc : sockets.cursor = before.cursor) : QueueInv sockets := by
  have hopened := queueInv_call hT h (c := .openSocket taskID udpPort) rfl
  have hset := queueInv_call hT hopened (c := .setReceiveBuffer taskID socketID newBuffer newBufferSize) rfl
  have hmem := queueInv_setMem hset sockets.mem
  cases sockets
  cases hm
  cases hc
  exact hmem

/-- The descriptor that was opened, with the first receive buffer. -/
theorem socketDescs_opened (before : SocketManager T) (p : Fin NUM_UDP_PORTS) (start : UInt32) {taskID : Fin T} {j : SocketID}
    {d : SocketDesc} {state : UDPPortState} {socketID : UInt8} (hd : d.isActive ≠ 0) (hid : j.val = socketID.toNat)
    (t : Fin T) (i : SocketID) :
    (((before.setDesc taskID j d).setPortState p state).setReceiveBuffer taskID socketID start
      (UInt32.ofNat RECEIVE_BUFFER_SIZE)).2.socketDescs t i =
      if (t, i) = (taskID, j) then
        { d with receiveBuffer := start, receiveBufferSize := UInt32.ofNat RECEIVE_BUFFER_SIZE }
      else before.socketDescs t i := by
  have hact : (((before.setDesc taskID j d).setPortState p state).socketDescs taskID j).isActive ≠ 0 := by
    dsimp only [setPortState]
    rwa [socketDescs_setDesc]
  have hok := setReceiveBuffer_accepted start hid hact
    (show 2 * RECEIVE_BUFFER_HEADER_SIZE ≤ (UInt32.ofNat RECEIVE_BUFFER_SIZE).toNat by decide)
  rcases setReceiveBuffer_cases ((before.setDesc taskID j d).setPortState p state) taskID socketID start
    (UInt32.ofNat RECEIVE_BUFFER_SIZE) with he | ⟨k, hk, he⟩
  · rw [he] at hok
    exact absurd hok (by simp)
  · have hkj : k = j := Fin.ext (hk.trans hid.symm)
    subst hkj
    rw [he]
    dsimp only
    split
    · rename_i heq
      cases heq
      rw [socketDescs_setDesc]
      dsimp only [setPortState]
      rw [socketDescs_setDesc]
    · rename_i hne
      rw [socketDescs_setDesc_of_ne _ _ hne]
      dsimp only [setPortState]
      rw [socketDescs_setDesc_of_ne _ _ hne]

theorem servingInv_constructed (hT : T ≤ 256) {s : Serving T} (h : ServingConstructed P s) : ServingInv P s := by
  obtain ⟨start, cs, before, hstart, hrun, hforeign, hid, hmanager, hcursor, hflag, _, _, hcurrent, hphase, hcalling⟩ := h
  have hbefore : QueueInv before :=
    hrun.keeps (I := QueueInv) (fun _ _ _ hq hc => queueInv_call hT hq hc) (queueInv_started hstart)
  have hqueue := queueInv_constructed hT hbefore _ _ _ _ _ hmanager hcursor
  have hfilled : s.filled = false := by
    unfold Serving.filled
    rw [hphase, hcurrent]
  rcases openSocket_cases before.manager P.taskID P.udpPort with ⟨he, _⟩ | ⟨p, j, d, _, _, _, hd, he⟩
  · -- no socket: the calls fail
    rw [he] at hid hmanager
    have hid255 : s.socketID.toNat = 255 := by
      rw [hid]
      rfl
    have hnone (t : Fin T) (i : SocketID) : ¬ s.Own P t i := by
      intro ho
      have hlt : i.val < 10 := i.isLt
      have hi := ho.2
      omega
    have hm : s.sockets.manager = before.manager := by
      rw [hmanager]
      rcases setReceiveBuffer_cases before.manager P.taskID s.socketID (P.receiveHalf false).start
        (UInt32.ofNat RECEIVE_BUFFER_SIZE) with he' | ⟨j, hj, _⟩
      · rw [he']
      · have hlt : j.val < 10 := j.isLt
        omega
    refine ⟨hqueue, fun t i ho => absurd ho (hnone t i), fun t i _ => ?_, fun hne => absurd hcalling hne,
      fun call hcall => ?_⟩
    · rw [hm]
      exact hforeign t i
    · rw [hcalling] at hcall
      cases hcall
  · rw [he] at hid hmanager
    have hidj : j.val = s.socketID.toNat := by
      have hlt : j.val < 10 := j.isLt
      rw [hid, UInt8.toNat_ofNat']
      dsimp only
      omega
    have hdescs (t : Fin T) (i : SocketID) : s.sockets.manager.socketDescs t i =
        if (t, i) = (P.taskID, j) then
          { d with receiveBuffer := (P.receiveHalf false).start, receiveBufferSize := UInt32.ofNat RECEIVE_BUFFER_SIZE }
        else before.manager.socketDescs t i := by
      rw [hmanager]
      exact socketDescs_opened before.manager _ _ (by rw [hd.1]; decide) hidj t i
    refine ⟨hqueue, fun t i ho => ?_, fun t i ho => ?_, fun hne => absurd hcalling hne, fun call hcall => ?_⟩
    · obtain ⟨rfl, hi⟩ := ho
      have hij : i = j := Fin.ext (hi.trans hidj.symm)
      subst hij
      rw [hdescs, if_pos rfl]
      refine ⟨by dsimp only; rw [hd.1]; decide, ?_, ?_, .inl hd.2.2.2, fun _ => ⟨hd.2.2.1, hd.2.2.2⟩⟩
      · rw [hfilled]
        show Span.Within ⟨_, (UInt32.ofNat RECEIVE_BUFFER_SIZE).toNat⟩ _
        rw [receiveBufferSize_word]
        exact .refl _
      · exact Span.within_of_empty _ (by simp [SocketDesc.sent, hd.2.2.1])
    · rw [hdescs, if_neg]
      · exact hforeign t i
      · intro heq
        cases heq
        exact ho ⟨rfl, hidj⟩
    · rw [hcalling] at hcall
      cases hcall

theorem servingInv_step (hT : T ≤ 256) {s t : Serving T} {l : ServingStep T} (h : ServingInv P s)
    (hstep : servingStep P s l t) : ServingInv P t := by
  cases l with
  | attemptReceiveBufferSwap =>
    obtain ⟨_, rfl⟩ := hstep
    exact servingInv_attemptReceiveBufferSwap hT h
  | attemptWriteBufferSwap =>
    obtain ⟨_, rfl⟩ := hstep
    exact servingInv_attemptWriteBufferSwap h
  | setSendBuffer =>
    obtain ⟨call, hcall, rfl⟩ := hstep
    exact servingInv_setSendBuffer hT h hcall
  | writeResponse sourceIP sourcePort udpPayload udpPayloadSize header offset ps =>
    obtain ⟨_, _, rfl⟩ := hstep
    exact h.same h.queue rfl rfl (filled_congr rfl rfl) (sending_writeResponse ..) (flag_congr fun _ _ => rfl) rfl
  | call c =>
    obtain ⟨hc, hcaller, hforeign, sockets, hcall, rfl⟩ := hstep
    exact servingInv_call hT h hc hcaller hforeign hcall
  | handleTransmissionRequest outcome =>
    obtain ⟨hmem, sockets, hround, rfl⟩ := hstep
    exact servingInv_round hT h hmem hround

variable (P)

/-- The kernel holds bytes of write buffer `b` as the send buffer of the
server's socket. -/
def KernelHolds (s : Serving T) (b : Bool) : Prop :=
  ∃ i x, i.val = s.socketID.toNat ∧ (s.sockets.manager.socketDescs P.taskID i).sent.Mem x ∧ (P.writeHalf b).Mem x

/-- What the server and the kernel write next. -/
structure BuffersOwned (s : Serving T) : Prop where
  server : ∀ sourceIP sourcePort udpPayload udpPayloadSize h offset ps first count b,
    h.token.length = h.tokenLength →
    Access.buffer first count ∈
      (s.server.writeResponse sourceIP sourcePort udpPayload udpPayloadSize h offset ps).log →
    KernelHolds P s b →
    Span.Apart ⟨(P.writeHalf (!s.server.currentlySendingWritebuffer)).start + UInt32.ofNat first, count⟩ (P.writeHalf b)
  delivery : ∀ offset behind packet fragments, s.phase = .draining offset → Sized (packet :: fragments) →
    ∀ a ∈ s.sockets.manager.receivedWrites s.sockets.mem behind packet fragments,
      a.Apart (P.receiveHalf s.currentlyWrittenToReceiveBuffer)
  round : ∀ offset outcome ti use, s.phase = .draining offset → (ti, use) ∈ s.sockets.roundUses outcome →
    ∀ a ∈ use.writes, a.Apart (P.receiveHalf s.currentlyWrittenToReceiveBuffer)
  dataLen : s.server.currentlyWrittenToWriteBufferDataLen ≤ WRITE_BUFFER_SIZE

variable {P}

theorem holds_sending {s : Serving T} (h : ServingInv P s) {b : Bool} (hb : KernelHolds P s b) :
    b = s.server.currentlySendingWritebuffer := by
  obtain ⟨i, x, hi, hsent, hhalf⟩ := hb
  have hx := (h.own P.taskID i ⟨rfl, hi⟩).sent x hsent
  by_contra hne
  have hnot : b = !s.server.currentlySendingWritebuffer := by
    cases b <;> cases hs : s.server.currentlySendingWritebuffer <;> simp_all
  rw [hnot] at hhalf
  exact P.writeHalves_apart _ x hx hhalf

theorem filled_draining {s : Serving T} {offset : Nat} (h : s.phase = .draining offset) :
    s.filled = !s.currentlyWrittenToReceiveBuffer := by
  unfold Serving.filled
  rw [h]

variable (P)

/-- Neither side writes into the half of the other. -/
theorem buffers_owned (hT : T ≤ 256) (s : Serving T) (hs : (servingLTS P).Reachable s) : BuffersOwned P s := by
  have h : ServingInv P s := by
    refine LTS.Inductive.reachable (I := ServingInv P) ⟨fun s hi => ?_, fun s l t hinv hstep => ?_⟩ s hs
    · exact servingInv_constructed hT hi
    · exact servingInv_step hT hinv hstep
  constructor
  case server =>
    intro sourceIP sourcePort udpPayload udpPayloadSize header offset ps first count b htoken hlog hholds
    have hbound : first + count ≤ WRITE_BUFFER_SIZE := writeResponse_inBounds htoken _ hlog
    rw [holds_sending h hholds]
    refine (P.writeHalves_apart s.server.currentlySendingWritebuffer).symm.mono ?_ (.refl _)
    exact Span.within_of_le hbound (by decide)
  case delivery =>
    intro offset behind packet fragments hphase hsized a ha
    rcases receivedWrites_apart h hsized ha with hapart | hwithin
    · exact hapart.mono (.refl _) (P.receiveHalf_within _)
    · rw [filled_draining hphase] at hwithin
      exact (P.receiveHalves_apart s.currentlyWrittenToReceiveBuffer).symm.mono hwithin (.refl _)
  case round =>
    intro offset outcome ti use hphase hu a ha
    obtain ⟨_, hfrom⟩ := roundUses_from hu
    by_cases ho : s.Own P ti.1 ti.2
    · have hown := h.own ti.1 ti.2 ho
      rcases hfrom.writes_within ha with hwithin | ⟨hne, rfl⟩
      · exact (P.receiveHalf_apart_writeHalf _ _).symm.mono (hwithin.trans hown.sent) (.refl _)
      · rw [hown.indicator.resolve_left hne]
        exact (P.receiveHalf_apart_indicator _).symm
    · have hforeign := h.foreign ti.1 ti.2 ho
      rcases hfrom.writes_within ha with hwithin | ⟨hne, rfl⟩
      · exact hforeign.sent.mono hwithin (P.receiveHalf_within _)
      · exact (hforeign.indicator hne).mono (.refl _) (P.receiveHalf_within _)
  case dataLen => exact s.server.dataLen_le

end

/-! ## A server with a response to send -/

def servingPlacement : Placement 2 where
  taskID := ⟨0, Nat.two_pos⟩
  udpPort := 5683
  receiveBuffers := 0x100000

/-- The server has been constructed. -/
def servingIdle : Serving 2 where
  sockets :=
    { manager := ((((SocketManager.init blankTables).openSocket ⟨1, Nat.one_lt_two⟩ 81).2.openSocket
        ⟨0, Nat.two_pos⟩ 5683).2.setReceiveBuffer ⟨0, Nat.two_pos⟩ 0 0x100000 (UInt32.ofNat RECEIVE_BUFFER_SIZE)).2
      mem := writeWord (fun _ => 0) servingPlacement.indicator 1
      cursor := none }
  server := idleServer.server
  socketID := 0
  currentlyWrittenToReceiveBuffer := false
  phase := .idle
  calling := none

theorem constructed_servingIdle : ServingConstructed servingPlacement servingIdle := by
  refine ⟨⟨SocketManager.init blankTables, fun _ => 0, none⟩, [.openSocket ⟨1, Nat.one_lt_two⟩ 81],
    ⟨((SocketManager.init blankTables).openSocket ⟨1, Nat.one_lt_two⟩ 81).2, fun _ => 0, none⟩, ⟨⟨_, rfl⟩, rfl⟩,
    .cons rfl (.nil _), fun t i => ?_, ?_, ?_, rfl, ?_, rfl, rfl, rfl, rfl, rfl⟩
  · refine .empty ?_ ?_ ?_ <;> (revert t i; decide +kernel)
  · decide +kernel
  · rfl
  · decide +kernel

/-- It has written a response. -/
def servingAnswered : Serving 2 :=
  { servingIdle with
    server := (servingIdle.server.writeResponse 0x0200000A 5683 (fun _ => 0) 4 ⟨false, 0, 1, 0, 0, []⟩ 4
      unhandledPath).val.1 }

/-- The kernel has the response as the send buffer of the socket. -/
def servingSent : Serving 2 :=
  (servingAnswered.attemptWriteBufferSwap servingPlacement).setSendBuffer servingPlacement ⟨false, 20⟩

theorem reachable_servingSent : (servingLTS servingPlacement).Reachable servingSent := by
  have hcall : (servingAnswered.attemptWriteBufferSwap servingPlacement).calling = some ⟨false, 20⟩ := by decide +kernel
  refine ⟨servingIdle, [.writeResponse 0x0200000A 5683 (fun _ => 0) 4 ⟨false, 0, 1, 0, 0, []⟩ 4 unhandledPath,
    .attemptWriteBufferSwap, .setSendBuffer], constructed_servingIdle, ?_⟩
  exact .cons ⟨rfl, rfl, rfl⟩ (.cons ⟨rfl, rfl⟩ (.cons ⟨_, hcall, rfl⟩ (.nil _)))

/-- The first byte of the response is the kernel's. -/
theorem buffers_owned_servingSent : KernelHolds servingPlacement servingSent false ∧
    BuffersOwned servingPlacement servingSent := by
  refine ⟨⟨⟨0, firstSocket_lt⟩, (servingPlacement.writeHalf false).start, rfl, ?_, ?_⟩,
    buffers_owned servingPlacement (by decide) servingSent reachable_servingSent⟩
  · decide +kernel
  · decide +kernel

end CpuScheduler.L6
