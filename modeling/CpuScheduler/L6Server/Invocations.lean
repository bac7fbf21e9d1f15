import CpuScheduler.L6Server.PathBounds

/-!
# Which handler method a request invokes

`invocations` are the calls of handler methods while a datagram is handled,
with what the method is given. A method gets the response buffer to fill, the
only block of `RESPONSE_BUFFER_SIZE` bytes that is logged: `handlerCalls`
counts these blocks, and `handlerCalls_handlePacket` says that there is one for
each invocation. `callHandler_val` is the response in terms of the invocation.
-/
namespace CpuScheduler.L6

open Word L3

/-- A call of a handler method. -/
structure Invocation where
  handler : PathIndex
  method : Method
  path : Bytes
  contentFormat : ContentFormat
  payload : List UInt8

/-- The bytes behind the payload marker. -/
def payloadBytes (udpPayload : Nat → UInt8) (udpPayloadSize offset : Nat) : List UInt8 :=
  (List.range (payloadSize udpPayloadSize offset)).map fun k => udpPayload (offset + PAYLOAD_MARKER_SIZE + k)

/-- mirrors coap_server.cpp:409-456 -/
def dispatch (udpPayload : Nat → UInt8) (udpPayloadSize : Nat) (h : Header) (offset : Nat) (s : PathState) :
    List Invocation :=
  match s.possibleValidPaths with
  | [] => []
  | i :: _ =>
    if (checkPayloadMarker udpPayload udpPayloadSize offset).val then
      (methodOf h.codeDetail).toList.map fun method =>
        ⟨i, method, s.path, s.contentFormat, payloadBytes udpPayload udpPayloadSize offset⟩
    else []

namespace CoAPServer

/-- The write buffers as the response finds them.
mirrors coap_server.cpp:362 -/
def swapped (server : CoAPServer) (s : PathState) : CoAPServer :=
  ({ server with pathListElements := s.elements }.attemptWriteBufferSwap).1

/-- There is room for a response in the current write buffer.
mirrors coap_server.cpp:358-366 -/
def HasRoom (server : CoAPServer) (h : Header) (s : PathState) : Prop :=
  requiredWritebufferSize h s.possibleValidPaths ≤
    WRITE_BUFFER_SIZE - (server.swapped s).currentlyWrittenToWriteBufferDataLen

instance (server : CoAPServer) (h : Header) (s : PathState) : Decidable (server.HasRoom h s) :=
  inferInstanceAs (Decidable (_ ≤ _))

/-- The calls of handler methods, in order. mirrors coap_server.cpp:181-456 -/
def invocations (server : CoAPServer) (links : List PathIndex) (udpPayloadSize : Nat) (udpPayload : Nat → UInt8)
    (path : Bytes) : List Invocation :=
  match (readHeader udpPayload udpPayloadSize).val with
  | none => []
  | some h =>
    match (optionLoop links udpPayload udpPayloadSize (udpPayloadSize + 1) (4 + h.tokenLength) 0
        (server.pathState path)).val with
    | .done offset s =>
      if server.HasRoom h (finishPath s).val then dispatch udpPayload udpPayloadSize h offset (finishPath s).val
      else []
    | _ => []

end CoAPServer

/-! ## The response and the invocation -/

section
variable {udpPayload : Nat → UInt8} {udpPayloadSize : Nat}

theorem length_dispatch_le (h : Header) (offset : Nat) (s : PathState) :
    (dispatch udpPayload udpPayloadSize h offset s).length ≤ 1 := by
  unfold dispatch
  split
  · exact Nat.zero_le _
  · split
    · rw [List.length_map]
      cases methodOf h.codeDetail <;> simp
    · exact Nat.zero_le _

/-- The response is what the invoked method returned; without one it is 4.04
if no path is left, nothing if the payload marker is missing, and else 4.05. -/
theorem callHandler_val (first : Nat) (h : Header) (offset : Nat) (s : PathState) (buffer : Bytes) :
    (callHandler first udpPayload udpPayloadSize h offset s buffer).val =
      match dispatch udpPayload udpPayloadSize h offset s with
      | inv :: _ =>
        let r := (s.elements inv.handler).pHandler inv.method inv.path inv.contentFormat inv.payload
        let start := first + responseOffset h.tokenLength
        some (r.1, fun k => if start ≤ k ∧ k < start + RESPONSE_BUFFER_SIZE then r.2 (k - start) else buffer k)
      | [] =>
        if s.possibleValidPaths = [] then some (⟨NOT_FOUND_RESPONSE_CODE, 0, .textPlainCharsetUTF8⟩, buffer)
        else if (checkPayloadMarker udpPayload udpPayloadSize offset).val then
          some (⟨METHOD_NOT_ALLOWED_RESPONSE_CODE, 0, .textPlainCharsetUTF8⟩, buffer)
        else none := by
  unfold callHandler dispatch
  cases hpaths : s.possibleValidPaths with
  | nil => rfl
  | cons i is =>
    simp only [Traced.val_bind, Traced.val_ite, Traced.val_pure]
    by_cases hmarker : (checkPayloadMarker udpPayload udpPayloadSize offset).val = true
    · rw [if_pos hmarker, if_pos hmarker, callMethod]
      cases methodOf h.codeDetail with
      | none => simp [hmarker]
      | some method => rfl
    · rw [if_neg hmarker, if_neg hmarker]
      simp [hmarker]

end

/-! ## Calls in the log -/

/-- The response buffer is handed to a method. -/
def Access.isHandlerCall : Access → Bool
  | .buffer _ count => count == RESPONSE_BUFFER_SIZE
  | _ => false

def handlerCalls {α : Type} (x : Traced Access α) : Nat := x.log.countP Access.isHandlerCall

section
variable {α β : Type}

theorem handlerCalls_pure (a : α) : handlerCalls (pure a : Traced Access α) = 0 := rfl

theorem handlerCalls_bind (x : Traced Access α) (f : α → Traced Access β) :
    handlerCalls (x >>= f) = handlerCalls x + handlerCalls (f x.val) := by
  rw [handlerCalls, Traced.log_bind, List.countP_append]
  rfl

/-- No method is called. -/
def Quiet (x : Traced Access α) : Prop := handlerCalls x = 0

theorem quiet_pure (a : α) : Quiet (pure a : Traced Access α) := rfl

theorem Quiet.bind {x : Traced Access α} {f : α → Traced Access β} (hx : Quiet x) (hf : Quiet (f x.val)) :
    Quiet (x >>= f) := by
  unfold Quiet at *
  rw [handlerCalls_bind, hx, hf]

theorem Quiet.ite {c : Prop} [Decidable c] {x y : Traced Access α} (hx : Quiet x) (hy : Quiet y) :
    Quiet (if c then x else y) := by
  split
  · exact hx
  · exact hy

/-- What comes before and after does not count. -/
theorem Quiet.before {x : Traced Access α} (hx : Quiet x) (f : α → Traced Access β) :
    handlerCalls (x >>= f) = handlerCalls (f x.val) := by
  rw [handlerCalls_bind, hx, Nat.zero_add]

theorem Quiet.after (x : Traced Access α) {f : α → Traced Access β} (hf : Quiet (f x.val)) :
    handlerCalls (x >>= f) = handlerCalls x := by
  rw [handlerCalls_bind, hf, Nat.add_zero]

end

section
variable (udpPayload : Nat → UInt8) (udpPayloadSize : Nat)

theorem quiet_readByte (i : Nat) : Quiet (readByte udpPayload i) := rfl

theorem quiet_readBytes (first n : Nat) : Quiet (readBytes udpPayload first n) := by
  induction n generalizing first with
  | zero => exact quiet_pure _
  | succ n ih => exact (quiet_readByte udpPayload first).bind ((ih (first + 1)).bind (quiet_pure _))

theorem quiet_readHeader : Quiet (readHeader udpPayload udpPayloadSize) := by
  unfold readHeader
  refine .ite (quiet_pure _) (.bind (quiet_readByte ..) (.ite (quiet_pure _) ?_))
  refine .ite (quiet_pure _) (.ite (quiet_pure _) (.bind (quiet_readByte ..) (.ite (quiet_pure _) ?_)))
  refine .bind (quiet_readByte ..) (.bind (quiet_readByte ..) (.ite (quiet_pure _) ?_))
  exact .bind (quiet_readBytes ..) (quiet_pure _)

theorem quiet_readExtended (field offset : Nat) : Quiet (readExtended udpPayload field offset) := by
  unfold readExtended
  refine .ite (.bind (quiet_readByte ..) (quiet_pure _)) (.ite ?_ (quiet_pure _))
  exact .bind (quiet_readByte ..) (.bind (quiet_readByte ..) (quiet_pure _))

theorem quiet_readOption (offset number : Nat) : Quiet (readOption udpPayload udpPayloadSize offset number) := by
  unfold readOption
  refine .bind (quiet_readByte ..) ?_
  dsimp only
  split
  · refine .ite (quiet_pure _) (.bind (quiet_readExtended ..) (.bind (quiet_readExtended ..) ?_))
    exact .ite (quiet_pure _) (.ite (quiet_pure _) (quiet_pure _))
  · exact quiet_pure _

theorem quiet_writePath (s : PathState) (i : Nat) (c : UInt8) : Quiet (writePath s i c) := rfl

theorem quiet_appendLoop (n i offset : Nat) (s : PathState) : Quiet (appendLoop udpPayload n i offset s) := by
  induction n generalizing i offset s with
  | zero => exact quiet_pure _
  | succ n ih =>
    rw [appendLoop]
    exact .ite (quiet_pure _) (.bind (quiet_readByte ..) (.bind (quiet_writePath ..) (ih ..)))

theorem quiet_applyOption (links : List PathIndex) (o : CoAPOption) (s : PathState) :
    Quiet (applyOption links udpPayload o s) := by
  unfold applyOption
  refine .ite (.bind (.bind ?_ (.bind (quiet_appendLoop ..) (quiet_pure _))) (quiet_pure _)) ?_
  · exact .ite (quiet_pure _) (.bind (quiet_writePath ..) (quiet_pure _))
  · exact .ite (.ite (quiet_pure _) (.ite (.bind (quiet_readByte ..) (quiet_pure _)) (quiet_pure _))) (quiet_pure _)

theorem quiet_optionLoop (links : List PathIndex) (rounds offset number : Nat) (s : PathState) :
    Quiet (optionLoop links udpPayload udpPayloadSize rounds offset number s) := by
  induction rounds generalizing offset number s with
  | zero => exact quiet_pure _
  | succ rounds ih =>
    rw [optionLoop]
    refine .ite (.bind (quiet_readByte ..) (.ite (quiet_pure _) (.bind (quiet_readOption ..) ?_))) (quiet_pure _)
    split
    · exact quiet_pure _
    · refine .bind (quiet_applyOption ..) ?_
      split
      · exact quiet_pure _
      · exact ih ..

theorem quiet_finishPath (s : PathState) : Quiet (finishPath s) := by
  unfold finishPath rootPath
  exact .bind (.ite (.bind (quiet_writePath ..) (quiet_pure _)) (quiet_pure _)) (.bind (quiet_writePath ..) (quiet_pure _))

theorem quiet_checkPayloadMarker (offset : Nat) : Quiet (checkPayloadMarker udpPayload udpPayloadSize offset) := by
  unfold checkPayloadMarker
  exact .ite (.bind (quiet_readByte ..) (quiet_pure _)) (quiet_pure _)

end

theorem quiet_store {first : Nat} {bytes : List UInt8} (hshort : bytes.length < RESPONSE_BUFFER_SIZE) (buffer : Bytes) :
    Quiet (store first bytes buffer) := by
  have hne : (bytes.length == RESPONSE_BUFFER_SIZE) = false := by simpa using Nat.ne_of_lt hshort
  simp [Quiet, handlerCalls, store, Access.isHandlerCall, hne]

theorem quiet_storeHeader (first : Nat) (sourceIP : UInt32) (sourcePort : UInt16) {h : Header}
    (htoken : h.token.length < RESPONSE_BUFFER_SIZE) (buffer : Bytes) :
    Quiet (storeHeader first sourceIP sourcePort h buffer) := by
  unfold storeHeader
  refine .bind (quiet_store (by simp [RESPONSE_BUFFER_SIZE]) _) (.bind (quiet_store (by decide) _) ?_)
  refine .bind (quiet_store (by simp [RESPONSE_BUFFER_SIZE]) _) (.bind (quiet_store (by simp [RESPONSE_BUFFER_SIZE]) _) ?_)
  exact quiet_store htoken _

theorem quiet_storeFormat (first : Nat) (h : Header) (r : CoAPResponse) (buffer : Bytes) :
    Quiet (storeFormat first h r buffer) := by
  unfold storeFormat
  exact .ite (.bind (quiet_store (by simp [RESPONSE_BUFFER_SIZE]) _) (quiet_store (by decide) _)) (quiet_pure _)

theorem quiet_storeSize (first : Nat) (h : Header) (r : CoAPResponse) (buffer : Bytes) :
    Quiet (storeSize first h r buffer) := by
  unfold storeSize
  exact .bind (quiet_store (by simp [RESPONSE_BUFFER_SIZE]) _) (quiet_store (by simp [RESPONSE_BUFFER_SIZE]) _)

section
variable {udpPayload : Nat → UInt8} {udpPayloadSize : Nat}

theorem handlerCalls_callHandler (first : Nat) (h : Header) (offset : Nat) (s : PathState) (buffer : Bytes) :
    handlerCalls (callHandler first udpPayload udpPayloadSize h offset s buffer) =
      (dispatch udpPayload udpPayloadSize h offset s).length := by
  unfold callHandler dispatch
  cases s.possibleValidPaths with
  | nil => rfl
  | cons i is =>
    dsimp only
    rw [(quiet_checkPayloadMarker udpPayload udpPayloadSize offset).before]
    by_cases hmarker : (checkPayloadMarker udpPayload udpPayloadSize offset).val = true
    · rw [if_pos hmarker, if_pos hmarker, handlerCalls_bind, handlerCalls_pure, callMethod]
      cases methodOf h.codeDetail with
      | none => rfl
      | some method => rfl
    · rw [if_neg hmarker, if_neg hmarker]
      rfl

theorem handlerCalls_writeResponse (server : CoAPServer) (sourceIP : UInt32) (sourcePort : UInt16) {h : Header}
    (htoken : h.token.length < RESPONSE_BUFFER_SIZE) (offset : Nat) (s : PathState) :
    handlerCalls (server.writeResponse sourceIP sourcePort udpPayload udpPayloadSize h offset s) =
      if requiredWritebufferSize h s.possibleValidPaths ≤ WRITE_BUFFER_SIZE - server.currentlyWrittenToWriteBufferDataLen
      then (dispatch udpPayload udpPayloadSize h offset s).length else 0 := by
  unfold CoAPServer.writeResponse
  dsimp only
  split
  · rw [if_neg (by omega)]
    rfl
  · rw [if_pos (by omega), (quiet_storeHeader _ _ _ htoken _).before, Quiet.after, handlerCalls_callHandler]
    split
    · exact quiet_pure _
    · exact .bind (quiet_storeFormat ..) (.bind (quiet_storeSize ..) (quiet_pure _))

theorem readHeader_tokenLength {h : Header} (hread : (readHeader udpPayload udpPayloadSize).val = some h) :
    h.tokenLength = (udpPayload 0 &&& 0b1111).toNat ∧ h.tokenLength ≤ 8 := by
  unfold readHeader at hread
  simp only [Traced.val_ite, Traced.val_bind, Traced.val_pure] at hread
  split at hread
  · cases hread
  · split at hread
    · cases hread
    · split at hread
      · cases hread
      · split at hread
        · cases hread
        · rename_i hle
          split at hread
          · cases hread
          · split at hread
            · cases hread
            · cases hread
              exact ⟨rfl, Nat.le_of_not_lt hle⟩

/-- The log has one block for each invocation. -/
theorem handlerCalls_handlePacket (server : CoAPServer) (links : List PathIndex) (sourceIP : UInt32)
    (sourcePort : UInt16) (path : Bytes) :
    handlerCalls (server.handlePacketFromReceiveBuffer links sourceIP sourcePort udpPayloadSize udpPayload path) =
      (server.invocations links udpPayloadSize udpPayload path).length := by
  unfold CoAPServer.handlePacketFromReceiveBuffer CoAPServer.invocations
  rw [(quiet_readHeader udpPayload udpPayloadSize).before]
  cases hheader : (readHeader udpPayload udpPayloadSize).val with
  | none => rfl
  | some h =>
    dsimp only
    rw [(quiet_optionLoop ..).before]
    cases (optionLoop links udpPayload udpPayloadSize (udpPayloadSize + 1) (4 + h.tokenLength) 0
        (server.pathState path)).val with
    | outOfRounds => rfl
    | dropped s => rfl
    | done offset s =>
      have hle := (readHeader_tokenLength hheader).2
      have htoken : h.token.length < RESPONSE_BUFFER_SIZE := by
        rw [(readHeader_some hheader).2, RESPONSE_BUFFER_SIZE]
        omega
      dsimp only
      unfold CoAPServer.respond
      rw [(quiet_finishPath s).before, Quiet.after, handlerCalls_writeResponse _ _ _ htoken]
      · by_cases hroom : server.HasRoom h (finishPath s).val
        · rw [if_pos hroom]
          exact if_pos hroom
        · rw [if_neg hroom]
          exact if_neg hroom
      · exact .ite (quiet_pure _) (quiet_pure _)

theorem length_invocations_le (server : CoAPServer) (links : List PathIndex) (path : Bytes) :
    (server.invocations links udpPayloadSize udpPayload path).length ≤ 1 := by
  unfold CoAPServer.invocations
  split
  · exact Nat.zero_le _
  · split
    · split
      · exact length_dispatch_le _ _ _
      · exact Nat.zero_le _
    · exact Nat.zero_le _

end

end CpuScheduler.L6
