import CpuScheduler.Core.LTS
import CpuScheduler.Core.Traced
import CpuScheduler.Core.Word
import CpuScheduler.L3Sockets.SocketManager

/-!
# CoAPServer

`coap_server.cpp`: what the server does with the payload of one UDP datagram.
It reads the header and the options, filters the registered paths character by
character, calls the handler of the path that is left and appends the response
to the current write buffer.

The lists of the source are Lean lists: `used` are the registered paths, and
`possibleValidPaths` are the candidates. The candidates are linked through
`next[1]`, which the first '/' of a request sets up; `links` is what a walk
along `next[1]` finds behind the first path before that, as earlier requests
left it: any list. Handlers are functions of what they are given.

Payload bytes read, indices of the local array `path` that are written and
blocks of the current write buffer that are written are logged.
-/
namespace CpuScheduler.L6

open Word L3

def MAX_COAP_PATH_SIZE : Nat := 100
def MAX_NUM_COAP_PATHS : Nat := 10
def RESPONSE_BUFFER_SIZE : Nat := 0x10000
def WRITE_BUFFER_SIZE : Nat := 3 * RESPONSE_BUFFER_SIZE
def COAP_PACKET_MINIMUM_SIZE : Nat := 4
def RESPONSE_OPTIONS_SIZE : Nat := 2
def PAYLOAD_MARKER_SIZE : Nat := 1

def INTERNAL_SERVER_ERROR_RESPONSE_CODE : UInt8 := 0xA0
def METHOD_NOT_ALLOWED_RESPONSE_CODE : UInt8 := 0x85
def NOT_FOUND_RESPONSE_CODE : UInt8 := 0x84

inductive ContentFormat where
  | textPlainCharsetUTF8
  | applicationLinkFormat
  | applicationXML
  | applicationOctetStream
  | applicationEXI
  | applicationJSON
  deriving DecidableEq, Repr

namespace ContentFormat

/-- mirrors coap_server.cpp:313-337 -/
def ofIdentifier : UInt8 → Option ContentFormat
  | 0 => some textPlainCharsetUTF8
  | 40 => some applicationLinkFormat
  | 41 => some applicationXML
  | 42 => some applicationOctetStream
  | 47 => some applicationEXI
  | 50 => some applicationJSON
  | _ => none

/-- mirrors coap_server.cpp:466-486 -/
def identifier : ContentFormat → UInt8
  | textPlainCharsetUTF8 => 0
  | applicationLinkFormat => 40
  | applicationXML => 41
  | applicationOctetStream => 42
  | applicationEXI => 47
  | applicationJSON => 50

end ContentFormat

structure CoAPResponse where
  responseCode : UInt8
  responseSize : Nat
  contentFormat : ContentFormat

inductive Method where
  | get
  | post
  | put
  | delete
  deriving DecidableEq, Repr

/-- A handler: the response and the bytes it leaves in the response buffer. -/
abbrev CoAPHandler :=
  Method → (Nat → UInt8) → ContentFormat → List UInt8 → CoAPResponse × (Nat → UInt8)

/-- `path` are the `pathSize` characters of the source's array. -/
structure CoAPPath where
  path : List UInt8
  pathProgressCounter : Nat
  pHandler : CoAPHandler
  fits : path.length ≤ MAX_COAP_PATH_SIZE

abbrev PathIndex := Fin MAX_NUM_COAP_PATHS

/-- The local array `path` and the write buffers. -/
abbrev Bytes := Nat → UInt8

/-- What is logged. -/
inductive Access where
  | read (i : Nat)
  | path (i : Nat)
  | buffer (first count : Nat)
  deriving DecidableEq, Repr

structure CoAPServer where
  pathListElements : PathIndex → CoAPPath
  used : List PathIndex
  writeBuffers : Bool → Bytes
  currentlySendingWritebuffer : Bool
  currentlySendingWritebufferIndicatorWhenFinished : UInt32
  currentlyWrittenToWriteBufferDataLen : Nat
  dataLen_le : currentlyWrittenToWriteBufferDataLen ≤ WRITE_BUFFER_SIZE

def slash : UInt8 := 0x2F
def caret : UInt8 := 0x5E

/-! ## Filtering the paths -/

namespace CoAPPath

def setProgress (p : CoAPPath) (n : Nat) : CoAPPath := { p with pathProgressCounter := n }

/-- One round of the loop: whether the path is still possible, and the path
with its new counter. mirrors coap_server.cpp:516-640 -/
def accept (p : CoAPPath) (newCharacter : UInt8) (isFirstCharacter : Bool) : Bool × CoAPPath :=
  let p := if isFirstCharacter then p.setProgress 0 else p
  let progress := p.pathProgressCounter
  let size := p.path.length
  if newCharacter = 0 then
    (decide (progress = size ∨ (progress + 1 = size ∧ p.path.getD progress 0 = caret)), p)
  else if progress ≥ size then (false, p)
  else if p.path.getD progress 0 = caret ∧ newCharacter ≠ slash then (true, p)
  else
    let progress := if p.path.getD progress 0 = caret then progress + 1 else progress
    if progress ≥ size then (false, p)
    else if p.path.getD progress 0 ≠ newCharacter then (false, p)
    else (true, p.setProgress (progress + 1))

end CoAPPath

/-- The paths of `candidates` that are still possible.
mirrors coap_server.cpp:511-643 -/
def trimListBasedOnNewCharacter (newCharacter : UInt8) (isFirstCharacter : Bool) :
    List PathIndex → (PathIndex → CoAPPath) → List PathIndex × (PathIndex → CoAPPath)
  | [], elements => ([], elements)
  | i :: is, elements =>
    let (valid, p) := (elements i).accept newCharacter isFirstCharacter
    let (rest, elements) := trimListBasedOnNewCharacter newCharacter isFirstCharacter is
      (Function.update elements i p)
    (if valid then i :: rest else rest, elements)

/-! ## Reading the request -/

section Request
variable (udpPayload : Nat → UInt8) (udpPayloadSize : Nat)

def readByte (i : Nat) : Traced Access UInt8 := do
  Traced.emit [.read i]
  return udpPayload i

/-- What the fixed header says. -/
structure Header where
  requiresAck : Bool
  tokenLength : Nat
  codeDetail : Nat
  messageIDLower : UInt8
  messageIDUpper : UInt8
  token : List UInt8

/-- The bytes from `first` on. -/
def readBytes (first : Nat) : Nat → Traced Access (List UInt8)
  | 0 => return []
  | n + 1 => do
    let b ← readByte udpPayload first
    let bs ← readBytes (first + 1) n
    return b :: bs

/-- `none`: the packet is dropped. mirrors coap_server.cpp:181-221 -/
def readHeader : Traced Access (Option Header) :=
  if udpPayloadSize < 4 then return none
  else do
    let first ← readByte udpPayload 0
    if (first &&& 0b11000000) >>> 6 ≠ 1 then return none
    else
      let type := (first &&& 0b110000) >>> 4
      let tokenLength := (first &&& 0b1111).toNat
      if type ≠ 0 ∧ type ≠ 1 then return none
      else if tokenLength > 8 then return none
      else do
        let code ← readByte udpPayload 1
        if (code &&& 0b11100000) >>> 5 ≠ 0 then return none
        else do
          let messageIDLower ← readByte udpPayload 2
          let messageIDUpper ← readByte udpPayload 3
          if udpPayloadSize < 4 + tokenLength then return none
          else do
            let token ← readBytes udpPayload 4 tokenLength
            return some ⟨type == 0, tokenLength, (code &&& 0b11111).toNat, messageIDLower, messageIDUpper, token⟩

/-- The bytes that extend a 4-bit field; `none`: the value is reserved. -/
def numExtendedBytes (field : Nat) : Option Nat :=
  if field = 13 then some 1 else if field = 14 then some 2 else if field = 15 then none else some 0

/-- The value of a field and the new offset. mirrors coap_server.cpp:262-277 -/
def readExtended (field offset : Nat) : Traced Access (Nat × Nat) :=
  if field = 13 then do
    let b ← readByte udpPayload (offset + 1)
    return (b.toNat + 13, offset + 1)
  else if field = 14 then do
    let high ← readByte udpPayload (offset + 1)
    let low ← readByte udpPayload (offset + 2)
    return (be16 high low + 269, offset + 2)
  else return (field, offset)

/-- An option: its number, where its value starts, and the value's length. -/
structure CoAPOption where
  number : Nat
  value : Nat
  length : Nat
  deriving DecidableEq, Repr

/-- The option at `offset`, behind an option with number `number`; `none`: the
packet is dropped. mirrors coap_server.cpp:233-290 -/
def readOption (offset number : Nat) : Traced Access (Option CoAPOption) := do
  let first ← readByte udpPayload offset
  let delta := ((first &&& 0b11110000) >>> 4).toNat
  let length := (first &&& 0b1111).toNat
  match numExtendedBytes delta, numExtendedBytes length with
  | some m, some n =>
    if udpPayloadSize ≤ offset + (m + n) then return none
    else do
      let (delta, offset) ← readExtended udpPayload delta offset
      let (length, offset) ← readExtended udpPayload length offset
      if number + delta > 65535 then return none
      else if udpPayloadSize < offset + 1 + length then return none
      else return some ⟨number + delta, offset + 1, length⟩
  | _, _ => return none

end Request

/-! ## The path of the request -/

/-- The variables of the option loop that concern the path and the content. -/
structure PathState where
  path : Bytes
  pathSizeSoFar : Nat
  possibleValidPaths : List PathIndex
  elements : PathIndex → CoAPPath
  contentFormat : ContentFormat

/-- The variables before the first option; `path` is what the array holds.
mirrors coap_server.cpp:223-229 -/
def CoAPServer.pathState (server : CoAPServer) (path : Bytes) : PathState :=
  ⟨path, 0, server.used, server.pathListElements, .textPlainCharsetUTF8⟩

/-- `path[i] = c` -/
def writePath (s : PathState) (i : Nat) (c : UInt8) : Traced Access PathState := do
  Traced.emit [.path i]
  return { s with path := Function.update s.path i c }

/-- The candidates that agree with one more character. -/
def PathState.trim (s : PathState) (c : UInt8) (isFirstCharacter : Bool) : PathState :=
  let (paths, elements) := trimListBasedOnNewCharacter c isFirstCharacter s.possibleValidPaths s.elements
  { s with possibleValidPaths := paths, elements := elements }

/-- The loop over the characters of an option's value, `n` of them from index
`i` of the path and offset `offset` of the payload on.
mirrors coap_server.cpp:301-304 -/
def appendLoop (udpPayload : Nat → UInt8) : Nat → Nat → Nat → PathState → Traced Access PathState
  | 0, _, _, s => return s
  | n + 1, i, offset, s =>
    if s.possibleValidPaths = [] then return s
    else do
      let c ← readByte udpPayload offset
      let s ← writePath s i c
      appendLoop udpPayload n (i + 1) (offset + 1) (s.trim c false)

/-- The path is too long with this option. -/
def PathState.TooLong (s : PathState) (o : CoAPOption) : Prop :=
  s.pathSizeSoFar + (1 + o.length) > MAX_COAP_PATH_SIZE

instance (s : PathState) (o : CoAPOption) : Decidable (s.TooLong o) := inferInstanceAs (Decidable (_ > _))

/-- The '/' in front of a segment. In the branch for a path that is too long
the source compares the head of the candidates with `nullptr` and drops the
result, so the candidates stay; before the first '/' the walk over them goes
along `links`. mirrors coap_server.cpp:293-300 -/
def startSegment (links : List PathIndex) (o : CoAPOption) (s : PathState) : Traced Access PathState :=
  if s.TooLong o then
    pure (if s.pathSizeSoFar = 0 then { s with possibleValidPaths := s.possibleValidPaths.take 1 ++ links } else s)
  else do
    let s ← writePath s s.pathSizeSoFar slash
    return s.trim slash (s.pathSizeSoFar == 0)

/-- A Uri-Path option while there are candidates.
mirrors coap_server.cpp:292-307 -/
def appendPath (links : List PathIndex) (udpPayload : Nat → UInt8) (o : CoAPOption) (s : PathState) :
    Traced Access PathState := do
  let s ← startSegment links o s
  let s ← appendLoop udpPayload o.length (s.pathSizeSoFar + 1) o.value s
  return { s with pathSizeSoFar := s.pathSizeSoFar + (1 + o.length) }

/-- What an option does; `none`: the packet is dropped.
mirrors coap_server.cpp:292-343 -/
def applyOption (links : List PathIndex) (udpPayload : Nat → UInt8) (o : CoAPOption) (s : PathState) :
    Traced Access (Option PathState) :=
  if o.number = 11 ∧ s.possibleValidPaths ≠ [] then do
    let s ← appendPath links udpPayload o s
    return some s
  else if o.number = 12 then
    if o.length = 0 then return some { s with contentFormat := .textPlainCharsetUTF8 }
    else if o.length = 1 then do
      let b ← readByte udpPayload o.value
      return (ContentFormat.ofIdentifier b).map fun contentFormat => { s with contentFormat := contentFormat }
    else return none
  else return some s

/-- How the option loop ends. -/
inductive Parsed where
  | outOfRounds
  | dropped (s : PathState)
  | done (currentOptionOffset : Nat) (s : PathState)

/-- The option loop, at most `rounds` rounds.
mirrors coap_server.cpp:230-346 -/
def optionLoop (links : List PathIndex) (udpPayload : Nat → UInt8) (udpPayloadSize : Nat) :
    Nat → Nat → Nat → PathState → Traced Access Parsed
  | 0, _, _, _ => return .outOfRounds
  | rounds + 1, offset, number, s =>
    if offset < udpPayloadSize then do
      let b ← readByte udpPayload offset
      if b = 0xFF then return .done offset s
      else do
        match ← readOption udpPayload udpPayloadSize offset number with
        | none => return .dropped s
        | some o =>
          match ← applyOption links udpPayload o s with
          | none => return .dropped s
          | some s => optionLoop links udpPayload udpPayloadSize rounds (o.value + o.length) o.number s
    else return .done offset s

/-- A request without Uri-Path is for "/". mirrors coap_server.cpp:348-352 -/
def rootPath (s : PathState) : Traced Access PathState :=
  if s.pathSizeSoFar = 0 then do
    let s ← writePath s 0 slash
    return { s.trim slash true with pathSizeSoFar := 1 }
  else pure s

/-- The end of the path. mirrors coap_server.cpp:348-356 -/
def finishPath (s : PathState) : Traced Access PathState := do
  let s ← rootPath s
  let s ← writePath s s.pathSizeSoFar 0
  return s.trim 0 false

/-! ## The response -/

/-- `setSendBuffer` for one of the write buffers. -/
structure SendCall where
  buffer : Bool
  bufferSize : Nat
  deriving DecidableEq, Repr

/-- The wrapper of the system call clears the indicator; the result of the call
is not looked at. mirrors coap_server.cpp:163-169, syscalls.cpp:48-51 -/
def CoAPServer.attemptWriteBufferSwap (s : CoAPServer) : CoAPServer × Option SendCall :=
  if s.currentlySendingWritebufferIndicatorWhenFinished = 1 ∧ s.currentlyWrittenToWriteBufferDataLen > 0 then
    ({ s with
      currentlySendingWritebufferIndicatorWhenFinished := 0
      currentlySendingWritebuffer := !s.currentlySendingWritebuffer
      currentlyWrittenToWriteBufferDataLen := 0
      dataLen_le := Nat.zero_le _ },
      some ⟨!s.currentlySendingWritebuffer, s.currentlyWrittenToWriteBufferDataLen⟩)
  else (s, none)

/-- Bytes written to the current write buffer from index `first` on. -/
def store (first : Nat) (bytes : List UInt8) (buffer : Bytes) : Traced Access Bytes := do
  Traced.emit [.buffer first bytes.length]
  return fun k => if first ≤ k ∧ k < first + bytes.length then bytes.getD (k - first) 0 else buffer k

/-- Where the options of the response start, behind `dataLen`. -/
def optionsOffset (tokenLength : Nat) : Nat :=
  SEND_BUFFER_HEADER_SIZE + UDP_HEADER_SIZE + COAP_PACKET_MINIMUM_SIZE + tokenLength

/-- Where the handler writes. -/
def responseOffset (tokenLength : Nat) : Nat :=
  optionsOffset tokenLength + RESPONSE_OPTIONS_SIZE + PAYLOAD_MARKER_SIZE

/-- mirrors coap_server.cpp:358-360 -/
def requiredWritebufferSize (h : Header) (paths : List PathIndex) : Nat :=
  if paths = [] ∨ h.codeDetail = 0 ∨ h.codeDetail > 4 then optionsOffset h.tokenLength
  else responseOffset h.tokenLength + RESPONSE_BUFFER_SIZE

def methodOf : Nat → Option Method
  | 1 => some .get
  | 2 => some .post
  | 3 => some .put
  | 4 => some .delete
  | _ => none

/-- mirrors coap_server.cpp:368-402 -/
def storeHeader (first : Nat) (sourceIP : UInt32) (sourcePort : UInt16) (h : Header) (buffer : Bytes) :
    Traced Access Bytes := do
  let buffer ← store first [(sourceIP &&& 0xFF).toUInt8, ((sourceIP >>> 8) &&& 0xFF).toUInt8,
    ((sourceIP >>> 16) &&& 0xFF).toUInt8, ((sourceIP >>> 24) &&& 0xFF).toUInt8,
    (sourcePort &&& 0xFF).toUInt8, ((sourcePort >>> 8) &&& 0xFF).toUInt8] buffer
  let buffer ← store (first + SEND_BUFFER_HEADER_SIZE) (List.replicate UDP_HEADER_SIZE 0) buffer
  let coap := first + SEND_BUFFER_HEADER_SIZE + UDP_HEADER_SIZE
  let buffer ← store coap [0b1000000 + UInt8.ofNat h.tokenLength + (if h.requiresAck then 0b100000 else 0b10000)]
    buffer
  let buffer ← store (coap + 2) [h.messageIDLower, h.messageIDUpper] buffer
  store (coap + 4) h.token buffer

/-- mirrors coap_server.cpp:411-417 -/
def payloadSize (udpPayloadSize offset : Nat) : Nat :=
  if udpPayloadSize < offset + PAYLOAD_MARKER_SIZE then 0 else udpPayloadSize - (offset + PAYLOAD_MARKER_SIZE)

/-- Whether the payload, if there is one, has its marker in front.
mirrors coap_server.cpp:419-429 -/
def checkPayloadMarker (udpPayload : Nat → UInt8) (udpPayloadSize offset : Nat) : Traced Access Bool :=
  if payloadSize udpPayloadSize offset > 0 then do
    let marker ← readByte udpPayload offset
    return marker == 0xFF
  else pure true

/-- The handler gets the response buffer, which it fills.
mirrors coap_server.cpp:431-455 -/
def callMethod (first : Nat) (p : CoAPPath) (payload : List UInt8) (h : Header) (s : PathState) (buffer : Bytes) :
    Traced Access (CoAPResponse × Bytes) :=
  match methodOf h.codeDetail with
  | none => pure (⟨METHOD_NOT_ALLOWED_RESPONSE_CODE, 0, .textPlainCharsetUTF8⟩, buffer)
  | some method => do
    let (response, bytes) := p.pHandler method s.path s.contentFormat payload
    let start := first + responseOffset h.tokenLength
    Traced.emit [.buffer start RESPONSE_BUFFER_SIZE]
    return (response, fun k => if start ≤ k ∧ k < start + RESPONSE_BUFFER_SIZE then bytes (k - start) else buffer k)

/-- `none`: the payload marker is missing. mirrors coap_server.cpp:409-456 -/
def callHandler (first : Nat) (udpPayload : Nat → UInt8) (udpPayloadSize : Nat) (h : Header) (offset : Nat)
    (s : PathState) (buffer : Bytes) : Traced Access (Option (CoAPResponse × Bytes)) :=
  match s.possibleValidPaths with
  | [] => pure (some (⟨NOT_FOUND_RESPONSE_CODE, 0, .textPlainCharsetUTF8⟩, buffer))
  | i :: _ => do
    let present ← checkPayloadMarker udpPayload udpPayloadSize offset
    if present then
      let payload := (List.range (payloadSize udpPayloadSize offset)).map fun k =>
        udpPayload (offset + PAYLOAD_MARKER_SIZE + k)
      let response ← callMethod first (s.elements i) payload h s buffer
      return some response
    else return none

/-- mirrors coap_server.cpp:458-461 -/
def CoAPResponse.limited (r : CoAPResponse) : CoAPResponse :=
  if r.responseSize > RESPONSE_BUFFER_SIZE then ⟨INTERNAL_SERVER_ERROR_RESPONSE_CODE, 0, r.contentFormat⟩ else r

/-- The size field, 16 bits. mirrors coap_server.cpp:499 -/
def packetSize (tokenLength : Nat) (r : CoAPResponse) : Nat :=
  (UDP_HEADER_SIZE + COAP_PACKET_MINIMUM_SIZE + tokenLength +
    (if r.responseSize > 0 then RESPONSE_OPTIONS_SIZE + PAYLOAD_MARKER_SIZE + r.responseSize else 0)) % 2 ^ 16

/-- The content format, if there is a payload. mirrors coap_server.cpp:463-495 -/
def storeFormat (first : Nat) (h : Header) (r : CoAPResponse) (buffer : Bytes) : Traced Access Bytes :=
  if r.responseSize > 0 then do
    let buffer ← store (first + optionsOffset h.tokenLength) [0b11000001, r.contentFormat.identifier] buffer
    store (first + optionsOffset h.tokenLength + RESPONSE_OPTIONS_SIZE) [0xFF] buffer
  else pure buffer

/-- Code and size. mirrors coap_server.cpp:497-501 -/
def storeSize (first : Nat) (h : Header) (r : CoAPResponse) (buffer : Bytes) : Traced Access Bytes := do
  let buffer ← store (first + SEND_BUFFER_HEADER_SIZE + UDP_HEADER_SIZE + 1) [r.responseCode] buffer
  store (first + 6) [UInt8.ofNat (packetSize h.tokenLength r &&& 0xFF),
    UInt8.ofNat ((packetSize h.tokenLength r >>> 8) &&& 0xFF)] buffer

theorem CoAPResponse.limited_size_le (r : CoAPResponse) : r.limited.responseSize ≤ RESPONSE_BUFFER_SIZE := by
  unfold limited
  split
  · exact Nat.zero_le _
  · omega

theorem CoAPResponse.limited_size_zero {r : CoAPResponse} (h : r.responseSize = 0) : r.limited.responseSize = 0 := by
  unfold limited
  split
  · rfl
  · exact h

theorem isSome_methodOf {n : Nat} (h : (methodOf n).isSome) : n ≠ 0 ∧ n ≤ 4 := by
  unfold methodOf at h
  split at h <;> simp_all

/-- Only a handler gives a response with a payload. -/
theorem callHandler_cases {first : Nat} {udpPayload : Nat → UInt8} {udpPayloadSize : Nat} {h : Header}
    {offset : Nat} {s : PathState} {buffer buffer' : Bytes} {r : CoAPResponse}
    (hcall : (callHandler first udpPayload udpPayloadSize h offset s buffer).val = some (r, buffer')) :
    r.responseSize = 0 ∨ s.possibleValidPaths ≠ [] ∧ (methodOf h.codeDetail).isSome := by
  unfold callHandler at hcall
  cases hpaths : s.possibleValidPaths with
  | nil =>
    rw [hpaths] at hcall
    cases hcall
    exact .inl rfl
  | cons i is =>
    rw [hpaths] at hcall
    simp only [Traced.val_bind, Traced.val_ite, Traced.val_pure] at hcall
    split at hcall
    · unfold callMethod at hcall
      cases hm : methodOf h.codeDetail with
      | none =>
        rw [hm] at hcall
        cases hcall
        exact .inl rfl
      | some m => exact .inr ⟨List.cons_ne_nil i is, rfl⟩
    · cases hcall

/-- What is appended is no more than what was asked for. -/
theorem size_le_required {first : Nat} {udpPayload : Nat → UInt8} {udpPayloadSize : Nat} {h : Header} {offset : Nat}
    {s : PathState} {buffer buffer' : Bytes} {r : CoAPResponse}
    (hcall : (callHandler first udpPayload udpPayloadSize h offset s buffer).val = some (r, buffer')) :
    SEND_BUFFER_HEADER_SIZE + packetSize h.tokenLength r.limited ≤ requiredWritebufferSize h s.possibleValidPaths := by
  have hmod : packetSize h.tokenLength r.limited ≤ _ := Nat.mod_le _ _
  rcases callHandler_cases hcall with h0 | ⟨hne, hm⟩
  · have hbase : optionsOffset h.tokenLength ≤ requiredWritebufferSize h s.possibleValidPaths := by
      unfold requiredWritebufferSize responseOffset
      split <;> omega
    rw [CoAPResponse.limited_size_zero h0] at hmod
    simp only [optionsOffset] at hbase
    simp only [gt_iff_lt, Nat.lt_irrefl, if_false] at hmod
    omega
  · obtain ⟨h1, h2⟩ := isSome_methodOf hm
    have hle := r.limited_size_le
    rw [requiredWritebufferSize, if_neg (by rintro (h' | h' | h') <;> first | exact hne h' | omega)]
    simp only [responseOffset, optionsOffset]
    split at hmod <;> omega

/-- How the handling of a request ends: with the system calls it makes, in order. -/
inductive Handled where
  | outOfRounds
  | finished (server : CoAPServer) (calls : List SendCall)

/-- The response to a request, behind what the current write buffer holds;
`false`: no response. mirrors coap_server.cpp:362-503 -/
def CoAPServer.writeResponse (server : CoAPServer) (sourceIP : UInt32) (sourcePort : UInt16)
    (udpPayload : Nat → UInt8) (udpPayloadSize : Nat) (h : Header) (offset : Nat) (s : PathState) :
    Traced Access (CoAPServer × Bool) :=
  let first := server.currentlyWrittenToWriteBufferDataLen
  let current := !server.currentlySendingWritebuffer
  if hroom : WRITE_BUFFER_SIZE - first < requiredWritebufferSize h s.possibleValidPaths then pure (server, false)
  else do
    let buffer ← storeHeader first sourceIP sourcePort h (server.writeBuffers current)
    let call := callHandler first udpPayload udpPayloadSize h offset s buffer
    let _ ← call
    match hcall : call.val with
    | none => return ({ server with writeBuffers := Function.update server.writeBuffers current buffer }, false)
    | some (response, buffer) =>
      let buffer ← storeFormat first h response.limited buffer
      let buffer ← storeSize first h response.limited buffer
      return ({ server with
        writeBuffers := Function.update server.writeBuffers current buffer
        currentlyWrittenToWriteBufferDataLen :=
          first + (SEND_BUFFER_HEADER_SIZE + packetSize h.tokenLength response.limited)
        dataLen_le := Nat.add_le_of_le_sub' server.dataLen_le
          ((size_le_required hcall).trans (Nat.le_of_not_lt hroom)) }, true)

/-- What is left to do when the options are read.
mirrors coap_server.cpp:348-509 -/
def CoAPServer.respond (server : CoAPServer) (sourceIP : UInt32) (sourcePort : UInt16)
    (udpPayload : Nat → UInt8) (udpPayloadSize : Nat) (h : Header) (offset : Nat) (s : PathState) :
    Traced Access Handled := do
  let s ← finishPath s
  let (server, firstCall) := { server with pathListElements := s.elements }.attemptWriteBufferSwap
  let (server, written) ← server.writeResponse sourceIP sourcePort udpPayload udpPayloadSize h offset s
  if written then
    let (server, secondCall) := server.attemptWriteBufferSwap
    return .finished server (firstCall.toList ++ secondCall.toList)
  else return .finished server firstCall.toList

/-- mirrors coap_server.cpp:181-509 -/
def CoAPServer.handlePacketFromReceiveBuffer (server : CoAPServer) (links : List PathIndex)
    (sourceIP : UInt32) (sourcePort : UInt16) (udpPayloadSize : Nat) (udpPayload : Nat → UInt8) (path : Bytes) :
    Traced Access Handled := do
  match ← readHeader udpPayload udpPayloadSize with
  | none => return .finished server []
  | some h =>
    match ← optionLoop links udpPayload udpPayloadSize (udpPayloadSize + 1) (4 + h.tokenLength) 0
        (server.pathState path) with
    | .outOfRounds => return .outOfRounds
    | .dropped s => return .finished { server with pathListElements := s.elements } []
    | .done offset s => server.respond sourceIP sourcePort udpPayload udpPayloadSize h offset s

end CpuScheduler.L6
