import CpuScheduler.L3Sockets.SendFormat
import CpuScheduler.L6Server.PathRegistry
import CpuScheduler.L6Server.RequestFormat

/-!
# The response to a request

`writeResponse` fills a record of the send buffer out of order: the header, then
the payload where the handler wrote it, the option in front of it, the code and
at last the size. `decodeMessage` is a client's decoder. A record is what
`SentPacket.encode` says (`Appends`), and the message in it is decoded to the
response (`Answers`).

The size is computed in 16 bits, and the response buffer is larger than what a
record can hold. So the record is right just if its size fits (`Short`).
-/
namespace CpuScheduler.L6

open Word L3

/-! ## A client -/

structure Message where
  version : Nat
  type : Nat
  code : UInt8
  messageID : UInt8 × UInt8
  token : List UInt8
  options : List (Nat × List UInt8)
  payload : List UInt8

/-- A 4-bit field with its extension, and the bytes behind it. -/
def decodeField : Nat → List UInt8 → Option (Nat × List UInt8)
  | 13, b :: rest => some (b.toNat + 13, rest)
  | 14, high :: low :: rest => some (be16 high low + 269, rest)
  | n, rest => if n < 13 then some (n, rest) else none

/-- The options behind an option with number `number`, and the payload. -/
def decodeOptions : Nat → Nat → List UInt8 → Option (List (Nat × List UInt8) × List UInt8)
  | _, _, [] => some ([], [])
  | 0, _, _ :: _ => none
  | fuel + 1, number, b :: rest =>
    if b = 0xFF then if rest = [] then none else some ([], rest)
    else do
      let (delta, rest) ← decodeField (b.toNat / 16) rest
      let (length, rest) ← decodeField (b.toNat % 16) rest
      if rest.length < length then none
      else
        let (options, payload) ← decodeOptions fuel (number + delta) (rest.drop length)
        some ((number + delta, rest.take length) :: options, payload)

def decodeMessage : List UInt8 → Option Message
  | first :: code :: id0 :: id1 :: rest =>
    let tokenLength := first.toNat % 16
    if tokenLength > 8 ∨ rest.length < tokenLength then none
    else (decodeOptions rest.length 0 (rest.drop tokenLength)).map fun r =>
      ⟨first.toNat / 64, first.toNat / 16 % 4, code, (id0, id1), rest.take tokenLength, r.1, r.2⟩
  | _ => none

theorem decodeField_length {n m : Nat} {bytes rest : List UInt8} (h : decodeField n bytes = some (m, rest)) :
    rest.length ≤ bytes.length := by
  unfold decodeField at h
  split at h
  · cases h
    exact Nat.le_succ _
  · cases h
    simp only [List.length_cons]
    omega
  · split at h
    · cases h
      exact Nat.le_refl _
    · cases h

/-- The payload is part of what was decoded. -/
theorem decodeOptions_length {fuel number : Nat} {bytes payload : List UInt8} {options : List (Nat × List UInt8)}
    (h : decodeOptions fuel number bytes = some (options, payload)) : payload.length ≤ bytes.length := by
  induction fuel generalizing number bytes options with
  | zero =>
    cases bytes with
    | nil =>
      cases h
      exact Nat.le_refl 0
    | cons b rest => cases h
  | succ fuel ih =>
    cases bytes with
    | nil =>
      cases h
      exact Nat.le_refl 0
    | cons b rest =>
      rw [decodeOptions] at h
      split at h
      · split at h
        · cases h
        · cases h
          exact Nat.le_succ _
      · obtain ⟨⟨delta, rest1⟩, hdelta, h⟩ := Option.bind_eq_some_iff.mp h
        obtain ⟨⟨length, rest2⟩, hlength, h⟩ := Option.bind_eq_some_iff.mp h
        have h1 := decodeField_length hdelta
        have h2 := decodeField_length hlength
        dsimp only at h
        split at h
        · cases h
        · obtain ⟨⟨options', payload'⟩, hrest, h⟩ := Option.bind_eq_some_iff.mp h
          cases h
          have h3 := ih hrest
          rw [List.length_drop] at h3
          rw [List.length_cons]
          omega

theorem decodeMessage_length {bytes : List UInt8} {message : Message} (h : decodeMessage bytes = some message) :
    message.payload.length ≤ bytes.length := by
  unfold decodeMessage at h
  split at h
  · rename_i first code id0 id1 rest
    dsimp only at h
    split at h
    · cases h
    · obtain ⟨⟨options, payload⟩, hoptions, h⟩ := Option.map_eq_some_iff.mp h
      cases h
      have hle := decodeOptions_length hoptions
      rw [List.length_drop] at hle
      simp only [List.length_cons]
      omega
  · cases h

/-! ## The bytes of a response -/

/-- The bytes that the handler left in the response buffer. -/
def body (r : CoAPResponse × Bytes) : List UInt8 := (List.range r.1.responseSize).map r.2

/-- The first byte: version 1, type ACK or NON, and the length of the token. -/
def responseType (h : Header) : UInt8 :=
  0b1000000 + UInt8.ofNat h.tokenLength + (if h.requiresAck then 0b100000 else 0b10000)

/-- The message for a response. -/
def encodeResponse (h : Header) (r : CoAPResponse × Bytes) : List UInt8 :=
  [responseType h, r.1.responseCode, h.messageIDLower, h.messageIDUpper] ++ (h.token ++
    if r.1.responseSize = 0 then [] else [0b11000001, r.1.contentFormat.identifier, 0xFF] ++ body r)

theorem responseType_fields : ∀ (requiresAck : Bool) (n : Fin 9),
    (0b1000000 + UInt8.ofNat n.val + (if requiresAck then 0b100000 else 0b10000) : UInt8).toNat =
      64 + (if requiresAck then 32 else 16) + n.val := by
  decide +kernel

/-- An option with a value of one byte, and a payload. -/
theorem decodeOptions_format (value : UInt8) {payload : List UInt8} (hne : payload ≠ []) (fuel : Nat) :
    decodeOptions (fuel + 2) 0 ([0b11000001, value, 0xFF] ++ payload) = some ([(12, [value])], payload) := by
  have hfield : decodeField 12 (value :: 0xFF :: payload) = some (12, value :: 0xFF :: payload) := rfl
  have hlength : decodeField 1 (value :: 0xFF :: payload) = some (1, value :: 0xFF :: payload) := rfl
  have hrest : decodeOptions (fuel + 1) (0 + 12) (0xFF :: payload) = some ([], payload) := by
    rw [decodeOptions, if_pos rfl, if_neg hne]
  simp only [List.cons_append, List.nil_append]
  rw [decodeOptions, if_neg (by decide)]
  show (decodeField 12 (value :: 0xFF :: payload)).bind _ = _
  rw [hfield, Option.bind_some]
  show (decodeField 1 (value :: 0xFF :: payload)).bind _ = _
  rw [hlength, Option.bind_some]
  dsimp only
  rw [if_neg (by simp), List.drop_one, List.tail_cons, hrest]
  rfl

/-- A client reads back what was encoded. -/
theorem decodeMessage_encodeResponse {h : Header} (hlength : h.tokenLength ≤ 8) (htoken : h.token.length = h.tokenLength)
    (r : CoAPResponse × Bytes) : decodeMessage (encodeResponse h r) =
      some ⟨1, if h.requiresAck then 2 else 1, r.1.responseCode, (h.messageIDLower, h.messageIDUpper), h.token,
        if r.1.responseSize = 0 then [] else [(12, [r.1.contentFormat.identifier])], body r⟩ := by
  have hfirst : (responseType h).toNat = 64 + (if h.requiresAck then 32 else 16) + h.tokenLength :=
    responseType_fields h.requiresAck ⟨h.tokenLength, Nat.lt_succ_of_le hlength⟩
  have hmod : (responseType h).toNat % 16 = h.token.length := by
    rw [hfirst, htoken]
    split <;> omega
  have hversion : (responseType h).toNat / 64 = 1 := by
    rw [hfirst]
    split <;> omega
  have htype : (responseType h).toNat / 16 % 4 = if h.requiresAck then 2 else 1 := by
    rw [hfirst]
    split <;> omega
  unfold encodeResponse
  simp only [List.cons_append, List.nil_append]
  rw [decodeMessage]
  rw [hmod, hversion, htype, if_neg (by rw [List.length_append]; omega), List.drop_left' rfl, List.take_left' rfl]
  by_cases hzero : r.1.responseSize = 0
  · have hbody : body r = [] := by simp [body, hzero]
    simp only [hzero, if_true, hbody]
    cases h.token <;> rfl
  · have hbody : body r ≠ [] := by simpa [body] using hzero
    simp only [if_neg hzero]
    have hsize : (h.token ++ 0b11000001 :: r.1.contentFormat.identifier :: 0xFF :: body r).length =
        h.token.length + (body r).length + 1 + 2 := by
      simp only [List.length_append, List.length_cons]
      omega
    have hoptions := decodeOptions_format r.1.contentFormat.identifier hbody (h.token.length + (body r).length + 1)
    rw [hsize, show decodeOptions _ 0 (0b11000001 :: r.1.contentFormat.identifier :: 0xFF :: body r) = _ from hoptions]
    rfl

/-! ## Writing to the buffer -/

section
variable {buffer : Bytes} {first offset : Nat} {bytes a : List UInt8}

theorem bytesAt_store (first : Nat) (bytes : List UInt8) (buffer : Bytes) : BytesAt (store first bytes buffer).val first bytes := by
  intro k hk
  simp only [store, Traced.val_bind, Traced.val_pure]
  rw [if_pos ⟨Nat.le_add_right _ _, Nat.add_lt_add_left hk _⟩, Nat.add_sub_cancel_left]

/-- A block elsewhere stays. -/
theorem BytesAt.store (h : BytesAt buffer offset a) (hapart : offset + a.length ≤ first ∨ first + bytes.length ≤ offset) :
    BytesAt (store first bytes buffer).val offset a := by
  intro k hk
  simp only [L6.store, Traced.val_bind, Traced.val_pure]
  rw [if_neg (by omega)]
  exact h k hk

/-- The response buffer, filled by the handler. -/
theorem fill_eq_store (start : Nat) (bytes : Bytes) (buffer : Bytes) :
    (fun k => if start ≤ k ∧ k < start + RESPONSE_BUFFER_SIZE then bytes (k - start) else buffer k) =
      (store start ((List.range RESPONSE_BUFFER_SIZE).map bytes) buffer).val := by
  funext k
  simp only [store, Traced.val_bind, Traced.val_pure, List.length_map, List.length_range]
  split
  · rename_i hk
    rw [List.getD_eq_getElem _ _ (by simp; omega), List.getElem_map, List.getElem_range]
  · rfl

end

/-! ## The record -/

/-- What the request is answered with, and the bytes the handler leaves in the
response buffer; `none`: the payload marker is missing. -/
def answer (udpPayload : Nat → UInt8) (udpPayloadSize : Nat) (h : Header) (offset : Nat) (s : PathState) :
    Option (CoAPResponse × Bytes) :=
  match dispatch udpPayload udpPayloadSize h offset s with
  | inv :: _ => some ((s.elements inv.handler).pHandler inv.method inv.path inv.contentFormat inv.payload)
  | [] =>
    if s.possibleValidPaths = [] then some (⟨NOT_FOUND_RESPONSE_CODE, 0, .textPlainCharsetUTF8⟩, fun _ => 0)
    else if (checkPayloadMarker udpPayload udpPayloadSize offset).val then
      some (⟨METHOD_NOT_ALLOWED_RESPONSE_CODE, 0, .textPlainCharsetUTF8⟩, fun _ => 0)
    else none

/-- The response and the request, as a client sees them. -/
structure Answers (udpPayload : Nat → UInt8) (r : CoAPResponse × Bytes) (message : Message) : Prop where
  version : message.version = 1
  type : message.type = if (udpPayload 0).toNat / 16 % 4 = 0 then 2 else 1
  code : message.code = r.1.responseCode
  messageID : message.messageID = (udpPayload 2, udpPayload 3)
  token : message.token = (List.range ((udpPayload 0).toNat % 16)).map fun k => udpPayload (4 + k)
  options : message.options = if r.1.responseSize = 0 then [] else [(12, [r.1.contentFormat.identifier])]
  payload : message.payload = body r

namespace CoAPServer

/-- The write buffer that responses are appended to. -/
def currentBuffer (server : CoAPServer) : Bytes := server.writeBuffers (!server.currentlySendingWritebuffer)

/-- These records are in it, back to back. -/
structure HoldsRecords (server : CoAPServer) (records : List SentPacket) : Prop where
  size : server.currentlyWrittenToWriteBufferDataLen = (encodeAll records).length
  bytes : BytesAt server.currentBuffer 0 (encodeAll records)

end CoAPServer

/-- One record is appended, with the eight bytes of the UDP header and a message
that is the answer. -/
def Appends (before after : CoAPServer) (sourceIP : UInt32) (sourcePort : UInt16) (udpPayload : Nat → UInt8)
    (r : CoAPResponse × Bytes) : Prop :=
  ∃ record : SentPacket, record.destinationIP = sourceIP ∧ record.destinationPort = sourcePort ∧
    record.data.take UDP_HEADER_SIZE = List.replicate UDP_HEADER_SIZE 0 ∧
    (∃ message, decodeMessage (record.data.drop UDP_HEADER_SIZE) = some message ∧ Answers udpPayload r message) ∧
    after.currentlyWrittenToWriteBufferDataLen = before.currentlyWrittenToWriteBufferDataLen + record.encode.length ∧
    BytesAt after.currentBuffer before.currentlyWrittenToWriteBufferDataLen record.encode ∧
    ∀ records, before.HoldsRecords records → after.HoldsRecords (records ++ [record])

/-- The size of the record fits into 16 bits. -/
def Short (h : Header) (r : CoAPResponse) : Prop :=
  r.responseSize = 0 ∨
    UDP_HEADER_SIZE + COAP_PACKET_MINIMUM_SIZE + h.tokenLength + RESPONSE_OPTIONS_SIZE + PAYLOAD_MARKER_SIZE +
      r.responseSize < 2 ^ 16

section
variable {udpPayload : Nat → UInt8} {udpPayloadSize : Nat} {h : Header} {offset : Nat} {s : PathState}
  {r : CoAPResponse × Bytes}

/-- The call, in terms of the answer: the bytes are where the response buffer
is, and everything outside of it stays. -/
theorem callHandler_answer (first : Nat) (buffer : Bytes) (hanswer : answer udpPayload udpPayloadSize h offset s = some r) :
    ∃ buffer', (callHandler first udpPayload udpPayloadSize h offset s buffer).val = some (r.1, buffer') ∧
      (r.1.responseSize ≤ RESPONSE_BUFFER_SIZE → BytesAt buffer' (first + responseOffset h.tokenLength) (body r)) ∧
      ∀ o a, o + a.length ≤ first + responseOffset h.tokenLength → BytesAt buffer o a → BytesAt buffer' o a := by
  rw [callHandler_val]
  unfold answer at hanswer
  cases hdispatch : dispatch udpPayload udpPayloadSize h offset s with
  | cons inv invs =>
    rw [hdispatch] at hanswer
    cases hanswer
    dsimp only
    rw [fill_eq_store]
    refine ⟨_, rfl, fun hsize => ?_, fun o a hle ha => ha.store (.inl hle)⟩
    refine (bytesAt_store _ _ _).ofInitial ?_
    rw [body, ← Nat.add_sub_cancel' hsize, List.range_add, List.map_append]
    exact List.prefix_append _ _
  | nil =>
    rw [hdispatch] at hanswer
    dsimp only at hanswer ⊢
    split at hanswer
    · rename_i hnil
      cases hanswer
      rw [if_pos hnil]
      exact ⟨buffer, rfl, fun _ k hk => absurd hk (Nat.not_lt_zero k), fun o a _ ha => ha⟩
    · rename_i hne
      rw [if_neg hne]
      split at hanswer
      · rename_i hmarker
        cases hanswer
        rw [if_pos hmarker]
        exact ⟨buffer, rfl, fun _ k hk => absurd hk (Nat.not_lt_zero k), fun o a _ ha => ha⟩
      · cases hanswer

/-- The address of the client. -/
def addressBytes (sourceIP : UInt32) (sourcePort : UInt16) : List UInt8 :=
  [(sourceIP &&& 0xFF).toUInt8, ((sourceIP >>> 8) &&& 0xFF).toUInt8, ((sourceIP >>> 16) &&& 0xFF).toUInt8,
    ((sourceIP >>> 24) &&& 0xFF).toUInt8, (sourcePort &&& 0xFF).toUInt8, ((sourcePort >>> 8) &&& 0xFF).toUInt8]

/-- The size field as it is computed. -/
def sizeBytes (h : Header) (r : CoAPResponse) : List UInt8 :=
  [UInt8.ofNat (packetSize h.tokenLength r &&& 0xFF), UInt8.ofNat ((packetSize h.tokenLength r >>> 8) &&& 0xFF)]

/-- What `storeHeader` has written, with holes for the size and the code. -/
structure HeaderAt (buffer : Bytes) (first : Nat) (sourceIP : UInt32) (sourcePort : UInt16) (h : Header) : Prop where
  address : BytesAt buffer first (addressBytes sourceIP sourcePort)
  udpHeader : BytesAt buffer (first + 8) (List.replicate 8 0)
  type : BytesAt buffer (first + 16) [responseType h]
  messageID : BytesAt buffer (first + 18) [h.messageIDLower, h.messageIDUpper]
  token : BytesAt buffer (first + 20) h.token

theorem storeHeader_headerAt (first : Nat) (sourceIP : UInt32) (sourcePort : UInt16) (h : Header) (buffer : Bytes) :
    HeaderAt (storeHeader first sourceIP sourcePort h buffer).val first sourceIP sourcePort h ∧
      ∀ o a, o + a.length ≤ first → BytesAt buffer o a →
        BytesAt (storeHeader first sourceIP sourcePort h buffer).val o a := by
  unfold storeHeader
  simp only [Traced.val_bind, SEND_BUFFER_HEADER_SIZE, UDP_HEADER_SIZE]
  refine ⟨⟨?_, ?_, ?_, ?_, ?_⟩, fun o a hle ha => ?_⟩
  · refine BytesAt.store (.store (.store (.store (bytesAt_store _ _ _) ?_) ?_) ?_) ?_ <;> left <;>
      simp [addressBytes, Nat.add_assoc]
  · refine BytesAt.store (.store (.store (bytesAt_store _ _ _) ?_) ?_) ?_ <;> left <;> simp [Nat.add_assoc]
  · refine BytesAt.store (.store (bytesAt_store _ _ _) ?_) ?_ <;> left <;> simp [Nat.add_assoc]
  · refine BytesAt.store (bytesAt_store _ _ _) ?_
    left
    simp [Nat.add_assoc]
  · exact bytesAt_store _ _ _
  · refine ((((ha.store ?_).store ?_).store ?_).store ?_).store ?_ <;> left <;> omega

/-- A block behind the header does not touch it. -/
theorem HeaderAt.store {buffer : Bytes} {first : Nat} {sourceIP : UInt32} {sourcePort : UInt16}
    (hh : HeaderAt buffer first sourceIP sourcePort h) {start : Nat} (bytes : List UInt8)
    (hstart : first + 20 + h.token.length ≤ start) :
    HeaderAt (L6.store start bytes buffer).val first sourceIP sourcePort h := by
  have hlength : (addressBytes sourceIP sourcePort).length = 6 := rfl
  refine ⟨hh.address.store (.inl ?_), hh.udpHeader.store (.inl ?_), hh.type.store (.inl ?_),
    hh.messageID.store (.inl ?_), hh.token.store (.inl hstart)⟩
  · omega
  · rw [List.length_replicate]
    omega
  · rw [List.length_singleton]
    omega
  · rw [List.length_cons, List.length_singleton]
    omega

/-- The same for the bytes that the handler may have changed. -/
theorem HeaderAt.kept {buffer buffer' : Bytes} {first : Nat} {sourceIP : UInt32} {sourcePort : UInt16}
    (hh : HeaderAt buffer first sourceIP sourcePort h) {start : Nat} (hstart : first + 20 + h.token.length ≤ start)
    (hkept : ∀ o a, o + a.length ≤ start → BytesAt buffer o a → BytesAt buffer' o a) :
    HeaderAt buffer' first sourceIP sourcePort h := by
  have hlength : (addressBytes sourceIP sourcePort).length = 6 := rfl
  refine ⟨hkept _ _ ?_ hh.address, hkept _ _ ?_ hh.udpHeader, hkept _ _ ?_ hh.type, hkept _ _ ?_ hh.messageID,
    hkept _ _ hstart hh.token⟩
  · omega
  · rw [List.length_replicate]
    omega
  · rw [List.length_singleton]
    omega
  · rw [List.length_cons, List.length_singleton]
    omega

/-- With the code and the size, the header and the rest make up the record. -/
theorem storeSize_record {buffer : Bytes} {first : Nat} {sourceIP : UInt32} {sourcePort : UInt16}
    (hh : HeaderAt buffer first sourceIP sourcePort h) {rest : List UInt8}
    (hrest : BytesAt buffer (first + 20 + h.token.length) rest) :
    BytesAt (storeSize first h r.1 buffer).val first (addressBytes sourceIP sourcePort ++ (sizeBytes h r.1 ++
      (List.replicate 8 0 ++ ([responseType h, r.1.responseCode, h.messageIDLower, h.messageIDUpper] ++
        (h.token ++ rest))))) := by
  have hlength : (addressBytes sourceIP sourcePort).length = 6 := rfl
  have hsize : (sizeBytes h r.1).length = 2 := rfl
  have hval : (storeSize first h r.1 buffer).val =
    (store (first + 6) (sizeBytes h r.1) (store (first + 17) [r.1.responseCode] buffer).val).val := rfl
  have hlist : [responseType h, r.1.responseCode, h.messageIDLower, h.messageIDUpper] =
    [responseType h] ++ ([r.1.responseCode] ++ [h.messageIDLower, h.messageIDUpper]) := rfl
  rw [hval, hlist, bytesAt_append, bytesAt_append, bytesAt_append, bytesAt_append, bytesAt_append, bytesAt_append,
    bytesAt_append, hlength, hsize, List.length_replicate]
  simp only [List.length_append, List.length_cons, List.length_nil]
  -- neither the code nor the size is written over anything
  refine ⟨(hh.address.store (.inl ?_)).store (.inl ?_), bytesAt_store _ _ _,
    (hh.udpHeader.store (.inl ?_)).store (.inr ?_), ⟨(hh.type.store (.inl ?_)).store (.inr ?_),
      (bytesAt_store _ _ _).store (.inr ?_), (hh.messageID.store (.inr ?_)).store (.inr ?_)⟩,
    (hh.token.store (.inr ?_)).store (.inr ?_), (hrest.store (.inr ?_)).store (.inr ?_)⟩ <;>
  simp only [hlength, hsize, List.length_replicate, List.length_cons, List.length_nil] <;> omega

/-- The option and the payload marker go in front of the payload. -/
theorem storeFormat_rest {buffer : Bytes} {first : Nat} {sourceIP : UInt32} {sourcePort : UInt16}
    (hh : HeaderAt buffer first sourceIP sourcePort h) (htoken : h.token.length = h.tokenLength)
    (hbody : BytesAt buffer (first + responseOffset h.tokenLength) (body r)) :
    HeaderAt (storeFormat first h r.1 buffer).val first sourceIP sourcePort h ∧
      BytesAt (storeFormat first h r.1 buffer).val (first + 20 + h.token.length)
        (if r.1.responseSize = 0 then [] else [0b11000001, r.1.contentFormat.identifier, 0xFF] ++ body r) ∧
      ∀ o a, o + a.length ≤ first → BytesAt buffer o a → BytesAt (storeFormat first h r.1 buffer).val o a := by
  have hoptions : first + optionsOffset h.tokenLength = first + 20 + h.token.length := by
    rw [htoken, optionsOffset, SEND_BUFFER_HEADER_SIZE, UDP_HEADER_SIZE, COAP_PACKET_MINIMUM_SIZE]
    omega
  have hresponse : first + responseOffset h.tokenLength = first + 20 + h.token.length + 3 := by
    rw [responseOffset, RESPONSE_OPTIONS_SIZE, PAYLOAD_MARKER_SIZE]
    omega
  rw [hresponse] at hbody
  unfold storeFormat
  by_cases hzero : r.1.responseSize = 0
  · rw [if_neg (by omega), if_pos hzero]
    exact ⟨hh, fun k hk => absurd hk (Nat.not_lt_zero k), fun o a _ ha => ha⟩
  · rw [if_pos (by omega), if_neg hzero]
    simp only [Traced.val_bind, hoptions, RESPONSE_OPTIONS_SIZE]
    have hlist : [0b11000001, r.1.contentFormat.identifier, 0xFF] =
      [0b11000001, r.1.contentFormat.identifier] ++ [(0xFF : UInt8)] := rfl
    refine ⟨(hh.store _ (Nat.le_refl _)).store _ (by omega), ?_, fun o a hle ha => ?_⟩
    · rw [hlist, bytesAt_append, bytesAt_append]
      exact ⟨⟨(bytesAt_store _ _ _).store (.inl (Nat.le_refl _)), bytesAt_store _ _ _⟩,
        (hbody.store (.inr (Nat.le_add_right _ 1))).store (.inr (Nat.le_refl _))⟩
    · exact (ha.store (.inl (by omega))).store (.inl (by omega))

/-- What a response makes of the write buffer, for any size. -/
theorem writeResponse_answer {before : CoAPServer} (sourceIP : UInt32) (sourcePort : UInt16)
    (hroom : requiredWritebufferSize h s.possibleValidPaths ≤
      WRITE_BUFFER_SIZE - before.currentlyWrittenToWriteBufferDataLen)
    (hanswer : answer udpPayload udpPayloadSize h offset s = some r) (htoken : h.token.length = h.tokenLength)
    (hsize : r.1.responseSize ≤ RESPONSE_BUFFER_SIZE) :
    let w := (before.writeResponse sourceIP sourcePort udpPayload udpPayloadSize h offset s).val
    w.2 = true ∧ w.1.currentlyWrittenToWriteBufferDataLen =
        before.currentlyWrittenToWriteBufferDataLen + (SEND_BUFFER_HEADER_SIZE + packetSize h.tokenLength r.1) ∧
      BytesAt w.1.currentBuffer before.currentlyWrittenToWriteBufferDataLen
        (addressBytes sourceIP sourcePort ++ (sizeBytes h r.1 ++ (List.replicate 8 0 ++ encodeResponse h r))) ∧
      ∀ a, a.length ≤ before.currentlyWrittenToWriteBufferDataLen → BytesAt before.currentBuffer 0 a →
        BytesAt w.1.currentBuffer 0 a := by
  obtain ⟨hheader, hbelow⟩ := storeHeader_headerAt before.currentlyWrittenToWriteBufferDataLen sourceIP sourcePort h
    (before.writeBuffers (!before.currentlySendingWritebuffer))
  obtain ⟨buffer', hcall, hbody, hkept⟩ := callHandler_answer before.currentlyWrittenToWriteBufferDataLen
    (storeHeader before.currentlyWrittenToWriteBufferDataLen sourceIP sourcePort h
      (before.writeBuffers (!before.currentlySendingWritebuffer))).val hanswer
  have hlimited : r.1.limited = r.1 := if_neg (by omega)
  have hstart : before.currentlyWrittenToWriteBufferDataLen + 20 + h.token.length ≤
      before.currentlyWrittenToWriteBufferDataLen + responseOffset h.tokenLength := by
    rw [htoken, responseOffset, optionsOffset, SEND_BUFFER_HEADER_SIZE, UDP_HEADER_SIZE, COAP_PACKET_MINIMUM_SIZE]
    omega
  obtain ⟨hheader', hrest, hbelow'⟩ := storeFormat_rest (hheader.kept hstart hkept) htoken (hbody hsize)
  have hrecord := storeSize_record (r := r) hheader' hrest
  unfold CoAPServer.writeResponse
  dsimp only
  rw [dif_neg (by omega)]
  simp only [Traced.val_bind]
  split
  · rename_i hnone
    rw [hcall] at hnone
    cases hnone
  · rename_i response buffer hval
    rw [hcall] at hval
    cases hval
    refine ⟨rfl, ?_, ?_, fun a hle ha => ?_⟩
    · show before.currentlyWrittenToWriteBufferDataLen + (_ + packetSize h.tokenLength r.1.limited) = _
      rw [hlimited]
    · show BytesAt (Function.update before.writeBuffers (!before.currentlySendingWritebuffer)
        (storeSize _ h r.1.limited (storeFormat _ h r.1.limited buffer').val).val
        (!before.currentlySendingWritebuffer)) _ _
      rw [Function.update_self, hlimited]
      exact hrecord
    · show BytesAt (Function.update before.writeBuffers (!before.currentlySendingWritebuffer)
        (storeSize _ h r.1.limited (storeFormat _ h r.1.limited buffer').val).val
        (!before.currentlySendingWritebuffer)) _ _
      rw [Function.update_self, hlimited]
      have h0 := hbelow' 0 a (by omega) (hkept 0 a (by omega) (hbelow 0 a (by omega) ha))
      exact (h0.store (.inl (by omega))).store (.inl (by omega))

/-! ## The record of a short response -/

theorem toUInt8_and_ff (x : UInt32) : (x &&& 0xFF).toUInt8 = UInt8.ofNat x.toNat := by
  apply UInt8.toNat_inj.mp
  rw [UInt32.toNat_toUInt8, UInt8.toNat_ofNat', UInt32.toNat_and, show (0xFF : UInt32).toNat = 2 ^ 8 - 1 from rfl,
    Nat.and_two_pow_sub_one_eq_mod, Nat.mod_mod]

theorem toUInt8_and_ff16 (x : UInt16) : (x &&& 0xFF).toUInt8 = UInt8.ofNat x.toNat := by
  apply UInt8.toNat_inj.mp
  rw [UInt16.toNat_toUInt8, UInt8.toNat_ofNat', UInt16.toNat_and, show (0xFF : UInt16).toNat = 2 ^ 8 - 1 from rfl,
    Nat.and_two_pow_sub_one_eq_mod, Nat.mod_mod]

theorem addressBytes_eq (sourceIP : UInt32) (sourcePort : UInt16) :
    addressBytes sourceIP sourcePort = littleEndian 4 sourceIP.toNat ++ littleEndian 2 sourcePort.toNat := by
  have hshift (k : Nat) (hk : k < 32) : (sourceIP >>> UInt32.ofNat k).toNat = sourceIP.toNat / 2 ^ k := by
    rw [UInt32.toNat_shiftRight, UInt32.toNat_ofNat', Nat.shiftRight_eq_div_pow, Nat.mod_eq_of_lt (b := 2 ^ 32) (by omega),
      Nat.mod_eq_of_lt hk]
  have hshift8 : (sourcePort >>> 8).toNat = sourcePort.toNat / 256 := by
    rw [UInt16.toNat_shiftRight, Nat.shiftRight_eq_div_pow]
    rfl
  have h8 := hshift 8 (by decide)
  have h16 := hshift 16 (by decide)
  have h24 := hshift 24 (by decide)
  unfold addressBytes
  simp only [toUInt8_and_ff, toUInt8_and_ff16]
  rw [show (8 : UInt32) = UInt32.ofNat 8 from rfl, show (16 : UInt32) = UInt32.ofNat 16 from rfl,
    show (24 : UInt32) = UInt32.ofNat 24 from rfl, h8, h16, h24, hshift8]
  simp [littleEndian, List.range_succ]

theorem sizeBytes_eq (h : Header) (r : CoAPResponse) : sizeBytes h r = littleEndian 2 (packetSize h.tokenLength r) := by
  have hlow (n : Nat) : UInt8.ofNat (n &&& 0xFF) = UInt8.ofNat n := by
    apply UInt8.toNat_inj.mp
    rw [UInt8.toNat_ofNat', UInt8.toNat_ofNat', show 0xFF = 2 ^ 8 - 1 from rfl, Nat.and_two_pow_sub_one_eq_mod,
      Nat.mod_mod]
  simp [sizeBytes, littleEndian, List.range_succ, hlow, Nat.shiftRight_eq_div_pow]

theorem length_encodeResponse (htoken : h.token.length = h.tokenLength) : (encodeResponse h r).length =
    4 + h.tokenLength + if r.1.responseSize = 0 then 0 else 3 + r.1.responseSize := by
  simp only [encodeResponse, List.length_append, List.length_cons, List.length_nil, htoken]
  by_cases hzero : r.1.responseSize = 0
  · rw [if_pos hzero, if_pos hzero]
    rfl
  · rw [if_neg hzero, if_neg hzero]
    simp only [List.length_append, List.length_cons, List.length_nil, body, List.length_map, List.length_range]
    omega

/-- The size field before it is cut to 16 bits. -/
theorem packetSize_eq (htoken : h.token.length = h.tokenLength) :
    packetSize h.tokenLength r.1 = (8 + (encodeResponse h r).length) % 2 ^ 16 := by
  rw [length_encodeResponse htoken, packetSize, UDP_HEADER_SIZE, COAP_PACKET_MINIMUM_SIZE, RESPONSE_OPTIONS_SIZE,
    PAYLOAD_MARKER_SIZE]
  by_cases hzero : r.1.responseSize = 0
  · rw [if_neg (by omega), if_pos hzero]
    omega
  · rw [if_pos (by omega), if_neg hzero]
    omega

theorem short_iff (hlength : h.tokenLength ≤ 8) (htoken : h.token.length = h.tokenLength) :
    Short h r.1 ↔ 8 + (encodeResponse h r).length < 2 ^ 16 := by
  rw [length_encodeResponse htoken, Short, UDP_HEADER_SIZE, COAP_PACKET_MINIMUM_SIZE, RESPONSE_OPTIONS_SIZE,
    PAYLOAD_MARKER_SIZE]
  by_cases hzero : r.1.responseSize = 0
  · rw [if_pos hzero]
    omega
  · rw [if_neg hzero]
    omega

theorem eight_le_data (h : Header) (r : CoAPResponse × Bytes) :
    8 ≤ (List.replicate 8 (0 : UInt8) ++ encodeResponse h r).length := by
  rw [List.length_append, List.length_replicate]
  exact Nat.le_add_right 8 _

theorem data_le (hshort : 8 + (encodeResponse h r).length < 2 ^ 16) :
    (List.replicate 8 (0 : UInt8) ++ encodeResponse h r).length ≤ 65535 := by
  rw [List.length_append, List.length_replicate]
  omega

/-- The record for a response that fits. -/
def responseRecord (sourceIP : UInt32) (sourcePort : UInt16) (h : Header) (r : CoAPResponse × Bytes)
    (hshort : 8 + (encodeResponse h r).length < 2 ^ 16) : SentPacket where
  destinationIP := sourceIP
  destinationPort := sourcePort
  data := List.replicate 8 0 ++ encodeResponse h r
  min := eight_le_data h r
  max := data_le hshort

theorem encode_responseRecord (sourceIP : UInt32) (sourcePort : UInt16) (htoken : h.token.length = h.tokenLength)
    (hshort : 8 + (encodeResponse h r).length < 2 ^ 16) :
    (responseRecord sourceIP sourcePort h r hshort).encode =
      addressBytes sourceIP sourcePort ++ (sizeBytes h r.1 ++ (List.replicate 8 0 ++ encodeResponse h r)) := by
  have hsize : packetSize h.tokenLength r.1 = (List.replicate 8 (0 : UInt8) ++ encodeResponse h r).length := by
    rw [packetSize_eq htoken, Nat.mod_eq_of_lt hshort, List.length_append, List.length_replicate]
  rw [addressBytes_eq, sizeBytes_eq, hsize, SentPacket.encode]
  simp only [responseRecord, List.append_assoc]

/-! ## The request in the response -/

theorem type_bits : ∀ b : Fin 256, ((UInt8.ofNat b.val &&& 0b110000) >>> 4).toNat = b.val / 16 % 4 := by
  decide +kernel

theorem typeBits_toNat (x : UInt8) : ((x &&& 0b110000) >>> 4).toNat = x.toNat / 16 % 4 := by
  have hbits := type_bits ⟨x.toNat, x.toNat_lt⟩
  rwa [UInt8.ofNat_toNat] at hbits

theorem readBytes_val (first n : Nat) :
    (readBytes udpPayload first n).val = (List.range n).map fun k => udpPayload (first + k) := by
  induction n generalizing first with
  | zero => rfl
  | succ n ih =>
    rw [List.range_succ_eq_map, List.map_cons, List.map_map]
    simp only [readBytes, Traced.val_bind, Traced.val_pure, ih (first + 1)]
    refine congrArg₂ _ rfl (List.map_congr_left fun k _ => ?_)
    simp only [Function.comp_apply]
    rw [Nat.add_assoc, Nat.add_comm 1 k]

/-- What the header says, in the bytes of the datagram. -/
theorem readHeader_bytes (hread : (readHeader udpPayload udpPayloadSize).val = some h) :
    h.requiresAck = decide ((udpPayload 0).toNat / 16 % 4 = 0) ∧ h.messageIDLower = udpPayload 2 ∧
      h.messageIDUpper = udpPayload 3 ∧
      h.token = (List.range ((udpPayload 0).toNat % 16)).map fun k => udpPayload (4 + k) := by
  have hlow := (nibbles_toNat (udpPayload 0)).2
  have htype : (((udpPayload 0 &&& 0b110000) >>> 4) == 0) = decide ((udpPayload 0).toNat / 16 % 4 = 0) := by
    rw [← typeBits_toNat, Bool.eq_iff_iff, beq_iff_eq, decide_eq_true_iff]
    exact ⟨fun h0 => by rw [h0]; rfl, fun h0 => UInt8.toNat_inj.mp h0⟩
  unfold readHeader at hread
  simp only [Traced.val_ite, Traced.val_bind, Traced.val_pure, readBytes_val] at hread
  repeat' split at hread
  all_goals cases hread
  refine ⟨htype, rfl, rfl, ?_⟩
  show (List.range (udpPayload 0 &&& 0b1111).toNat).map (fun k => udpPayload (4 + k)) = _
  rw [hlow]

/-- The message in the record is the answer. -/
theorem answers_encodeResponse (hread : (readHeader udpPayload udpPayloadSize).val = some h) : ∃ message,
    decodeMessage (encodeResponse h r) = some message ∧ Answers udpPayload r message := by
  obtain ⟨hack, hlower, hupper, htoken⟩ := readHeader_bytes hread
  refine ⟨_, decodeMessage_encodeResponse (readHeader_tokenLength hread).2 (readHeader_some hread).2 r, ?_⟩
  exact ⟨rfl, by simp [hack], rfl, by rw [hlower, hupper], htoken, rfl, rfl⟩

theorem encodeAll_append (records : List SentPacket) (record : SentPacket) :
    encodeAll (records ++ [record]) = encodeAll records ++ record.encode := by
  simp [encodeAll]

/-- A response that is not longer than the response buffer is written as a
record just if its size fits. -/
theorem appends_iff {before : CoAPServer} {sourceIP : UInt32} {sourcePort : UInt16}
    (hread : (readHeader udpPayload udpPayloadSize).val = some h)
    (hroom : requiredWritebufferSize h s.possibleValidPaths ≤
      WRITE_BUFFER_SIZE - before.currentlyWrittenToWriteBufferDataLen)
    (hanswer : answer udpPayload udpPayloadSize h offset s = some r) (hsize : r.1.responseSize ≤ RESPONSE_BUFFER_SIZE) :
    Appends before (before.writeResponse sourceIP sourcePort udpPayload udpPayloadSize h offset s).val.1 sourceIP
      sourcePort udpPayload r ↔ Short h r.1 := by
  have htoken := (readHeader_some hread).2
  have hlength := (readHeader_tokenLength hread).2
  obtain ⟨-, hlen, hbytes, hbelow⟩ := writeResponse_answer sourceIP sourcePort hroom hanswer htoken hsize
  rw [short_iff hlength htoken]
  constructor
  · rintro ⟨record, -, -, -, ⟨message, hdecode, hanswers⟩, hgrows, -, -⟩
    -- the payload alone is longer than what the server counts
    have hpayload := decodeMessage_length hdecode
    rw [hanswers.payload, body, List.length_map, List.length_range, List.length_drop, UDP_HEADER_SIZE] at hpayload
    rw [hlen, length_encode, packetSize_eq htoken, SEND_BUFFER_HEADER_SIZE] at hgrows
    rw [RESPONSE_BUFFER_SIZE] at hsize
    have hmessage := length_encodeResponse (r := r) htoken
    split at hmessage <;> omega
  · intro hshort
    have hrecord := encode_responseRecord sourceIP sourcePort htoken hshort
    have hgrows : SEND_BUFFER_HEADER_SIZE + packetSize h.tokenLength r.1 =
        (responseRecord sourceIP sourcePort h r hshort).encode.length := by
      rw [length_encode, packetSize_eq htoken, Nat.mod_eq_of_lt hshort, SEND_BUFFER_HEADER_SIZE]
      show 8 + (8 + (encodeResponse h r).length) = 8 + (List.replicate 8 (0 : UInt8) ++ encodeResponse h r).length
      rw [List.length_append, List.length_replicate]
    obtain ⟨message, hdecode, hanswers⟩ := answers_encodeResponse (r := r) hread
    rw [← hrecord] at hbytes
    refine ⟨responseRecord sourceIP sourcePort h r hshort, rfl, rfl, rfl, ⟨message, hdecode, hanswers⟩, ?_, hbytes,
      fun records hholds => ⟨?_, ?_⟩⟩
    · rw [hlen, hgrows]
    · rw [encodeAll_append, List.length_append, ← hholds.size, hlen, hgrows]
    · rw [encodeAll_append, bytesAt_append, Nat.zero_add, ← hholds.size]
      exact ⟨hbelow _ (Nat.le_of_eq hholds.size.symm) hholds.bytes, hbytes⟩

end

/-- What is handed over with `setSendBuffer` is what the network task decodes. -/
theorem CoAPServer.HoldsRecords.holdsPackets {server : CoAPServer} {records : List SentPacket}
    (h : server.HoldsRecords records) {mem : Mem} {d : SocketDesc}
    (hsize : d.sendBufferSize.toNat = server.currentlyWrittenToWriteBufferDataLen)
    (hmem : ∀ k < server.currentlyWrittenToWriteBufferDataLen, view mem d.sendBuffer k = server.currentBuffer k)
    (hoffset : d.sendBufferFragmentOffset = 0) : HoldsPackets mem d records where
  size := by rw [hsize, h.size]
  bytes k hk := by
    have hbyte := h.bytes k hk
    rw [Nat.zero_add] at hbyte
    rw [hmem k (by rw [h.size]; exact hk), hbyte]
  fragmentOffset := hoffset

/-! ## A whole packet -/

namespace CoAPServer

section
variable (server : CoAPServer) (links : List PathIndex) (sourceIP : UInt32) (sourcePort : UInt16)
  (udpPayloadSize : Nat) (udpPayload : Nat → UInt8) (path : Bytes)

/-- The header and the options are accepted; `s` is what they make of the path. -/
def Accepts (h : Header) (offset : Nat) (s : PathState) : Prop :=
  (readHeader udpPayload udpPayloadSize).val = some h ∧
    ∃ s0, (optionLoop links udpPayload udpPayloadSize (udpPayloadSize + 1) (4 + h.tokenLength) 0
      (server.pathState path)).val = .done offset s0 ∧ s = (finishPath s0).val

/-- The call of the first swap. mirrors coap_server.cpp:362 -/
def firstCalls (s : PathState) : List SendCall :=
  ({ server with pathListElements := s.elements }.attemptWriteBufferSwap).2.toList

/-- The server when the response is written. mirrors coap_server.cpp:362-503 -/
def responded (h : Header) (offset : Nat) (s : PathState) : CoAPServer :=
  ((server.swapped s).writeResponse sourceIP sourcePort udpPayload udpPayloadSize h offset s).val.1

/-- Where there is room a record with the answer is appended, and where there is
none no handler runs and nothing changes. -/
def RespondsWell : Prop :=
  ∀ h offset s, server.Accepts links udpPayloadSize udpPayload path h offset s →
    (¬ server.HasRoom h s →
      handlerCalls (server.handlePacketFromReceiveBuffer links sourceIP sourcePort udpPayloadSize udpPayload path) = 0 ∧
      (server.handlePacketFromReceiveBuffer links sourceIP sourcePort udpPayloadSize udpPayload path).val =
        .finished (server.swapped s) (server.firstCalls s)) ∧
    (server.HasRoom h s → ∀ r, answer udpPayload udpPayloadSize h offset s = some r →
      r.1.responseSize ≤ RESPONSE_BUFFER_SIZE →
      Appends (server.swapped s) (server.responded sourceIP sourcePort udpPayloadSize udpPayload h offset s) sourceIP
        sourcePort udpPayload r ∧
      (server.handlePacketFromReceiveBuffer links sourceIP sourcePort udpPayloadSize udpPayload path).val =
        .finished (server.responded sourceIP sourcePort udpPayloadSize udpPayload h offset s).attemptWriteBufferSwap.1
          (server.firstCalls s ++ (server.responded sourceIP sourcePort udpPayloadSize udpPayload h offset
            s).attemptWriteBufferSwap.2.toList))

variable {server links udpPayloadSize udpPayload path} {h : Header} {offset : Nat} {s : PathState}

theorem handlePacket_val (haccepts : server.Accepts links udpPayloadSize udpPayload path h offset s) :
    (server.handlePacketFromReceiveBuffer links sourceIP sourcePort udpPayloadSize udpPayload path).val =
      if ((server.swapped s).writeResponse sourceIP sourcePort udpPayload udpPayloadSize h offset s).val.2 then
        .finished (server.responded sourceIP sourcePort udpPayloadSize udpPayload h offset s).attemptWriteBufferSwap.1
          (server.firstCalls s ++ (server.responded sourceIP sourcePort udpPayloadSize udpPayload h offset
            s).attemptWriteBufferSwap.2.toList)
      else .finished (server.responded sourceIP sourcePort udpPayloadSize udpPayload h offset s) (server.firstCalls s) := by
  obtain ⟨hread, s0, hloop, rfl⟩ := haccepts
  unfold handlePacketFromReceiveBuffer
  rw [Traced.val_bind, hread]
  dsimp only
  rw [Traced.val_bind, hloop]
  unfold respond
  simp only [Traced.val_bind, Traced.val_ite, Traced.val_pure]
  rfl

theorem handlePacket_noRoom (haccepts : server.Accepts links udpPayloadSize udpPayload path h offset s)
    (hroom : ¬ server.HasRoom h s) :
    handlerCalls (server.handlePacketFromReceiveBuffer links sourceIP sourcePort udpPayloadSize udpPayload path) = 0 ∧
      (server.handlePacketFromReceiveBuffer links sourceIP sourcePort udpPayloadSize udpPayload path).val =
        .finished (server.swapped s) (server.firstCalls s) := by
  have hwrite : (server.swapped s).writeResponse sourceIP sourcePort udpPayload udpPayloadSize h offset s =
      pure (server.swapped s, false) := by
    unfold writeResponse
    dsimp only
    exact dif_pos (Nat.lt_of_not_le hroom)
  rw [handlePacket_val sourceIP sourcePort haccepts, responded, hwrite]
  refine ⟨?_, rfl⟩
  obtain ⟨hread, s0, hloop, rfl⟩ := haccepts
  rw [handlerCalls_handlePacket, invocations, hread]
  dsimp only
  rw [hloop]
  dsimp only
  rw [if_neg hroom]
  rfl

variable (server links udpPayloadSize udpPayload path) in
/-- The response is right just if its size fits into 16 bits. -/
theorem response_wellFormed_iff :
    server.RespondsWell links sourceIP sourcePort udpPayloadSize udpPayload path ↔
      ∀ h offset s, server.Accepts links udpPayloadSize udpPayload path h offset s → server.HasRoom h s →
        ∀ r, answer udpPayload udpPayloadSize h offset s = some r → r.1.responseSize ≤ RESPONSE_BUFFER_SIZE →
          Short h r.1 := by
  constructor
  · intro hwell h offset s haccepts hroom r hanswer hsize
    obtain ⟨happends, -⟩ := (hwell h offset s haccepts).2 hroom r hanswer hsize
    exact (appends_iff haccepts.1 hroom hanswer hsize).mp happends
  · intro hshort h offset s haccepts
    refine ⟨handlePacket_noRoom sourceIP sourcePort haccepts, fun hroom r hanswer hsize => ?_⟩
    refine ⟨(appends_iff haccepts.1 hroom hanswer hsize).mpr (hshort h offset s haccepts hroom r hanswer hsize), ?_⟩
    obtain ⟨hwritten, -⟩ := writeResponse_answer sourceIP sourcePort hroom hanswer (readHeader_some haccepts.1).2
      hsize
    rw [handlePacket_val sourceIP sourcePort haccepts, if_pos hwritten]

end

end CoAPServer

/-- 65536 bytes. -/
def wholeBufferHandler : CoAPHandler := fun _ _ _ _ => (⟨0x45, 0x10000, .applicationOctetStream⟩, fun _ => 0x61)

theorem anyPath_fits : [slash, caret].length ≤ MAX_COAP_PATH_SIZE := Nat.le_add_left 2 98

/-- One registered path, "/^", and nothing to send. -/
def wholeBufferServer : CoAPServer :=
  { oneHandlerServer with pathListElements := fun _ => ⟨[slash, caret], 0, wholeBufferHandler, anyPath_fits⟩ }

/-- GET /a -/
def getA : Nat → UInt8
  | 0 => 0x40
  | 1 => 1
  | 2 => 0x12
  | 3 => 0x34
  | 4 => 0xB1
  | _ => 0x61

theorem getA_accepted : ∃ h offset s, wholeBufferServer.Accepts [] 6 getA (fun _ => 0) h offset s ∧
    wholeBufferServer.HasRoom h s ∧
    answer getA 6 h offset s = some (wholeBufferHandler .get (fun _ => 0) .textPlainCharsetUTF8 []) ∧ h.tokenLength = 0 := by
  refine ⟨⟨true, 0, 1, 0x12, 0x34, []⟩, 6, _, ⟨rfl, _, rfl, rfl⟩, ?_, ?_, rfl⟩
  · decide +kernel
  · rfl

theorem whole_buffer_truncated : ¬ wholeBufferServer.RespondsWell [] 0x0100000A 5683 6 getA fun _ => 0 := by
  intro hwell
  obtain ⟨h, offset, s, haccepts, hroom, hanswer, htoken⟩ := getA_accepted
  obtain ⟨happends, -⟩ := (hwell h offset s haccepts).2 hroom _ hanswer (by decide)
  rcases (appends_iff haccepts.1 hroom hanswer (by decide)).mp happends with hzero | hshort
  · exact absurd hzero (by decide)
  · rw [htoken] at hshort
    exact absurd hshort (by decide)

end CpuScheduler.L6
