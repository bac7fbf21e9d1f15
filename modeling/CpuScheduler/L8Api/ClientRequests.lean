import CpuScheduler.L6Server.PathDispatch
import CpuScheduler.L8Api.ManagementSteps

/-!
# Requests of a client

A client asks for something of the map with a request in the format of CoAP:
the method, and a path with any decimal number that is the id (`Sends`).
`request_understood`: the server takes it for just that, if there is room for
the response. So the client is served by the map (`client_served`).
-/
namespace CpuScheduler.L8

open L4 Wildcard
open L6 (CoAPServer PathIndex BytesAt slash caret cString requestPath contentFormatOf accepts MAX_COAP_PATH_SIZE
  RESPONSE_BUFFER_SIZE WRITE_BUFFER_SIZE)

namespace MapRequest

def id : MapRequest → UInt32
  | create id | delete id | start id | get id => id

def apiMethod : MapRequest → ApiMethod
  | create _ => .taskPUT
  | delete _ => .taskDELETE
  | start _ => .statePUT
  | get _ => .stateGET

def method : MapRequest → L6.Method
  | create _ | start _ => .put
  | delete _ => .delete
  | get _ => .get

/-- What stands behind the id in the path. -/
def tail : MapRequest → List UInt8
  | create _ | delete _ => []
  | start _ | get _ => state

theorem zero_lt_paths : 0 < L6.MAX_NUM_COAP_PATHS := by decide

theorem one_lt_paths : 1 < L6.MAX_NUM_COAP_PATHS := by decide

/-- The element with the path of the request. -/
def element : MapRequest → PathIndex
  | create _ | delete _ => ⟨0, zero_lt_paths⟩
  | start _ | get _ => ⟨1, one_lt_paths⟩

theorem overrides_element (q : MapRequest) :
    (Management.registeredObjects q.element).overrides q.method = some q.apiMethod := by
  cases q <;> rfl

end MapRequest

/-- The request of a client for `q`; `segment` is the id in the path. -/
structure Sends (q : MapRequest) (r : L6.Request) (segment : List UInt8) : Prop where
  path : requestPath r.options = tasks ++ (segment ++ q.tail)
  fits : (requestPath r.options).length ≤ MAX_COAP_PATH_SIZE
  number : IsNumber segment
  nonempty : segment ≠ []
  id : decimal segment = q.id.toNat
  method : r.method = q.method
  checked : q.apiMethod.Checked (contentFormatOf r.options) r.payload

/-! ## The path -/

theorem slash_notMem_number {segment : List UInt8} (h : IsNumber segment) : slash ∉ segment :=
  fun hmem => absurd (h.digits slash hmem) (by decide)

theorem zero_notMem_number {segment : List UInt8} (h : IsNumber segment) : 0 ∉ segment :=
  fun hmem => absurd (h.digits 0 hmem) (by decide)

theorem segmented_path (handler : ApiHandler) : Segmented slash caret handler.path := by
  cases handler <;> simp [ApiHandler.path, tasks, state, data, Segmented, slash, caret]

theorem matches_tasks {p u : List UInt8} : Matches slash caret (tasks ++ caret :: p) (tasks ++ u) ↔
    ∃ segment t, u = segment ++ t ∧ slash ∉ segment ∧ Matches slash caret p t := by
  constructor
  · intro h
    obtain ⟨segments, hcaptures⟩ := matches_iff_captures.mp h
    obtain ⟨id, t, rest, hpath, _, hslash, ht⟩ := captures_tasks hcaptures
    exact ⟨id, t, List.append_cancel_left hpath, hslash, matches_iff_captures.mpr ⟨rest, ht⟩⟩
  · rintro ⟨segment, t, rfl, hslash, ht⟩
    obtain ⟨rest, hcaptures⟩ := matches_iff_captures.mp ht
    refine matches_iff_captures.mpr ⟨segment :: rest, (captures_literal caret_notMem_tasks).mpr ⟨_, rfl, ?_⟩⟩
    exact captures_star.mpr ⟨segment, t, rest, rfl, rfl, hslash, hcaptures⟩

theorem matches_task {u : List UInt8} : Matches slash caret ApiHandler.task.path (tasks ++ u) ↔ slash ∉ u := by
  refine matches_tasks.trans ⟨?_, fun hslash => ⟨u, [], (List.append_nil u).symm, hslash, .nil⟩⟩
  rintro ⟨segment, t, rfl, hslash, ht⟩
  rw [matches_nil.mp ht, List.append_nil]
  exact hslash

theorem matches_taskState {u : List UInt8} : Matches slash caret ApiHandler.taskState.path (tasks ++ u) ↔
    ∃ segment, u = segment ++ state ∧ slash ∉ segment := by
  refine matches_tasks.trans ⟨?_, ?_⟩
  · rintro ⟨segment, t, rfl, hslash, ht⟩
    obtain ⟨segments, hcaptures⟩ := matches_iff_captures.mp ht
    exact ⟨segment, by rw [(captures_state hcaptures).1], hslash⟩
  · rintro ⟨segment, rfl, hslash⟩
    refine ⟨segment, state, rfl, hslash, matches_iff_captures.mpr ⟨[], ?_⟩⟩
    rw [← List.append_nil state]
    exact (captures_literal caret_notMem_state).mpr ⟨[], rfl, .nil⟩

theorem matches_taskData {u : List UInt8} (h : Matches slash caret ApiHandler.taskData.path (tasks ++ u)) :
    ∃ segment address, u = segment ++ (data ++ address) ∧ slash ∉ segment := by
  obtain ⟨segment, t, rfl, hslash, ht⟩ := matches_tasks.mp h
  obtain ⟨segments, hcaptures⟩ := matches_iff_captures.mp ht
  obtain ⟨address, rfl, _, _⟩ := captures_data hcaptures
  exact ⟨segment, address, rfl, hslash⟩

/-- What is behind the first '/'. -/
theorem behind_slash {a b x y : List UInt8} (ha : slash ∉ a) (hb : slash ∉ b) (h : a ++ slash :: x = b ++ slash :: y) :
    x = y := by
  have hdrop {u : List UInt8} (hu : slash ∉ u) (v : List UInt8) :
      (u ++ slash :: v).dropWhile (fun c => c ≠ slash) = slash :: v := by
    rw [List.dropWhile_append_of_pos fun c hc => decide_eq_true (ne_of_mem_of_not_mem hc hu)]
    simp
  have hrest := congrArg (List.dropWhile fun c => decide (c ≠ slash)) h
  rw [hdrop ha, hdrop hb] at hrest
  exact List.tail_eq_of_cons_eq hrest

/-- The path of a request matches the pattern of its handler only. -/
theorem matches_path_iff (q : MapRequest) {segment : List UInt8} (hslash : slash ∉ segment) (handler : ApiHandler) :
    Matches slash caret handler.path (tasks ++ (segment ++ q.tail)) ↔
      handler = Management.registeredObjects q.element := by
  have hstate : slash ∈ state := by decide
  have hdata : slash ∈ data := by decide
  have htail : q.tail = [] ∧ Management.registeredObjects q.element = .task ∨
      q.tail = state ∧ Management.registeredObjects q.element = .taskState := by
    cases q with
    | create id | delete id => exact .inl ⟨rfl, rfl⟩
    | start id | get id => exact .inr ⟨rfl, rfl⟩
  rcases htail with ⟨htail, hobject⟩ | ⟨htail, hobject⟩
  · rw [htail, hobject, List.append_nil]
    cases handler with
    | task => exact iff_of_true (matches_task.mpr hslash) rfl
    | taskState =>
      refine iff_of_false (fun h => ?_) ApiHandler.noConfusion
      obtain ⟨_, rfl, _⟩ := matches_taskState.mp h
      exact hslash (List.mem_append_right _ hstate)
    | taskData =>
      refine iff_of_false (fun h => ?_) ApiHandler.noConfusion
      obtain ⟨_, _, rfl, _⟩ := matches_taskData h
      exact hslash (List.mem_append_right _ (List.mem_append_left _ hdata))
  · rw [htail, hobject]
    cases handler with
    | task =>
      exact iff_of_false (fun h => matches_task.mp h (List.mem_append_right _ hstate)) ApiHandler.noConfusion
    | taskState => exact iff_of_true (matches_taskState.mpr ⟨segment, rfl, hslash⟩) rfl
    | taskData =>
      refine iff_of_false (fun h => ?_) ApiHandler.noConfusion
      obtain ⟨other, address, hsplit, hother⟩ := matches_taskData h
      have hbehind := behind_slash hslash hother hsplit
      exact absurd (List.head_eq_of_cons_eq hbehind) (by decide)

/-! ## The server's part -/

/-- What the handlers see of the array. -/
theorem cString_pathArray {path : L6.Bytes} {u : List UInt8} (hbytes : BytesAt path 0 (u ++ [0])) (h0 : 0 ∉ u)
    (hle : u.length ≤ MAX_COAP_PATH_SIZE) : cString (pathArray path) = u := by
  have hlength : (pathArray path).length = MAX_COAP_PATH_SIZE + 1 := by simp [pathArray]
  have htake : (pathArray path).take (u.length + 1) = u ++ [0] := by
    refine List.ext_getElem (by simp [hlength, hle]) fun k hk hk' => ?_
    have hbyte := hbytes k hk'
    rw [Nat.zero_add, List.getD_eq_getElem _ _ hk'] at hbyte
    rw [List.getElem_take, ← hbyte]
    simp [pathArray]
  rw [← List.take_append_drop (u.length + 1) (pathArray path), htake, List.append_assoc]
  exact L6.takeWhile_ne_zero h0 _

theorem requestFor_reads {x : Traced ApiEvent (Except CoAPResponse (Nat × UInt64))} {segment : List UInt8} {i : Nat}
    (hx : Reads x (IsNumber segment) i (decimal segment)) (h : IsNumber segment) {id : UInt32}
    (hid : decimal segment = id.toNat) (request : UInt32 → MapRequest) : requestFor x request = some (request id) := by
  obtain ⟨w, hval, hw⟩ := hx.ok h
  have hword : w.toUInt32 = id := UInt32.toNat_inj.mp ((toNat_toUInt32 hw h).trans hid)
  rw [requestFor, hval]
  dsimp only
  rw [hword]

/-- The method reads what the client has asked for. -/
theorem Sends.request {q : MapRequest} {r : L6.Request} {segment : List UInt8} (h : Sends q r segment)
    {path : List UInt8} (hpath : cString path = requestPath r.options) :
    q.apiMethod.request path (contentFormatOf r.options) r.payload = some q := by
  obtain ⟨hrequest, _, hnumber, hnonempty, hid, _, hchecked⟩ := h
  have hslash := slash_notMem_number hnumber
  rw [hrequest] at hpath
  cases q with
  | create id =>
    exact requestFor_reads (digitLoop_id false hpath hslash hnonempty (.inl rfl)) hnumber hid .create
  | delete id =>
    exact requestFor_reads (digitLoop_id false hpath hslash hnonempty (.inl rfl)) hnumber hid .delete
  | start id =>
    refine (if_pos hchecked).trans ?_
    exact requestFor_reads (digitLoop_id true hpath hslash hnonempty (.inr ⟨rfl, _, rfl⟩)) hnumber hid .start
  | get id =>
    exact requestFor_reads (digitLoop_id true hpath hslash hnonempty (.inr ⟨rfl, _, rfl⟩)) hnumber hid .get

section
variable {T : Nat} {reserved : Set Nat} {σ τ : Management T} {p : Packet} {q : MapRequest} {r : L6.Request}
  {segment : List UInt8}

/-- The packet is the datagram with the request. -/
structure Packet.IsRequest (p : Packet) (r : L6.Request) : Prop where
  size : p.udpPayloadSize = r.encode.length
  bytes : BytesAt p.udpPayload 0 r.encode

/-- The write buffer has room for a response, if it is swapped first. -/
def Management.HasRoom (σ : Management T) (tokenLength : Nat) : Prop :=
  L6.responseOffset tokenLength + RESPONSE_BUFFER_SIZE ≤
    WRITE_BUFFER_SIZE - σ.server.attemptWriteBufferSwap.1.currentlyWrittenToWriteBufferDataLen

instance (σ : Management T) (tokenLength : Nat) : Decidable (σ.HasRoom tokenLength) := inferInstanceAs (Decidable (_ ≤ _))

theorem Sends.zero_notMem (h : Sends q r segment) : 0 ∉ requestPath r.options := by
  have htasks : 0 ∉ tasks := by decide
  have htail : 0 ∉ q.tail := by cases q <;> simp [MapRequest.tail, state]
  rw [h.path]
  simp [htasks, htail, zero_notMem_number h.number]

/-- Only the element of the request is left. -/
theorem candidates_of_sends (h : ManagementInv reserved σ) (hsends : Sends q r segment) (p : Packet) :
    ((σ.attached p).used.filter fun i => accepts ((σ.attached p).pathListElements i).path (requestPath r.options)) =
      [q.element] := by
  have hused : (σ.attached p).used = registeredPaths := h.used
  have hfilter : ∀ i ∈ registeredPaths, accepts ((σ.attached p).pathListElements i).path (requestPath r.options) =
      decide (Management.registeredObjects i = Management.registeredObjects q.element) := by
    intro i hi
    have hpath : ((σ.attached p).pathListElements i).path = (Management.registeredObjects i).path := h.paths i hi
    rw [hpath, Bool.eq_iff_iff, decide_eq_true_iff,
      L6.accepts_of_zero_notMem (segmented_path _) hsends.zero_notMem, hsends.path]
    exact matches_path_iff q (slash_notMem_number hsends.number) _
  rw [hused, List.filter_congr hfilter]
  cases q <;> rfl

/-- The handlers make no difference to the room. -/
theorem written_attached (σ : Management T) (p : Packet) :
    (σ.attached p).attemptWriteBufferSwap.1.currentlyWrittenToWriteBufferDataLen =
      σ.server.attemptWriteBufferSwap.1.currentlyWrittenToWriteBufferDataLen := by
  unfold CoAPServer.attemptWriteBufferSwap Management.attached
  dsimp only
  split <;> rfl

/-- The server takes the packet for what the client has asked, if there is room
for the response; without room it does not look at it. -/
theorem request_understood (h : ManagementInv reserved σ) (hsends : Sends q r segment) (hp : p.IsRequest r) :
    (σ.HasRoom r.token.length → σ.request (.packet p) = some q) ∧
      (¬ σ.HasRoom r.token.length → σ.invocations p = []) := by
  obtain ⟨hsize, hbytes⟩ := hp
  have hfit : (L6.uriPath r.options).length ≤ MAX_COAP_PATH_SIZE := by
    have hfits := hsends.fits
    rw [L6.requestPath_eq] at hfits
    split at hfits
    · rename_i hnil
      rw [hnil]
      exact Nat.zero_le _
    · exact hfits
  obtain ⟨header, offset, u, hread, hmethod, hloop, hfollows, hpayload, hmarker⟩ :=
    L6.request_follows p.links (σ.attached p) r hfit hbytes p.path
  have hnodup : (σ.attached p).used.Nodup := by
    rw [show (σ.attached p).used = registeredPaths from h.used]
    decide
  obtain ⟨header', offset', u', hread', htoken, hloop', hpaths⟩ :=
    L6.request_candidates p.links hnodup r hsends.fits hbytes p.path
  cases hread.symm.trans hread'
  cases hloop.symm.trans hloop'
  rw [candidates_of_sends h hsends p] at hpaths
  obtain ⟨_, hformat, harray⟩ := L6.finishPath_follows hfollows
  have hpath := cString_pathArray (harray (by rw [hpaths]; exact List.cons_ne_nil _ _)) hsends.zero_notMem hsends.fits
  rw [← hsize] at hread hloop hpayload hmarker
  have hroom : (σ.attached p).HasRoom header (L6.finishPath u).val ↔ σ.HasRoom r.token.length := by
    have hne : (L6.finishPath u).val.possibleValidPaths ≠ [] := by rw [hpaths]; exact List.cons_ne_nil _ _
    rw [CoAPServer.HasRoom, L6.required_of_method hne (by rw [hmethod]; rfl), htoken, (L6.swapped_eq _ _).2,
      written_attached]
    rfl
  have hinvocations : σ.invocations p = if σ.HasRoom r.token.length then
      [⟨q.element, q.method, (L6.finishPath u).val.path, contentFormatOf r.options, r.payload⟩] else [] := by
    unfold Management.invocations CoAPServer.invocations
    rw [hread]
    dsimp only
    rw [hloop]
    dsimp only
    refine if_congr hroom ?_ rfl
    unfold L6.dispatch
    rw [hpaths, hmarker, hmethod, hpayload, hformat, hsends.method]
    rfl
  constructor
  · intro hyes
    rw [if_pos hyes] at hinvocations
    rw [Management.request, hinvocations, List.head?_cons, Option.bind_some, ApiHandler.request, h.objects,
      q.overrides_element, Option.bind_some]
    exact hsends.request hpath
  · intro hno
    rwa [if_neg hno] at hinvocations

/-- A request is answered with the reply of the map, which does the step that
was asked for; without room for a response nothing changes. -/
theorem client_served (hT : T ≤ 256) (reserved : Set Nat) (σ τ : Management T) (q : MapRequest) (r : L6.Request)
    (segment : List UInt8) (p : Packet) (hσ : (managementLTS T reserved).Reachable σ) (hsends : Sends q r segment)
    (hp : p.IsRequest r) (hstep : σ.step (.packet p) τ) :
    (σ.HasRoom r.token.length → ∃ message, Replies σ τ p message ∧
      reads message = ((taskMap σ.os).step (TASK_MANAGER_MAX_TASKS T) (maxRunning σ.os) q).1 ∧
      taskMap τ.os = ((taskMap σ.os).step (TASK_MANAGER_MAX_TASKS T) (maxRunning σ.os) q).2) ∧
    (¬ σ.HasRoom r.token.length → τ.os = σ.os) := by
  have h := (managementInv_inductive hT).reachable σ hσ
  obtain ⟨hunderstood, hignored⟩ := request_understood h hsends hp
  constructor
  · intro hroom
    have hanswered := (steps_step hT h hstep).answered
    rw [Answered, hunderstood hroom] at hanswered
    obtain ⟨p', message, hpacket, hreplies, hreads, hmap⟩ := hanswered
    cases hpacket
    exact ⟨message, hreplies, hreads, hmap⟩
  · intro hroom
    exact hstep.2.quiet (hignored hroom)

end

/-! ## GET /tasks/7/state -/

theorem segment_length_le {value : List UInt8} (h : value.length ≤ 5) : value.length ≤ 65535 := by omega

/-- A Uri-Path option for a segment of the path. -/
def segmentOption (value : List UInt8) (h : value.length ≤ 5) : L6.RequestOption :=
  ⟨11, value, L6.pathOption_number, segment_length_le h⟩

/-- "tasks", "7" and "state" -/
def stateOptions : List L6.RequestOption :=
  [segmentOption [0x74, 0x61, 0x73, 0x6B, 0x73] (by decide), segmentOption [0x37] (by decide),
    segmentOption [0x73, 0x74, 0x61, 0x74, 0x65] (by decide)]

theorem stateOptions_ordered : L6.Ordered 0 stateOptions :=
  ⟨fun o _ => Nat.zero_le _, by simp [stateOptions, segmentOption]⟩

theorem stateOptions_known : ∀ o ∈ stateOptions, o.Known := by
  intro o ho h12
  have h11 : ∀ o ∈ stateOptions, o.number = 11 := by simp [stateOptions, segmentOption]
  exact absurd ((h11 o ho).symm.trans h12) (by decide)

def getStateRequest : L6.Request :=
  ⟨true, .get, 0x34, 0x12, [7], stateOptions, [], Nat.succ_le_succ (Nat.zero_le 7), stateOptions_ordered,
    stateOptions_known⟩

theorem sends_getState : Sends (.get 7) getStateRequest [0x37] where
  path := by decide +kernel
  fits := by decide +kernel
  number := ⟨by decide +kernel, by decide +kernel⟩
  nonempty := List.cons_ne_nil _ _
  id := by decide +kernel
  method := rfl
  checked := trivial

def getStatePacket : Packet where
  sourceIP := 0x0100000A
  sourcePort := 5683
  udpPayloadSize := getStateRequest.encode.length
  udpPayload k := getStateRequest.encode.getD k 0
  machine := sampleMachine
  links := []
  path _ := 0
  held _ := 0

theorem isRequest_getState : getStatePacket.IsRequest getStateRequest :=
  ⟨rfl, fun k _ => by rw [Nat.zero_add]; rfl⟩

/-- The server as it is set up, without tasks. -/
def bootedManagement : Management 50 where
  server := (Management.registerHandlers L6.constructedLists fun _ => L6.okHandler).server
  objects := Management.registeredObjects
  os := bootedState

theorem constructed_booted : bootedManagement.Constructed bootedPages :=
  ⟨⟨L6.constructedLists, fun _ => L6.okHandler, L6.constructed_constructedLists, rfl⟩, rfl, bootedState_reachable⟩

theorem reachable_booted : (managementLTS 50 bootedPages).Reachable bootedManagement :=
  ⟨_, [], constructed_booted, .nil _⟩

theorem hasRoom_booted : bootedManagement.HasRoom getStateRequest.token.length := by decide +kernel

instance (udpPayloadSize : Nat) (access : L6.Access) : Decidable (access.InBounds udpPayloadSize) :=
  match access with
  | .read i => inferInstanceAs (Decidable (i < udpPayloadSize))
  | .path i => inferInstanceAs (Decidable (i ≤ MAX_COAP_PATH_SIZE))
  | .buffer first count => inferInstanceAs (Decidable (first + count ≤ WRITE_BUFFER_SIZE))

theorem inBounds_getState : ∀ access ∈ ((bootedManagement.attached getStatePacket).handlePacketFromReceiveBuffer
    getStatePacket.links getStatePacket.sourceIP getStatePacket.sourcePort getStatePacket.udpPayloadSize
    getStatePacket.udpPayload getStatePacket.path).log, access.InBounds getStatePacket.udpPayloadSize := by
  decide +kernel

theorem finishes_getState : (match ((bootedManagement.attached getStatePacket).handlePacketFromReceiveBuffer
    getStatePacket.links getStatePacket.sourceIP getStatePacket.sourcePort getStatePacket.udpPayloadSize
    getStatePacket.udpPayload getStatePacket.path).val with
    | .outOfRounds => false
    | .finished _ _ => true) = true := by
  decide +kernel

/-- The tasks are left alone. -/
theorem step_getState : ∃ τ, bootedManagement.step (.packet getStatePacket) τ ∧ τ.os = bootedState := by
  have hinv := (managementInv_inductive (by decide)).reachable _ reachable_booted
  have hrequest := (request_understood hinv sends_getState isRequest_getState).1 hasRoom_booted
  have hfinishes := finishes_getState
  cases hval : ((bootedManagement.attached getStatePacket).handlePacketFromReceiveBuffer
      getStatePacket.links getStatePacket.sourceIP getStatePacket.sourcePort getStatePacket.udpPayloadSize
      getStatePacket.udpPayload getStatePacket.path).val with
  | outOfRounds =>
    rw [hval] at hfinishes
    cases hfinishes
  | finished server calls =>
    refine ⟨⟨server, Management.registeredObjects, bootedState⟩, ⟨rfl, ?_⟩, rfl⟩
    refine ⟨⟨inBounds_getState, by rw [hval]; exact L6.Handled.noConfusion⟩, ⟨calls, hval⟩, fun _ => rfl, fun inv hmem => ?_⟩
    have hone : bootedManagement.invocations getStatePacket = [inv] := by
      have hle : (bootedManagement.invocations getStatePacket).length ≤ 1 := L6.length_invocations_le _ _ _
      obtain ⟨other, hother⟩ := List.length_eq_one_iff.mp (Nat.le_antisymm hle (List.length_pos_of_mem hmem))
      rw [hother] at hmem ⊢
      rw [List.mem_singleton.mp hmem]
    rw [Management.request, hone, List.head?_cons, Option.bind_some] at hrequest
    have hcarries := call_request (bootedManagement.objects inv.handler) sampleMachine bootedState inv
    rw [hrequest] at hcarries
    exact ⟨_, hcarries, fun _ => bootedState_allocates⟩

theorem taskMap_booted (id : UInt32) : taskMap bootedState id = none := rfl

/-- There is no task 7. -/
theorem client_served_getState : ∃ τ message, bootedManagement.step (.packet getStatePacket) τ ∧
    Replies bootedManagement τ getStatePacket message ∧ reads message = (NOT_FOUND_RESPONSE_CODE, none) := by
  obtain ⟨τ, hstep, -⟩ := step_getState
  obtain ⟨message, hreplies, hreads, -⟩ := (client_served (by decide) bootedPages bootedManagement τ (.get 7)
    getStateRequest [0x37] getStatePacket reachable_booted sends_getState isRequest_getState hstep).1 hasRoom_booted
  refine ⟨τ, message, hstep, hreplies, hreads.trans ?_⟩
  rw [TaskMap.step, show taskMap bootedManagement.os 7 = none from taskMap_booted 7]

end CpuScheduler.L8
