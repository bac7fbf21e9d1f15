import CpuScheduler.L8Api.ManagementServer

/-!
# The steps of the management server

The three objects stay registered under their paths (`ManagementInv`), and a
step is answered: if a packet asks for something of the map of `TaskMap`, a
message with the reply of the map is appended to the write buffer, and the tasks
have made the step of the map; any other step leaves the map alone
(`steps_step`).
-/
namespace CpuScheduler.L8

open L4
open L3 (SocketCall SentPacket UDP_HEADER_SIZE)
open L6 (CoAPServer PathIndex PathLists CoAPHandler Invocation Handled MAX_COAP_PATH_SIZE MAX_NUM_COAP_PATHS
  SamePaths RESPONSE_BUFFER_SIZE WRITE_BUFFER_SIZE)

section
variable {T : Nat} {reserved : Set Nat} {s t : OsState T} {m : Machine}

/-! ## The tasks -/

/-- A request does what it does to the map, and keeps the invariant. -/
theorem act_refines (h : OsInv reserved s) {q : MapRequest} {response : CoAPResponse}
    (hval : q.act m s = some (response, t))
    (halloc : response.responseCode = CREATED_RESPONSE_CODE → Allocates m s.core (1024 * 2)) :
    Refines q s response t ∧ OsInv reserved t := by
  cases q with
  | create id =>
    obtain ⟨⟨result, t'⟩, hcall, hresult⟩ := Option.map_eq_some_iff.mp hval
    cases hresult
    have hpages : result = .SUCCESS → Allocates m s.core (1024 * 2) := fun h => halloc (createResponse_created h)
    have hcreates := OsState.createUserTask_creates h.pages.isRunning h.pages.pageDirectory hcall hpages
    exact ⟨create_refines h hcreates, osInv_creates h hcreates⟩
  | delete id =>
    obtain ⟨⟨result, t'⟩, hcall, hresult⟩ := Option.map_eq_some_iff.mp hval
    cases hresult
    obtain ⟨result', t'', hcall', hremoves⟩ := h.removes id
    cases hcall.symm.trans hcall'
    exact ⟨remove_refines h hremoves, osInv_removes h hremoves⟩
  | start id =>
    have hrefines := start_refines h m id
    have hpair : start m s id = (response, t) := Option.some.inj hval
    rw [hpair] at hrefines
    refine ⟨hrefines, ?_⟩
    unfold start at hpair
    cases hslot : s.getUserTask id with
    | none =>
      rw [hslot] at hpair
      cases hpair
      exact h
    | some slot =>
      rw [hslot] at hpair
      dsimp only at hpair
      split at hpair
      · cases hpair
        exact h
      · cases hpair
        obtain ⟨e, hfind, rfl⟩ := Option.map_eq_some_iff.mp hslot
        exact osInv_setToRunningState h m (List.mem_map_of_mem (List.mem_of_find?_eq_some hfind))
  | get id =>
    cases hval
    exact ⟨readState_refines s id, h⟩

theorem osInv_memory (h : OsInv reserved s) (mem : L3.Mem) :
    OsInv reserved { s with core := { s.core with mem := mem } } :=
  ⟨h.slots.same rfl rfl, h.descriptors.same rfl (fun _ _ => rfl) rfl rfl rfl, h.sockets.same rfl (List.Subset.refl _),
    h.pages.same rfl (fun _ _ => rfl) rfl rfl rfl rfl rfl⟩

theorem createResponse_ne_content (result : CreateUserTaskResult) :
    (createResponse result).responseCode ≠ CONTENT_RESPONSE_CODE := by
  cases result <;> decide

theorem removeResponse_ne_content (result : RemoveUserTaskResult) :
    (removeResponse result).responseCode ≠ CONTENT_RESPONSE_CODE := by
  cases result <;> decide

theorem startResponse_ne_content (result : SetToRunningStateResponse) :
    (startResponse result).responseCode ≠ CONTENT_RESPONSE_CODE := by
  cases result <;> decide

theorem start_ne_content (m : Machine) (s : OsState T) (id : UInt32) :
    (start m s id).1.responseCode ≠ CONTENT_RESPONSE_CODE := by
  have hnotFound : NOT_FOUND_RESPONSE_CODE ≠ CONTENT_RESPONSE_CODE := by decide
  have hchanged : CHANGED_RESPONSE_CODE ≠ CONTENT_RESPONSE_CODE := by decide
  unfold start
  split
  · exact hnotFound
  · split
    · exact hchanged
    · exact startResponse_ne_content _

theorem readState_text {s : OsState T} {id : UInt32}
    (hcode : (readState s id).responseCode = CONTENT_RESPONSE_CODE) :
    (readState s id).text = "Running" ∨ (readState s id).text = "Not Running" := by
  have hnotFound : NOT_FOUND_RESPONSE_CODE ≠ CONTENT_RESPONSE_CODE := by decide
  unfold readState at hcode ⊢
  split at hcode
  · exact absurd hcode hnotFound
  · split
    · exact .inl rfl
    · exact .inr rfl

/-- Only a state is reported with a text of its own. -/
theorem text_of_content {q : MapRequest} {response : CoAPResponse} (hval : q.act m s = some (response, t))
    (hcode : response.responseCode = CONTENT_RESPONSE_CODE) :
    response.text = "Running" ∨ response.text = "Not Running" := by
  cases q with
  | create id =>
    obtain ⟨⟨result, t'⟩, _, hresult⟩ := Option.map_eq_some_iff.mp hval
    cases hresult
    exact absurd hcode (createResponse_ne_content result)
  | delete id =>
    obtain ⟨⟨result, t'⟩, _, hresult⟩ := Option.map_eq_some_iff.mp hval
    cases hresult
    exact absurd hcode (removeResponse_ne_content result)
  | start id =>
    have hpair : start m s id = (response, t) := Option.some.inj hval
    have hne := start_ne_content m s id
    rw [hpair] at hne
    exact absurd hcode hne
  | get id =>
    cases hval
    exact readState_text hcode

/-! ## The invariant -/

/-- The paths in use, the last one registered first. -/
def registeredPaths : List PathIndex := [⟨2, by decide⟩, ⟨1, by decide⟩, ⟨0, by decide⟩]

/-- The three objects are registered under their paths. -/
structure ManagementInv (reserved : Set Nat) (σ : Management T) : Prop where
  used : σ.server.used = registeredPaths
  paths : ∀ i ∈ registeredPaths, (σ.server.pathListElements i).path = (Management.registeredObjects i).path
  objects : σ.objects = Management.registeredObjects
  os : OsInv reserved σ.os

variable {σ τ : Management T} {p : Packet}

theorem cString_path (handler : ApiHandler) : L6.cString (handler.path ++ [0]) = handler.path := by
  cases handler <;> rfl

theorem path_length_le (handler : ApiHandler) : (L6.cString (handler.path ++ [0])).length ≤ MAX_COAP_PATH_SIZE := by
  cases handler <;> decide

theorem setPathHandler_cons (server : CoAPServer) (i : PathIndex) (unused : List PathIndex) (handler : ApiHandler)
    (pHandler : CoAPHandler) : ∃ element : L6.CoAPPath, element.path = handler.path ∧
      (⟨server, i :: unused⟩ : PathLists).setPathHandler (handler.path ++ [0]) pHandler =
        ⟨{ server with
            used := i :: server.used
            pathListElements := Function.update server.pathListElements i element }, unused⟩ := by
  unfold PathLists.setPathHandler
  rw [dif_pos (path_length_le handler)]
  exact ⟨_, cString_path handler, rfl⟩

theorem inv_constructed (hT : T ≤ 256) (h : σ.Constructed reserved) : ManagementInv reserved σ := by
  obtain ⟨⟨⟨server, unused⟩, pHandler, hl, hserver⟩, hobjects, hos⟩ := h
  have hunused : unused = ⟨0, by decide⟩ :: ⟨1, by decide⟩ :: ⟨2, by decide⟩ :: (List.finRange MAX_NUM_COAP_PATHS).drop 3 :=
    hl.unused
  subst hunused
  unfold Management.registerHandlers at hserver
  dsimp only at hserver
  obtain ⟨task, htask, h1⟩ := setPathHandler_cons server _ _ .task (pHandler .task)
  rw [h1] at hserver
  obtain ⟨taskState, htaskState, h2⟩ := setPathHandler_cons _ _ _ .taskState (pHandler .taskState)
  rw [h2] at hserver
  obtain ⟨taskData, htaskData, h3⟩ := setPathHandler_cons _ _ _ .taskData (pHandler .taskData)
  rw [h3] at hserver
  have hused : server.used = [] := hl.used
  refine ⟨?_, fun i hi => ?_, hobjects, (osInv_inductive hT).reachable _ hos⟩
  · rw [hserver, hused]
    rfl
  · rw [hserver]
    simp only [registeredPaths, List.mem_cons, List.not_mem_nil, or_false] at hi
    rcases hi with rfl | rfl | rfl
    · exact htaskData
    · exact htaskState
    · exact htask

/-- A packet leaves the registered paths alone. -/
theorem handles_paths {server : CoAPServer} (h : ManagementInv reserved σ) (hhandles : σ.Handles p server t) :
    server.used = registeredPaths ∧
      ∀ i ∈ registeredPaths, (server.pathListElements i).path = (Management.registeredObjects i).path := by
  obtain ⟨calls, hval⟩ := hhandles.server
  obtain ⟨hused, hsame⟩ := L6.handlePacket_keeps (σ.attached p) p.links p.sourceIP p.sourcePort p.udpPayloadSize
    p.udpPayload p.path hval
  refine ⟨hused.trans h.used, fun i hi => ?_⟩
  have hpath : (server.pathListElements i).path = (σ.server.pathListElements i).path := congrArg Prod.fst (hsame i)
  exact hpath.trans (h.paths i hi)

/-! ## A packet that invokes a method -/

namespace Management

/-- What a step asks of the map. -/
def request (σ : Management T) : ManagementStep T → Option MapRequest
  | .packet p => (σ.invocations p).head?.bind fun inv => (σ.objects inv.handler).request inv
  | _ => none

end Management

/-- What a client reads in a message. -/
def reads (message : L6.Message) : Reply :=
  (message.code, if message.code = CONTENT_RESPONSE_CODE then some (message.payload == running) else none)

/-- The message answers the packet: it is appended, as a record for the sender,
to the write buffer, which may then be handed to the kernel. -/
structure Replies (σ τ : Management T) (p : Packet) (message : L6.Message) : Prop where
  messageID : message.messageID = (p.udpPayload 2, p.udpPayload 3)
  token : message.token = (List.range ((p.udpPayload 0).toNat % 16)).map fun k => p.udpPayload (4 + k)
  appended : ∃ (record : SentPacket) (after : CoAPServer), record.destinationIP = p.sourceIP ∧
    record.destinationPort = p.sourcePort ∧ L6.decodeMessage (record.data.drop UDP_HEADER_SIZE) = some message ∧
    (∀ records, σ.server.attemptWriteBufferSwap.1.HoldsRecords records → after.HoldsRecords (records ++ [record])) ∧
    τ.server = after.attemptWriteBufferSwap.1

/-- What the server has made of the packet when it invokes the method. -/
theorem accepts_of_invocation {server : CoAPServer} {links : List PathIndex} {udpPayloadSize : Nat}
    {udpPayload : Nat → UInt8} {path : L6.Bytes} {inv : Invocation} {rest : List Invocation}
    (hinv : server.invocations links udpPayloadSize udpPayload path = inv :: rest) :
    ∃ h offset u, server.Accepts links udpPayloadSize udpPayload path h offset u ∧ server.HasRoom h u ∧
      L6.dispatch udpPayload udpPayloadSize h offset u = inv :: rest := by
  unfold CoAPServer.invocations at hinv
  split at hinv
  · cases hinv
  · rename_i h hread
    split at hinv
    · rename_i offset u hloop
      split at hinv
      · rename_i hroom
        exact ⟨h, offset, _, ⟨hread, u, hloop, rfl⟩, hroom, hinv⟩
      · cases hinv
    · cases hinv

theorem accepts_samePaths {server : CoAPServer} {links : List PathIndex} {udpPayloadSize : Nat}
    {udpPayload : Nat → UInt8} {path : L6.Bytes} {h : L6.Header} {offset : Nat} {u : L6.PathState}
    (haccepts : server.Accepts links udpPayloadSize udpPayload path h offset u) :
    SamePaths server.pathListElements u.elements := by
  obtain ⟨_, u0, hloop, rfl⟩ := haccepts
  exact (L6.samePaths_optionLoop _ _ _ (congrArg L6.Parsed.state? hloop)).trans (L6.samePaths_finishPath u0)

theorem body_wire (response : CoAPResponse) (held : L6.Bytes) : L6.body (wire response held) = characters response.text := by
  unfold L6.body wire
  refine List.ext_getElem (by simp) fun k hk hk' => ?_
  rw [List.getElem_map, List.getElem_range]
  exact (if_pos hk').trans (List.getD_eq_getElem _ _ hk')

/-- The handlers make no difference to the write buffers. -/
theorem holdsRecords_swapped (σ : Management T) (p : Packet) (u : L6.PathState) {records : List SentPacket}
    (h : σ.server.attemptWriteBufferSwap.1.HoldsRecords records) : ((σ.attached p).swapped u).HoldsRecords records := by
  unfold CoAPServer.swapped
  unfold CoAPServer.attemptWriteBufferSwap at h ⊢
  by_cases hswap : σ.server.currentlySendingWritebufferIndicatorWhenFinished = 1 ∧
      σ.server.currentlyWrittenToWriteBufferDataLen > 0
  · rw [if_pos hswap] at h
    rw [if_pos (show (σ.attached p).currentlySendingWritebufferIndicatorWhenFinished = 1 ∧
      (σ.attached p).currentlyWrittenToWriteBufferDataLen > 0 from hswap)]
    exact ⟨h.size, h.bytes⟩
  · rw [if_neg hswap] at h
    rw [if_neg (show ¬ ((σ.attached p).currentlySendingWritebufferIndicatorWhenFinished = 1 ∧
      (σ.attached p).currentlyWrittenToWriteBufferDataLen > 0) from hswap)]
    exact ⟨h.size, h.bytes⟩

/-- The method's response is sent. -/
theorem replies_of_invocation {inv : Invocation} {rest : List Invocation} (hinv : σ.invocations p = inv :: rest)
    {response : CoAPResponse} (hcall : σ.call p inv = some (response, t)) (hτ : σ.Handles p τ.server τ.os) :
    ∃ message, Replies σ τ p message ∧ message.code = response.responseCode ∧
      message.payload = characters response.text := by
  obtain ⟨h, offset, u, haccepts, hroom, hdispatch⟩ := accepts_of_invocation hinv
  have htext : (characters response.text).length ≤ MAX_TEXT_SIZE := brief_call _ _ _ _ _ _ _ _ hcall
  rw [MAX_TEXT_SIZE] at htext
  have hanswer : L6.answer p.udpPayload p.udpPayloadSize h offset u = some (wire response p.held) := by
    unfold L6.answer
    rw [hdispatch]
    dsimp only
    have hhandler : (u.elements inv.handler).pHandler = (σ.objects inv.handler).object p.machine σ.os p.held :=
      congrArg Prod.snd (accepts_samePaths haccepts inv.handler)
    rw [hhandler, ApiHandler.object, show (σ.objects inv.handler).call _ _ _ _ _ _ = _ from hcall]
  have htoken := (L6.readHeader_some haccepts.1).2
  have hlength := (L6.readHeader_tokenLength haccepts.1).2
  have hsize : (wire response p.held).1.responseSize ≤ RESPONSE_BUFFER_SIZE := htext.trans (by decide)
  have hshort : L6.Short h (wire response p.held).1 := by
    have hresponse : (wire response p.held).1.responseSize ≤ 84 := htext
    simp only [L6.Short, UDP_HEADER_SIZE, L6.COAP_PACKET_MINIMUM_SIZE, L6.RESPONSE_OPTIONS_SIZE, L6.PAYLOAD_MARKER_SIZE]
    omega
  obtain ⟨record, hip, hport, _, ⟨message, hdecode, hanswers⟩, _, _, hrecords⟩ :=
    (L6.appends_iff haccepts.1 hroom hanswer hsize).mpr hshort
  obtain ⟨hwritten, -⟩ := L6.writeResponse_answer p.sourceIP p.sourcePort hroom hanswer htoken hsize
  have hval := L6.CoAPServer.handlePacket_val p.sourceIP p.sourcePort haccepts
  rw [if_pos hwritten] at hval
  obtain ⟨calls, hfinished⟩ := hτ.server
  obtain ⟨hserver, -⟩ := Handled.finished.inj (hfinished.symm.trans hval)
  refine ⟨message, ⟨hanswers.messageID, hanswers.token, record, _, hip, hport, hdecode, fun records hholds => ?_, hserver⟩,
    hanswers.code, hanswers.payload.trans (body_wire response p.held)⟩
  exact hrecords records (holdsRecords_swapped σ p u hholds)

/-- The client learns what the response shows. -/
theorem reads_eq {q : MapRequest} {response : CoAPResponse} (hval : q.act m s = some (response, t))
    {message : L6.Message} (hcode : message.code = response.responseCode)
    (hpayload : message.payload = characters response.text) : reads message = shows response := by
  unfold reads shows
  rw [hcode, hpayload]
  by_cases hcontent : response.responseCode = CONTENT_RESPONSE_CODE
  · rw [if_pos hcontent, if_pos hcontent]
    rcases text_of_content hval hcontent with htext | htext
    · rw [htext]
      rfl
    · rw [htext]
      rfl
  · rw [if_neg hcontent, if_neg hcontent]

/-! ## One step -/

/-- A step that asks for something of the map is answered with the reply of the
map, and leaves its map; any other step leaves the map alone. -/
def Answered (σ τ : Management T) (l : ManagementStep T) : Prop :=
  match σ.request l with
  | none => taskMap τ.os = taskMap σ.os
  | some q => ∃ p message, l = .packet p ∧ Replies σ τ p message ∧
    reads message = ((taskMap σ.os).step (TASK_MANAGER_MAX_TASKS T) (maxRunning σ.os) q).1 ∧
    taskMap τ.os = ((taskMap σ.os).step (TASK_MANAGER_MAX_TASKS T) (maxRunning σ.os) q).2

/-- The invariant holds behind the step, the kernel tasks are the same, and the
step is answered. -/
structure Steps (reserved : Set Nat) (σ τ : Management T) (l : ManagementStep T) : Prop where
  inv : ManagementInv reserved τ
  kernelTasks : τ.os.kernelTasks = σ.os.kernelTasks
  answered : Answered σ τ l

theorem steps_packet (h : ManagementInv reserved σ) (hobjects : τ.objects = σ.objects)
    (hhandles : σ.Handles p τ.server τ.os) : Steps reserved σ τ (.packet p) := by
  obtain ⟨hused, hpaths⟩ := handles_paths h hhandles
  have hinv (hos : OsInv reserved τ.os) : ManagementInv reserved τ := ⟨hused, hpaths, hobjects.trans h.objects, hos⟩
  cases hinvocations : σ.invocations p with
  | nil =>
    have hos := hhandles.quiet hinvocations
    have hrequest : σ.request (.packet p) = none := by rw [Management.request, hinvocations]; rfl
    refine ⟨hinv (hos ▸ h.os), by rw [hos], ?_⟩
    rw [Answered, hrequest, hos]
  | cons inv rest =>
    obtain ⟨response, hcall, halloc⟩ := hhandles.invoked inv (by rw [hinvocations]; exact List.mem_cons_self)
    have hrequest : σ.request (.packet p) = (σ.objects inv.handler).request inv := by
      rw [Management.request, hinvocations]
      rfl
    have hcarries := call_request (σ.objects inv.handler) p.machine σ.os inv
    rw [show (σ.objects inv.handler).call _ _ _ _ _ _ = _ from hcall, ← hrequest] at hcarries
    cases hq : σ.request (.packet p) with
    | none =>
      rw [hq] at hcarries
      obtain ⟨_, mem, hresult⟩ := hcarries
      obtain ⟨-, hos⟩ := Prod.mk.inj (Option.some.inj hresult)
      refine ⟨hinv (hos ▸ osInv_memory h.os mem), by rw [hos], ?_⟩
      rw [Answered, hq, hos]
      rfl
    | some q =>
      rw [hq] at hcarries
      have hval : q.act p.machine σ.os = some (response, τ.os) := Eq.symm hcarries
      obtain ⟨hrefines, hos⟩ := act_refines h.os hval halloc
      obtain ⟨message, hreplies, hcode, hpayload⟩ := replies_of_invocation hinvocations hcall hhandles
      refine ⟨hinv hos, hrefines.kernelTasks, ?_⟩
      rw [Answered, hq]
      exact ⟨p, message, rfl, hreplies, (reads_eq hval hcode hpayload).trans hrefines.reply, hrefines.map⟩

theorem steps_step (hT : T ≤ 256) (h : ManagementInv reserved σ) {l : ManagementStep T} (hstep : σ.step l τ) :
    Steps reserved σ τ l := by
  cases l with
  | packet p => exact steps_packet h hstep.1 hstep.2
  | attemptWriteBufferSwap =>
    cases hstep
    obtain ⟨hused, helements⟩ := L6.swap_keeps σ.server
    exact ⟨⟨hused.trans h.used, fun i hi => by rw [helements]; exact h.paths i hi, h.objects, h.os⟩, rfl, rfl⟩
  | bufferSent =>
    cases hstep
    exact ⟨⟨h.used, h.paths, h.objects, h.os⟩, rfl, rfl⟩
  | socketCall call =>
    obtain ⟨t, hos, rfl⟩ := hstep
    have hinv := osInv_step hT h.os hos
    obtain ⟨_, _, _, _, rfl⟩ := hos
    exact ⟨⟨h.used, h.paths, h.objects, hinv⟩, rfl, rfl⟩
  | taskSwitch activeTasks =>
    obtain ⟨t, hos, rfl⟩ := hstep
    have hinv := osInv_step hT h.os hos
    obtain ⟨_, rfl⟩ := hos
    exact ⟨⟨h.used, h.paths, h.objects, hinv⟩, rfl, rfl⟩
  | memory mem =>
    cases hstep
    exact ⟨⟨h.used, h.paths, h.objects, osInv_memory h.os mem⟩, rfl, rfl⟩

theorem managementInv_inductive (hT : T ≤ 256) : (managementLTS T reserved).Inductive (ManagementInv reserved) where
  init _ h := inv_constructed hT h
  step _ _ _ h hstep := (steps_step hT h hstep).inv

end

end CpuScheduler.L8
