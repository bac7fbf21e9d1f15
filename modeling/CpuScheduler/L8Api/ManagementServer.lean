import CpuScheduler.L6Server.ResponseFormat
import CpuScheduler.L8Api.TaskMap

/-!
# The management server

`osManagementTask`: the `CoAPServer` with the three handlers of the API, for the
task manager of `OsState`. The server of `L6` calls handlers that are functions
of what they are given; here a handler is one of three objects, and what its
methods answer depends on the tasks as well (`ApiHandler.object`). A packet is
handled by the server with the objects as its handlers, and changes the tasks as
the method that it invokes does.

`ApiMethod.request` is what a call of a method asks of the map of `TaskMap`, for
any path: `handle_request` says that a method does just that, or leaves
everything but memory as it is.
-/
namespace CpuScheduler.L8

open L4
open L3 (SocketCall)
open L6 (ContentFormat caret slash cString CoAPServer PathIndex PathLists CoAPHandler Invocation MAX_COAP_PATH_SIZE
  MAX_NUM_COAP_PATHS)

/-! ## The handlers as the server calls them -/

/-- mirrors api_handlers.h:6-61 -/
inductive ApiHandler where
  | task
  | taskState
  | taskData
  deriving DecidableEq, Repr

/-- The characters of a text; the texts of the API are ASCII. -/
def characters (text : String) : List UInt8 := text.toList.map fun c => UInt8.ofNat c.toNat

/-- A response as the server gets it: its text is copied to the response buffer,
which held `held`. -/
def wire (response : CoAPResponse) (held : L6.Bytes) : L6.CoAPResponse × L6.Bytes :=
  (⟨response.responseCode, (characters response.text).length, .textPlainCharsetUTF8⟩,
    fun k => if k < (characters response.text).length then (characters response.text).getD k 0 else held k)

/-- The array `path` of the server. mirrors coap_server.cpp:223 -/
def pathArray (path : L6.Bytes) : List UInt8 := (List.range (MAX_COAP_PATH_SIZE + 1)).map path

namespace ApiHandler

/-- mirrors os_management_task.cpp:38-40 -/
def path : ApiHandler → List UInt8
  | task => tasks ++ [caret]
  | taskState => tasks ++ caret :: state
  | taskData => tasks ++ caret :: (data ++ [caret])

/-- The methods that the class overrides. mirrors api_handlers.h:6-61 -/
def overrides : ApiHandler → L6.Method → Option ApiMethod
  | task, .put => some .taskPUT
  | task, .delete => some .taskDELETE
  | taskState, .get => some .stateGET
  | taskState, .put => some .statePUT
  | taskData, .put => some .dataPUT
  | _, _ => none

section
variable {T : Nat}

/-- The methods that are not overridden are those of `CoAPHandler`.
mirrors coap_server.cpp:11-57 -/
def call (handler : ApiHandler) (m : Machine) (s : OsState T) (method : L6.Method) (path : List UInt8)
    (contentFormat : ContentFormat) (payload : List UInt8) : Option (CoAPResponse × OsState T) :=
  match handler.overrides method with
  | none => some (⟨L6.METHOD_NOT_ALLOWED_RESPONSE_CODE, ""⟩, s)
  | some apiMethod => (apiMethod.handle m s path contentFormat payload).val

/-- The handler for the tasks of `s`, with a response buffer that holds `held`. -/
def object (handler : ApiHandler) (m : Machine) (s : OsState T) (held : L6.Bytes) : CoAPHandler :=
  fun method path contentFormat payload =>
    match handler.call m s method (pathArray path) contentFormat payload with
    | some (response, _) => wire response held
    | none => (⟨L6.INTERNAL_SERVER_ERROR_RESPONSE_CODE, 0, .textPlainCharsetUTF8⟩, held)

end

end ApiHandler

/-! ## The server -/

/-- `server` is the server but for its handlers: `objects` are what the pointers
of its paths point to. -/
structure Management (T : Nat) where
  server : CoAPServer
  objects : PathIndex → ApiHandler
  os : OsState T

/-- A packet in the receive buffer, and what is there when it is handled: the
machine, what earlier requests left along `next[1]` and in the array `path`,
and what the write buffer holds where the handler writes. -/
structure Packet where
  sourceIP : UInt32
  sourcePort : UInt16
  udpPayloadSize : Nat
  udpPayload : Nat → UInt8
  machine : Machine
  links : List PathIndex
  path : L6.Bytes
  held : L6.Bytes

inductive ManagementStep (T : Nat) where
  | packet (p : Packet)
  | attemptWriteBufferSwap
  | bufferSent
  | socketCall (call : SocketCall T)
  | taskSwitch (activeTasks : List (Fin T × TaskDescriptor))
  | memory (mem : L3.Mem)

namespace Management

variable {T : Nat}

/-- The server with the objects as its handlers. -/
def attached (σ : Management T) (p : Packet) : CoAPServer :=
  { σ.server with pathListElements := fun i =>
      { σ.server.pathListElements i with pHandler := (σ.objects i).object p.machine σ.os p.held } }

def invocations (σ : Management T) (p : Packet) : List Invocation :=
  (σ.attached p).invocations p.links p.udpPayloadSize p.udpPayload p.path

/-- The call of a method. -/
def call (σ : Management T) (p : Packet) (inv : Invocation) : Option (CoAPResponse × OsState T) :=
  (σ.objects inv.handler).call p.machine σ.os inv.method (pathArray inv.path) inv.contentFormat inv.payload

/-- The packet is handled without leaving a buffer, and the method that it
invokes, if any, has the outcome `t` for the tasks. If a task is created, the
allocator has found its pages. -/
structure Handles (σ : Management T) (p : Packet) (server : CoAPServer) (t : OsState T) : Prop where
  contained : L6.Contained (σ.attached p) p.links p.sourceIP p.sourcePort p.udpPayloadSize p.udpPayload p.path
  server : ∃ calls, ((σ.attached p).handlePacketFromReceiveBuffer p.links p.sourceIP p.sourcePort p.udpPayloadSize
    p.udpPayload p.path).val = .finished server calls
  quiet : σ.invocations p = [] → t = σ.os
  invoked : ∀ inv ∈ σ.invocations p, ∃ response, σ.call p inv = some (response, t) ∧
    (response.responseCode = CREATED_RESPONSE_CODE → Allocates p.machine σ.os.core (1024 * 2))

/-- What happens: the steps of the server's loop, the kernel's write to the
indicator, and what the other tasks do meanwhile.
mirrors coap_server.cpp:139-179 -/
def step (σ : Management T) : ManagementStep T → Management T → Prop
  | .packet p, τ => τ.objects = σ.objects ∧ σ.Handles p τ.server τ.os
  | .attemptWriteBufferSwap, τ => τ = { σ with server := σ.server.attemptWriteBufferSwap.1 }
  | .bufferSent, τ =>
    τ = { σ with server := { σ.server with currentlySendingWritebufferIndicatorWhenFinished := 1 } }
  | .socketCall call, τ => ∃ t, σ.os.step (.socketCall call) t ∧ τ = { σ with os := t }
  | .taskSwitch activeTasks, τ => ∃ t, σ.os.step (.taskSwitch activeTasks) t ∧ τ = { σ with os := t }
  | .memory mem, τ => τ = { σ with os := { σ.os with core := { σ.os.core with mem := mem } } }

/-- The three handlers are registered. mirrors os_management_task.cpp:38-40 -/
def registerHandlers (l : PathLists) (pHandler : ApiHandler → CoAPHandler) : PathLists :=
  let l := l.setPathHandler (ApiHandler.task.path ++ [0]) (pHandler .task)
  let l := l.setPathHandler (ApiHandler.taskState.path ++ [0]) (pHandler .taskState)
  l.setPathHandler (ApiHandler.taskData.path ++ [0]) (pHandler .taskData)

/-- The elements are taken in order. -/
def registeredObjects (i : PathIndex) : ApiHandler :=
  if i.val = 0 then .task else if i.val = 1 then .taskState else .taskData

/-- The server has just been set up, for the tasks of a state of the system.
mirrors os_management_task.cpp:18-40 -/
structure Constructed (reserved : Set Nat) (σ : Management T) : Prop where
  server : ∃ l pHandler, l.Constructed ∧ σ.server = (registerHandlers l pHandler).server
  objects : σ.objects = registeredObjects
  os : (osLTS T reserved).Reachable σ.os

end Management

def managementLTS (T : Nat) (reserved : Set Nat) : LTS (Management T) (ManagementStep T) where
  init := Management.Constructed reserved
  step := Management.step

/-! ## The texts -/

/-- The longest text of a response is this long. -/
def MAX_TEXT_SIZE : Nat := 84

section
variable {T : Nat}

def ShortText (response : CoAPResponse) : Prop := (characters response.text).length ≤ MAX_TEXT_SIZE

instance (response : CoAPResponse) : Decidable (ShortText response) := inferInstanceAs (Decidable (_ ≤ _))

theorem shortText_empty (code : UInt8) : ShortText ⟨code, ""⟩ := Nat.zero_le _

/-- The digit loop refuses with one of two responses. -/
theorem shortText_digitLoop (stopsAtSlash : Bool) {tooBig : CoAPResponse} (hbig : ShortText tooBig)
    {text : List UInt8} {i : Nat} {value : UInt64} {response : CoAPResponse}
    (h : (digitLoop stopsAtSlash tooBig text i value).val = .error response) : ShortText response := by
  have hbad : ShortText badRequest := by decide
  induction text generalizing i value with
  | nil => cases h
  | cons c text ih =>
    rw [digitLoop] at h
    simp only [Traced.val_ite, Traced.val_bind, Traced.val_pure] at h
    split at h
    · split at h
      · cases h
        exact hbad
      · cases h
    · split at h
      · cases h
        exact hbad
      · split at h
        · cases h
          exact hbig
        · exact ih h

theorem shortText_addressSegment {path : List UInt8} {i : Nat} {response : CoAPResponse}
    (h : (addressSegment path i).val = .error response) : ShortText response := by
  unfold addressSegment at h
  dsimp only at h
  rw [Traced.val_ite] at h
  split at h
  · cases h
    decide
  · exact shortText_digitLoop false (by decide) h

/-- Whatever is returned has a short text. -/
def Brief (result : Option (CoAPResponse × OsState T)) : Prop := ∀ r, result = some r → ShortText r.1

theorem brief_some {response : CoAPResponse} (h : ShortText response) (s : OsState T) : Brief (some (response, s)) := by
  intro r hr
  cases hr
  exact h

theorem withId_val (s : OsState T) (id : Traced ApiEvent (Except CoAPResponse (Nat × UInt64)))
    (act : Nat → UInt32 → Handled T) : (withId s id act).val =
      match id.val with
      | .error response => some (response, s)
      | .ok (i, taskId) => (act i taskId.toUInt32).val := by
  unfold withId
  rw [Traced.val_bind]
  cases id.val with
  | error response => rfl
  | ok r => rfl

theorem brief_withId {s : OsState T} {id : Traced ApiEvent (Except CoAPResponse (Nat × UInt64))}
    {act : Nat → UInt32 → Handled T} (hid : ∀ response, id.val = .error response → ShortText response)
    (hact : ∀ i id, Brief (act i id).val) : Brief (withId s id act).val := by
  rw [withId_val]
  cases hval : id.val with
  | error response => exact brief_some (hid response hval) s
  | ok r => exact hact r.1 r.2.toUInt32

theorem brief_taskId (path : List UInt8) (response : CoAPResponse) (h : (taskId path).val = .error response) :
    ShortText response :=
  shortText_digitLoop false (by decide) h

theorem brief_taskIdSegment (path : List UInt8) (response : CoAPResponse)
    (h : (taskIdSegment path).val = .error response) : ShortText response :=
  shortText_digitLoop true (by decide) h

theorem brief_map {α : Type} {f : α → CoAPResponse} (hf : ∀ a, ShortText (f a)) (result : Option (α × OsState T)) :
    Brief (result.map fun r => (f r.1, r.2)) := by
  intro r hr
  obtain ⟨a, _, rfl⟩ := Option.map_eq_some_iff.mp hr
  exact hf a.1

theorem shortText_readState (s : OsState T) (id : UInt32) : ShortText (readState s id) := by
  unfold readState
  split
  · decide
  · split <;> decide

theorem shortText_startResponse (result : SetToRunningStateResponse) : ShortText (startResponse result) := by
  cases result <;> decide

theorem shortText_start (m : Machine) (s : OsState T) (id : UInt32) : ShortText (start m s id).1 := by
  unfold start
  split
  · exact shortText_empty _
  · split
    · exact shortText_empty _
    · exact shortText_startResponse _

theorem shortText_writeFailed : ShortText
    ⟨INTERNAL_SERVER_ERROR_RESPONSE_CODE, "Failed to write data to the task's address space"⟩ := by decide

theorem shortText_writeWarning : ShortText ⟨CHANGED_RESPONSE_CODE, "Warning: data changed while task was running"⟩ := by
  decide

/-- `writeData` changes memory at most. -/
theorem writeData_brief (s : OsState T) (id address : UInt32) (payload : List UInt8) :
    ∃ response mem, ShortText response ∧
      writeData s id address payload = (response, { s with core := { s.core with mem := mem } }) := by
  cases hslot : s.getUserTask id with
  | none =>
    refine ⟨⟨NOT_FOUND_RESPONSE_CODE, ""⟩, s.core.mem, shortText_empty _, ?_⟩
    unfold writeData
    rw [hslot]
  | some slot =>
    cases hw : ((s.manager.userTaskBuffers slot).setData s.core.mem address (fun k => payload.getD k 0)
        (UInt32.ofNat payload.length)).val with
    | mk success mem =>
      rw [writeData_some hslot hw]
      generalize addrSpaceIsUserAccessible (s.manager.userTaskBuffers slot) address _ = accessible
      generalize (s.manager.userTaskBuffers slot).task.isRunning = isRunning
      cases accessible with
      | false => exact ⟨_, s.core.mem, shortText_empty _, rfl⟩
      | true =>
        by_cases hzero : UInt32.ofNat payload.length = 0
        · rw [if_pos hzero]
          exact ⟨_, s.core.mem, shortText_empty _, rfl⟩
        · rw [if_neg hzero]
          cases success with
          | false => exact ⟨_, mem, shortText_writeFailed, rfl⟩
          | true =>
            cases isRunning with
            | false => exact ⟨_, mem, shortText_empty _, rfl⟩
            | true => exact ⟨_, mem, shortText_writeWarning, rfl⟩

theorem brief_handle (method : ApiMethod) (m : Machine) (s : OsState T) (path : List UInt8)
    (contentFormat : ContentFormat) (payload : List UInt8) :
    Brief (method.handle m s path contentFormat payload).val := by
  cases method with
  | taskPUT =>
    exact brief_withId (brief_taskId path) fun _ id => brief_map (fun a => by cases a <;> decide) (s.createUserTask m id)
  | taskDELETE =>
    exact brief_withId (brief_taskId path) fun _ id => brief_map (fun a => by cases a <;> decide) (s.removeUserTask id)
  | stateGET =>
    exact brief_withId (brief_taskIdSegment path) fun _ id => brief_some (shortText_readState s id) s
  | statePUT =>
    show Brief (TaskStateAPIHandler.handlePUT m s path contentFormat payload).val
    unfold TaskStateAPIHandler.handlePUT
    rw [Traced.val_ite, Traced.val_ite]
    split
    · exact brief_some (by decide) s
    · split
      · exact brief_some (by decide) s
      · exact brief_withId (brief_taskIdSegment path) fun _ id => brief_some (shortText_start m s id) _
  | dataPUT =>
    show Brief (TaskDataAPIHandler.handlePUT s path contentFormat payload).val
    unfold TaskDataAPIHandler.handlePUT
    rw [Traced.val_ite]
    split
    · exact brief_some (by decide) s
    · refine brief_withId (brief_taskIdSegment path) fun i id => ?_
      refine brief_withId (fun _ => shortText_addressSegment) fun _ address => ?_
      obtain ⟨response, mem, htext, hwrite⟩ := writeData_brief s id address payload
      intro r hr
      have hresult : writeData s id address payload = r := Option.some.inj hr
      rw [← hresult, hwrite]
      exact htext

theorem brief_call (handler : ApiHandler) (m : Machine) (s : OsState T) (method : L6.Method) (path : List UInt8)
    (contentFormat : ContentFormat) (payload : List UInt8) :
    Brief (handler.call m s method path contentFormat payload) := by
  unfold ApiHandler.call
  split
  · exact brief_some (by decide) s
  · exact brief_handle _ m s path contentFormat payload

end

/-! ## What a call asks of the map -/

section
variable {T : Nat}

/-- The request for the id, unless the path is refused. -/
def requestFor (id : Traced ApiEvent (Except CoAPResponse (Nat × UInt64))) (request : UInt32 → MapRequest) :
    Option MapRequest :=
  match id.val with
  | .error _ => none
  | .ok (_, id) => some (request id.toUInt32)

/-- What a method asks of the map; `none`: nothing. -/
def ApiMethod.request (method : ApiMethod) (path : List UInt8) (contentFormat : ContentFormat) (payload : List UInt8) :
    Option MapRequest :=
  match method with
  | taskPUT => requestFor (taskId path) .create
  | taskDELETE => requestFor (taskId path) .delete
  | stateGET => requestFor (taskIdSegment path) .get
  | statePUT =>
    if contentFormat = .textPlainCharsetUTF8 ∧ payload = running then requestFor (taskIdSegment path) .start else none
  | dataPUT => none

def ApiHandler.request (handler : ApiHandler) (inv : Invocation) : Option MapRequest :=
  (handler.overrides inv.method).bind fun method =>
    method.request (pathArray inv.path) inv.contentFormat inv.payload

/-- A call that asks for `q` does it, and another one changes memory only. -/
def Carries (q : Option MapRequest) (m : Machine) (s : OsState T) (result : Option (CoAPResponse × OsState T)) : Prop :=
  match q with
  | some q => result = q.act m s
  | none => ∃ response mem, result = some (response, { s with core := { s.core with mem := mem } })

variable {m : Machine} {s : OsState T} {path : List UInt8} {contentFormat : ContentFormat} {payload : List UInt8}

theorem carries_none (response : CoAPResponse) : Carries none m s (some (response, s)) := ⟨response, s.core.mem, rfl⟩

theorem carries_withId (id : Traced ApiEvent (Except CoAPResponse (Nat × UInt64))) (request : UInt32 → MapRequest)
    {act : Nat → UInt32 → Handled T} (hact : ∀ i id, (act i id).val = (request id).act m s) :
    Carries (requestFor id request) m s (withId s id act).val := by
  rw [withId_val]
  unfold requestFor
  cases id.val with
  | error response => exact carries_none response
  | ok r => exact hact r.1 r.2.toUInt32

/-- Every method, for any path. -/
theorem handle_request (method : ApiMethod) (m : Machine) (s : OsState T) (path : List UInt8)
    (contentFormat : ContentFormat) (payload : List UInt8) :
    Carries (method.request path contentFormat payload) m s (method.handle m s path contentFormat payload).val := by
  cases method with
  | taskPUT => exact carries_withId (taskId path) .create fun _ _ => rfl
  | taskDELETE => exact carries_withId (taskId path) .delete fun _ _ => rfl
  | stateGET => exact carries_withId (taskIdSegment path) .get fun _ _ => rfl
  | statePUT =>
    show Carries (if contentFormat = .textPlainCharsetUTF8 ∧ payload = running then _ else none) m s
      (TaskStateAPIHandler.handlePUT m s path contentFormat payload).val
    unfold TaskStateAPIHandler.handlePUT
    by_cases hformat : contentFormat = .textPlainCharsetUTF8
    · by_cases hpayload : payload = running
      · have hlength : ¬ (payload.length ≠ 7 ∨ payload ≠ running) := by simp [hpayload, running]
        rw [if_neg (not_not.mpr hformat), if_neg hlength, if_pos ⟨hformat, hpayload⟩]
        exact carries_withId (taskIdSegment path) .start fun _ _ => rfl
      · have hrefused : payload.length ≠ 7 ∨ payload ≠ running := .inr hpayload
        rw [if_neg (not_not.mpr hformat), if_pos hrefused, if_neg fun h => hpayload h.2]
        exact carries_none badRequest
    · rw [if_pos hformat, if_neg fun h => hformat h.1]
      exact carries_none _
  | dataPUT =>
    show Carries none m s (TaskDataAPIHandler.handlePUT s path contentFormat payload).val
    unfold TaskDataAPIHandler.handlePUT
    rw [Traced.val_ite]
    split
    · exact carries_none _
    · rw [withId_val]
      cases (taskIdSegment path).val with
      | error response => exact carries_none response
      | ok r =>
        dsimp only
        rw [withId_val]
        cases (addressSegment path r.1).val with
        | error response => exact carries_none response
        | ok a =>
          obtain ⟨response, mem, _, hwrite⟩ := writeData_brief s r.2.toUInt32 a.2.toUInt32 payload
          exact ⟨response, mem, congrArg some hwrite⟩

theorem call_request (handler : ApiHandler) (m : Machine) (s : OsState T) (inv : Invocation) :
    Carries (handler.request inv) m s
      (handler.call m s inv.method (pathArray inv.path) inv.contentFormat inv.payload) := by
  unfold ApiHandler.request ApiHandler.call
  cases handler.overrides inv.method with
  | none => exact carries_none _
  | some method => exact handle_request method m s (pathArray inv.path) inv.contentFormat inv.payload

end

end CpuScheduler.L8
