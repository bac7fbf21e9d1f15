import CpuScheduler.L4Task.TaskCleanup
import CpuScheduler.L6Server.PathRegistry

/-!
# The API of the management task

`api_handlers.cpp`: five methods of three handlers, for the task manager of
`OsState`. A path is the array a handler gets; it sees the string in it
(`cString`). Every response is plain text. `none`: a call of the task manager
has no defined outcome.

The digit loop stands five times in the source. It is `digitLoop` here, with
what the copies differ in as parameters. The intermediate values of the loops
and the calls of the task manager are logged.
-/
namespace CpuScheduler.L8

open L4 Traced
open L6 (ContentFormat slash caret cString)

def CREATED_RESPONSE_CODE : UInt8 := 0x41
def DELETED_RESPONSE_CODE : UInt8 := 0x42
def CONTENT_RESPONSE_CODE : UInt8 := 0x45
def BAD_REQUEST_RESPONSE_CODE : UInt8 := 0x80
def CONFLICT_RESPONSE_CODE : UInt8 := 0x89
def UNSUPPORTED_CONTENT_FORMAT_RESPONSE_CODE : UInt8 := 0x8F

def badRequest : CoAPResponse := ⟨BAD_REQUEST_RESPONSE_CODE, ""⟩

inductive ManagerCall where
  | createUserTask (id : UInt32)
  | getUserTask (id : UInt32)
  | removeUserTask (id : UInt32)
  deriving DecidableEq, Repr

def ManagerCall.id : ManagerCall → UInt32
  | createUserTask id => id
  | getUserTask id => id
  | removeUserTask id => id

/-- `digit`: the next value of a digit loop is computed from these. -/
inductive ApiEvent where
  | digit (value : UInt64) (character : UInt8)
  | call (c : ManagerCall)
  deriving DecidableEq, Repr

/-! ## The digit loop -/

def taskIdTooBig : CoAPResponse := ⟨BAD_REQUEST_RESPONSE_CODE, "Task ID cannot be greater than 0xFFFFFFFF"⟩
def addressTooBig : CoAPResponse := ⟨BAD_REQUEST_RESPONSE_CODE, "Address cannot be greater than 0xFFFFFFFF"⟩

/-- The characters of the string from index `i` on are left. The result is the
index behind the last digit, and the value.
mirrors api_handlers.cpp:19-38, 95-114, 171-201, 255-285, 368-400, 412-431 -/
def digitLoop (stopsAtSlash : Bool) (tooBig : CoAPResponse) :
    List UInt8 → Nat → UInt64 → Traced ApiEvent (Except CoAPResponse (Nat × UInt64))
  | [], i, value => return .ok (i, value)
  | c :: rest, i, value =>
    if stopsAtSlash = true ∧ c = slash then return if i = 7 then .error badRequest else .ok (i, value)
    -- characters from 0x80 on are negative in the source, and above '9' here
    else if c < 0x30 ∨ c > 0x39 then return .error badRequest
    else do
      Traced.emit [.digit value c]
      let value := value * 10 + (c - 0x30).toUInt64
      if value > 0xFFFFFFFF then return .error tooBig
      digitLoop stopsAtSlash tooBig rest (i + 1) value

/-- /tasks/{id} -/
def taskId (path : List UInt8) : Traced ApiEvent (Except CoAPResponse (Nat × UInt64)) :=
  digitLoop false taskIdTooBig ((cString path).drop 7) 7 0

/-- /tasks/{id}/state, /tasks/{id}/data/{address} -/
def taskIdSegment (path : List UInt8) : Traced ApiEvent (Except CoAPResponse (Nat × UInt64)) :=
  digitLoop true taskIdTooBig ((cString path).drop 7) 7 0

/-- `i` is the index of the second '/'. mirrors api_handlers.cpp:402-431 -/
def addressSegment (path : List UInt8) (i : Nat) : Traced ApiEvent (Except CoAPResponse (Nat × UInt64)) :=
  let i := i + 6
  if i ≥ (cString path).length then return .error badRequest
  else digitLoop false addressTooBig ((cString path).drop i) i 0

/-! ## What the handlers do with an id -/

section
variable {T : Nat}

def createResponse : CreateUserTaskResult → CoAPResponse
  | .SUCCESS => ⟨CREATED_RESPONSE_CODE, ""⟩
  | .ID_IS_NULL => ⟨BAD_REQUEST_RESPONSE_CODE, "Task ID cannot be 0"⟩
  | .ID_ALREADY_EXISTS => ⟨CONFLICT_RESPONSE_CODE, "Task with the given ID already exists"⟩
  | .TOO_MANY_TASKS => ⟨FORBIDDEN_RESPONSE_CODE,
    "Too many tasks have already been created, remove some tasks before creating new ones"⟩

def removeResponse : RemoveUserTaskResult → CoAPResponse
  | .SUCCESS => ⟨DELETED_RESPONSE_CODE, ""⟩
  | .ID_IS_NULL => ⟨BAD_REQUEST_RESPONSE_CODE, "Task ID cannot be 0"⟩
  | .ID_DOES_NOT_EXIST => ⟨NOT_FOUND_RESPONSE_CODE, "Task with the given ID does not exist"⟩

def startResponse : SetToRunningStateResponse → CoAPResponse
  | .TASK_ALREADY_RUNNING => ⟨INTERNAL_SERVER_ERROR_RESPONSE_CODE, ""⟩
  | .TASK_NOT_PROPERLY_INITIALIZED => ⟨INTERNAL_SERVER_ERROR_RESPONSE_CODE, ""⟩
  | .TOO_MANY_TASKS => ⟨FORBIDDEN_RESPONSE_CODE, "Too many tasks are already running"⟩
  | .SUCCESS => ⟨CHANGED_RESPONSE_CODE, ""⟩

/-- mirrors api_handlers.cpp:40-84 -/
def create (m : Machine) (s : OsState T) (id : UInt32) : Option (CoAPResponse × OsState T) :=
  (s.createUserTask m id).map fun r => (createResponse r.1, r.2)

/-- mirrors api_handlers.cpp:116-154 -/
def remove (s : OsState T) (id : UInt32) : Option (CoAPResponse × OsState T) :=
  (s.removeUserTask id).map fun r => (removeResponse r.1, r.2)

/-- mirrors api_handlers.cpp:203-229 -/
def readState (s : OsState T) (id : UInt32) : CoAPResponse :=
  match s.getUserTask id with
  | none => ⟨NOT_FOUND_RESPONSE_CODE, ""⟩
  | some slot =>
    if (s.manager.userTaskBuffers slot).task.isRunning then ⟨CONTENT_RESPONSE_CODE, "Running"⟩
    else ⟨CONTENT_RESPONSE_CODE, "Not Running"⟩

/-- mirrors api_handlers.cpp:287-343 -/
def start (m : Machine) (s : OsState T) (id : UInt32) : CoAPResponse × OsState T :=
  match s.getUserTask id with
  | none => (⟨NOT_FOUND_RESPONSE_CODE, ""⟩, s)
  | some slot =>
    if (s.manager.userTaskBuffers slot).task.isRunning then (⟨CHANGED_RESPONSE_CODE, ""⟩, s)
    else ((startResponse (s.setToRunningState m slot).1), (s.setToRunningState m slot).2)

/-- The check of `UserTask`, for a task whose memory may be anywhere.
mirrors cpu_core.cpp:598-604 -/
def addrSpaceIsUserAccessible (t : UserTaskObject T) (userAddr numBytes : UInt32) : Bool :=
  if userAddr < t.taskSpaceBeginVirtualAddr + UInt32.ofNat (USER_TASK_KERNEL_STACK_OFFSET + 4) ∨
      userAddr + numBytes > t.taskSpaceBeginVirtualAddr + 0x800000 then false
  else true

/-- mirrors api_handlers.cpp:433-483 -/
def writeData (s : OsState T) (id address : UInt32) (payload : List UInt8) : CoAPResponse × OsState T :=
  match s.getUserTask id with
  | none => (⟨NOT_FOUND_RESPONSE_CODE, ""⟩, s)
  | some slot =>
    let t := s.manager.userTaskBuffers slot
    let payloadSize := UInt32.ofNat payload.length
    if !addrSpaceIsUserAccessible t address payloadSize then (⟨FORBIDDEN_RESPONSE_CODE, ""⟩, s)
    else if payloadSize = 0 then (⟨CHANGED_RESPONSE_CODE, ""⟩, s)
    else
      let (success, mem) := (t.setData s.core.mem address (fun k => payload.getD k 0) payloadSize).val
      let s := { s with core := { s.core with mem := mem } }
      if !success then
        (⟨INTERNAL_SERVER_ERROR_RESPONSE_CODE, "Failed to write data to the task's address space"⟩, s)
      else if t.task.isRunning then (⟨CHANGED_RESPONSE_CODE, "Warning: data changed while task was running"⟩, s)
      else (⟨CHANGED_RESPONSE_CODE, ""⟩, s)

/-- What is decided behind the parsing, once the outcome of the write is known. -/
theorem handlePUT_some (t : UserTask) (running : Bool) {mem mem' : L3.Mem} {address payloadSize : UInt32}
    {payload : Nat → UInt8} {success : Bool} (hw : (t.setData mem address payload payloadSize).val = (success, mem')) :
    (handlePUT mem (some (t, running)) address payload payloadSize).val =
      if !t.addrSpaceIsUserAccessible address payloadSize then (⟨FORBIDDEN_RESPONSE_CODE, ""⟩, mem)
      else if payloadSize = 0 then (⟨CHANGED_RESPONSE_CODE, ""⟩, mem)
      else if !success then
        (⟨INTERNAL_SERVER_ERROR_RESPONSE_CODE, "Failed to write data to the task's address space"⟩, mem')
      else (⟨CHANGED_RESPONSE_CODE, if running then "Warning: data changed while task was running" else ""⟩, mem') := by
  generalize hp : some (t, running) = pUserTask
  unfold handlePUT
  split
  · exact absurd hp (by simp)
  · rename_i t' running'
    obtain ⟨rfl, rfl⟩ : t = t' ∧ running = running' := by simpa using hp
    rw [val_ite, val_ite, val_bind, hw]
    cases success with
    | false => rfl
    | true => rfl

variable {s : OsState T} {id address : UInt32} {payload : List UInt8} {slot : Slot T}

theorem writeData_some (hslot : s.getUserTask id = some slot) {success : Bool} {mem : L3.Mem}
    (hw : ((s.manager.userTaskBuffers slot).setData s.core.mem address (fun k => payload.getD k 0)
      (UInt32.ofNat payload.length)).val = (success, mem)) :
    writeData s id address payload =
      if !addrSpaceIsUserAccessible (s.manager.userTaskBuffers slot) address (UInt32.ofNat payload.length) then
        (⟨FORBIDDEN_RESPONSE_CODE, ""⟩, s)
      else if UInt32.ofNat payload.length = 0 then (⟨CHANGED_RESPONSE_CODE, ""⟩, s)
      else if !success then
        (⟨INTERNAL_SERVER_ERROR_RESPONSE_CODE, "Failed to write data to the task's address space"⟩,
          { s with core := { s.core with mem := mem } })
      else (⟨CHANGED_RESPONSE_CODE, if (s.manager.userTaskBuffers slot).task.isRunning then
          "Warning: data changed while task was running" else ""⟩, { s with core := { s.core with mem := mem } }) := by
  unfold writeData
  split
  · rename_i hnone
    exact absurd (hslot.symm.trans hnone) (by simp)
  · rename_i slot' hslot'
    cases hslot.symm.trans hslot'
    refine if_congr Iff.rfl rfl (if_congr Iff.rfl rfl ?_)
    rw [hw]
    refine if_congr Iff.rfl rfl ?_
    cases (s.manager.userTaskBuffers slot).task.isRunning with
    | false => rfl
    | true => rfl

/-- For a task with its memory inside the kernel's, this is `handlePUT`. -/
theorem writeData_handlePUT {t : UserTask} {task : TaskState T} {stack : UInt32}
    (hslot : s.getUserTask id = some slot)
    (htask : s.manager.userTaskBuffers slot = ⟨task, t.taskSpaceBeginVirtualAddr, t.pTask8MBRegion, stack⟩) :
    writeData s id address payload =
      ((handlePUT s.core.mem (some (t, task.isRunning)) address (fun k => payload.getD k 0)
        (UInt32.ofNat payload.length)).val.1,
      { s with core := { s.core with mem := (handlePUT s.core.mem (some (t, task.isRunning)) address
        (fun k => payload.getD k 0) (UInt32.ofNat payload.length)).val.2 } }) := by
  have haccessible : addrSpaceIsUserAccessible (s.manager.userTaskBuffers slot) = t.addrSpaceIsUserAccessible := by
    rw [htask]
    rfl
  cases hw : (t.setData s.core.mem address (fun k => payload.getD k 0) (UInt32.ofNat payload.length)).val with
  | mk success mem =>
    rw [handlePUT_some t task.isRunning hw]
    rw [← UserTaskObject.setData_eq t task stack, ← htask] at hw
    rw [writeData_some hslot hw, haccessible, htask]
    split
    · rfl
    · split
      · rfl
      · split
        · rfl
        · rfl

end

/-! ## The handlers -/

/-- "Running" -/
def running : List UInt8 := [0x52, 0x75, 0x6E, 0x6E, 0x69, 0x6E, 0x67]

section
variable {T : Nat}

abbrev Handled (T : Nat) := Traced ApiEvent (Option (CoAPResponse × OsState T))

/-- `act` gets the id, unless the path is refused. -/
def withId (s : OsState T) (id : Traced ApiEvent (Except CoAPResponse (Nat × UInt64)))
    (act : Nat → UInt32 → Handled T) : Handled T := do
  match ← id with
  | .error response => return some (response, s)
  | .ok (i, taskId) => act i taskId.toUInt32

/-- mirrors api_handlers.cpp:11-85 -/
def TaskAPIHandler.handlePUT (m : Machine) (s : OsState T) (path : List UInt8) (_ : ContentFormat) (_ : List UInt8) :
    Handled T :=
  withId s (taskId path) fun _ id => do
    Traced.emit [.call (.createUserTask id)]
    return create m s id

/-- mirrors api_handlers.cpp:87-155 -/
def TaskAPIHandler.handleDELETE (s : OsState T) (path : List UInt8) (_ : ContentFormat) (_ : List UInt8) : Handled T :=
  withId s (taskId path) fun _ id => do
    Traced.emit [.call (.removeUserTask id)]
    return remove s id

/-- mirrors api_handlers.cpp:163-230 -/
def TaskStateAPIHandler.handleGET (s : OsState T) (path : List UInt8) (_ : ContentFormat) (_ : List UInt8) :
    Handled T :=
  withId s (taskIdSegment path) fun _ id => do
    Traced.emit [.call (.getUserTask id)]
    return some (readState s id, s)

/-- mirrors api_handlers.cpp:232-344 -/
def TaskStateAPIHandler.handlePUT (m : Machine) (s : OsState T) (path : List UInt8) (contentFormat : ContentFormat)
    (payload : List UInt8) : Handled T :=
  if contentFormat ≠ .textPlainCharsetUTF8 then
    return some (⟨UNSUPPORTED_CONTENT_FORMAT_RESPONSE_CODE, ""⟩, s)
  -- `memCompare` of the 7 bytes
  else if payload.length ≠ 7 ∨ payload ≠ running then return some (badRequest, s)
  else withId s (taskIdSegment path) fun _ id => do
    Traced.emit [.call (.getUserTask id)]
    return some (start m s id)

/-- mirrors api_handlers.cpp:351-484 -/
def TaskDataAPIHandler.handlePUT (s : OsState T) (path : List UInt8) (contentFormat : ContentFormat)
    (payload : List UInt8) : Handled T :=
  if contentFormat ≠ .applicationOctetStream then
    return some (⟨UNSUPPORTED_CONTENT_FORMAT_RESPONSE_CODE, ""⟩, s)
  else withId s (taskIdSegment path) fun i id =>
    withId s (addressSegment path i) fun _ address => do
      Traced.emit [.call (.getUserTask id)]
      return some (writeData s id address payload)

end

/-- The methods that parse an id. -/
inductive ApiMethod where
  | taskPUT
  | taskDELETE
  | stateGET
  | statePUT
  | dataPUT
  deriving DecidableEq, Repr

/-- "/tasks/" -/
def tasks : List UInt8 := [0x2F, 0x74, 0x61, 0x73, 0x6B, 0x73, 0x2F]

/-- "/state" -/
def state : List UInt8 := [0x2F, 0x73, 0x74, 0x61, 0x74, 0x65]

/-- "/data/" -/
def data : List UInt8 := [0x2F, 0x64, 0x61, 0x74, 0x61, 0x2F]

namespace ApiMethod

/-- mirrors os_management_task.cpp:38-40 -/
def pattern : ApiMethod → List UInt8
  | taskPUT => tasks ++ [caret]
  | taskDELETE => tasks ++ [caret]
  | stateGET => tasks ++ caret :: state
  | statePUT => tasks ++ caret :: state
  | dataPUT => tasks ++ caret :: (data ++ [caret])

def handle {T : Nat} (method : ApiMethod) (m : Machine) (s : OsState T) :
    List UInt8 → ContentFormat → List UInt8 → Handled T :=
  match method with
  | taskPUT => TaskAPIHandler.handlePUT m s
  | taskDELETE => TaskAPIHandler.handleDELETE s
  | stateGET => TaskStateAPIHandler.handleGET s
  | statePUT => TaskStateAPIHandler.handlePUT m s
  | dataPUT => TaskDataAPIHandler.handlePUT s

end ApiMethod

end CpuScheduler.L8
