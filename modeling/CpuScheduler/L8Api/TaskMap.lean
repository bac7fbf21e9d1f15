import CpuScheduler.Core.Keyed
import CpuScheduler.L8Api.Identifiers

/-!
# The API as a bounded map

To its clients the API is a map from ids to a running flag. It holds
`TASK_MANAGER_MAX_TASKS` ids, and as many of them can run as there are task
descriptors that no kernel task has. `TaskMap.step` is what a request does to
the map, and `taskMap` is the map of a state: `handle_refines` compares the two
for one request, and `session_refines` for any number of them.

A start that is refused has written the task's initial stack and its saved
stack pointer by then; nothing else changes when a request is refused
(`SameTasks`).
-/
namespace CpuScheduler.L8

open L4 L1 Keyed

/-! ## The map -/

abbrev TaskMap := UInt32 → Option Bool

inductive MapRequest where
  | create (id : UInt32)
  | delete (id : UInt32)
  | start (id : UInt32)
  | get (id : UInt32)
  deriving DecidableEq, Repr

/-- The code of a response, and the flag that it reports. -/
abbrev Reply := UInt8 × Option Bool

namespace TaskMap

def live (f : TaskMap) : Set UInt32 := {id | ∃ b, f id = some b}

def running (f : TaskMap) : Set UInt32 := {id | f id = some true}

open Classical in
/-- A map for `maxTasks` ids, of which `maxRunning` can run. -/
noncomputable def step (maxTasks maxRunning : Nat) (f : TaskMap) : MapRequest → Reply × TaskMap
  | .create id =>
    if id = 0 then ((BAD_REQUEST_RESPONSE_CODE, none), f)
    else if f id ≠ none then ((CONFLICT_RESPONSE_CODE, none), f)
    else if f.live.ncard = maxTasks then ((FORBIDDEN_RESPONSE_CODE, none), f)
    else ((CREATED_RESPONSE_CODE, none), Function.update f id (some false))
  | .delete id =>
    if id = 0 then ((BAD_REQUEST_RESPONSE_CODE, none), f)
    else if f id = none then ((NOT_FOUND_RESPONSE_CODE, none), f)
    else ((DELETED_RESPONSE_CODE, none), Function.update f id none)
  | .start id =>
    match f id with
    | none => ((NOT_FOUND_RESPONSE_CODE, none), f)
    | some true => ((CHANGED_RESPONSE_CODE, none), f)
    | some false =>
      if f.running.ncard = maxRunning then ((FORBIDDEN_RESPONSE_CODE, none), f)
      else ((CHANGED_RESPONSE_CODE, none), Function.update f id (some true))
  | .get id =>
    match f id with
    | none => ((NOT_FOUND_RESPONSE_CODE, none), f)
    | some flag => ((CONTENT_RESPONSE_CODE, some flag), f)

/-- The replies to requests, and the map they leave. -/
noncomputable def run (maxTasks maxRunning : Nat) : List MapRequest → TaskMap → List Reply × TaskMap
  | [], f => ([], f)
  | q :: qs, f =>
    ((step maxTasks maxRunning f q).1 :: (run maxTasks maxRunning qs (step maxTasks maxRunning f q).2).1,
      (run maxTasks maxRunning qs (step maxTasks maxRunning f q).2).2)

end TaskMap

/-! ## The map of a state -/

section
variable {T : Nat}

/-- The ids with the running flags of their tasks. -/
def taskMap (s : OsState T) : TaskMap := view Prod.snd (fun e => (s.taskOf e).task.isRunning) s.manager.activeTasks

/-- The descriptors that no kernel task has. -/
def maxRunning (s : OsState T) : Nat := T - s.kernelTaskIDs.length

/-- What a client learns from a response. -/
def shows (response : CoAPResponse) : Reply :=
  (response.responseCode, if response.responseCode = CONTENT_RESPONSE_CODE then some (response.text == "Running") else none)

variable {reserved : Set Nat} {s t : OsState T} {m : Machine} {id : UInt32}

theorem taskMap_eq (s : OsState T) (id : UInt32) : taskMap s id = (s.findTask id).map fun e => (s.taskOf e).task.isRunning :=
  rfl

theorem live_ncard (h : SlotsInv s) : (taskMap s).live.ncard = s.manager.activeTasks.length := by
  have hcount := ncard_view (fun e => (s.taskOf e).task.isRunning) h.ids fun _ => true
  rw [List.filter_true] at hcount
  rw [← hcount]
  simp [TaskMap.live, taskMap]

/-- The ids are as many as the slots that are not free. -/
theorem slots_ncard (h : SlotsInv s) : (taskMap s).live.ncard + s.manager.unusedTasks.length = TASK_MANAGER_MAX_TASKS T := by
  have hall := h.slots.length_eq
  rw [List.length_append, List.length_map, List.length_finRange] at hall
  rw [live_ncard h, hall]

/-- The running ids are as many as the descriptors of user tasks. -/
theorem running_ncard (hslots : SlotsInv s) (h : DescriptorsInv s) :
    (taskMap s).running.ncard = s.userTaskIDs.length := by
  have hcount := ncard_view (fun e => (s.taskOf e).task.isRunning) hslots.ids id
  have hset : (taskMap s).running = {k | ∃ b, taskMap s k = some b ∧ id b = true} := by
    ext k
    simp [TaskMap.running]
  rw [hset]
  refine hcount.trans ?_
  rw [OsState.userTaskIDs, List.length_filterMap_eq_countP, List.countP_eq_length_filter]
  exact congrArg List.length (List.filter_congr fun e he => h.user e he)

theorem descriptors_ncard (hslots : SlotsInv s) (h : DescriptorsInv s) :
    (taskMap s).running.ncard + s.core.unusedTasks.length = maxRunning s := by
  have hall := h.all.length_eq
  have hrun := h.running.length_eq
  rw [List.length_append, List.length_finRange] at hall
  rw [List.length_append] at hrun
  rw [running_ncard hslots h, maxRunning]
  omega

/-! ## What a request does -/

/-- Everything but the saved stacks and memory is as it was. -/
structure SameTasks (s t : OsState T) : Prop where
  activeTasks : t.manager.activeTasks = s.manager.activeTasks
  unusedTasks : t.manager.unusedTasks = s.manager.unusedTasks
  task : ∀ slot, ∃ stack, t.manager.userTaskBuffers slot = { s.manager.userTaskBuffers slot with updatedKernelStack := stack }
  kernelTasks : t.kernelTasks = s.kernelTasks
  core : ∃ mem, t.core = { s.core with mem := mem }

theorem SameTasks.refl (s : OsState T) : SameTasks s s := ⟨rfl, rfl, fun _ => ⟨_, rfl⟩, rfl, _, rfl⟩

theorem SameTasks.taskMap_eq (h : SameTasks s t) : taskMap t = taskMap s := by
  unfold taskMap
  rw [h.activeTasks]
  refine view_congr fun e _ => ?_
  obtain ⟨stack, hstack⟩ := h.task e.1
  rw [OsState.taskOf, hstack]
  rfl

/-- A request of the map, as a request of the API: with any number in the path
that has the value of the id. -/
structure Asks (q : MapRequest) (r : ApiRequest) (segment : List UInt8) : Prop where
  valid : r.Valid [segment]
  number : IsNumber segment
  method : r.method = match q with
    | .create _ => .taskPUT
    | .delete _ => .taskDELETE
    | .start _ => .statePUT
    | .get _ => .stateGET
  id : decimal segment = match q with
    | .create id | .delete id | .start id | .get id => id.toNat

/-- The response and the state behind it are those of the map; if the request
is refused, nothing has changed but the saved stack of the task to start. -/
structure Refines (q : MapRequest) (s : OsState T) (response : CoAPResponse) (t : OsState T) : Prop where
  reply : shows response = ((taskMap s).step (TASK_MANAGER_MAX_TASKS T) (maxRunning s) q).1
  map : taskMap t = ((taskMap s).step (TASK_MANAGER_MAX_TASKS T) (maxRunning s) q).2
  kernelTasks : t.kernelTasks = s.kernelTasks
  refused : 0x80 ≤ response.responseCode → SameTasks s t ∧ ((∀ id, q ≠ .start id) → t = s)

/-- A reply that leaves everything as it is. -/
theorem Refines.unchanged {q : MapRequest} {response : CoAPResponse}
    (h : (taskMap s).step (TASK_MANAGER_MAX_TASKS T) (maxRunning s) q = (shows response, taskMap s)) :
    Refines q s response s :=
  ⟨by rw [h], by rw [h], rfl, fun _ => ⟨.refl s, fun _ => rfl⟩⟩

/-- A request that is carried out. -/
theorem Refines.accepted {q : MapRequest} {response : CoAPResponse} (hcode : ¬ 0x80 ≤ response.responseCode)
    (hkernel : t.kernelTasks = s.kernelTasks)
    (h : (taskMap s).step (TASK_MANAGER_MAX_TASKS T) (maxRunning s) q = (shows response, taskMap t)) :
    Refines q s response t :=
  ⟨by rw [h], by rw [h], hkernel, fun hrefused => absurd hrefused hcode⟩

theorem create_refines {result : CreateUserTaskResult} (h : OsInv reserved s) (hc : Creates s m id result t) :
    Refines (.create id) s (createResponse result) t := by
  have hslots := slots_ncard h.slots
  have hafter := (h.slots.creates hc).ids
  cases hc with
  | null hid =>
    refine .unchanged ?_
    rw [TaskMap.step, if_pos hid]
    rfl
  | taken e hid hfind =>
    have hsome : taskMap s id ≠ none := by simp [taskMap_eq, hfind]
    refine .unchanged ?_
    rw [TaskMap.step, if_neg hid, if_pos hsome]
    rfl
  | full hid hfind hunused =>
    have hnone : ¬ taskMap s id ≠ none := by simp [taskMap_eq, hfind]
    rw [hunused, List.length_nil, Nat.add_zero] at hslots
    refine .unchanged ?_
    rw [TaskMap.step, if_neg hid, if_neg hnone, if_pos hslots]
    rfl
  | created slot unusedTasks r allocator u mem hid hfind hunused _ _ _ htask =>
    have hnone : ¬ taskMap s id ≠ none := by simp [taskMap_eq, hfind]
    have hroom : (taskMap s).live.ncard ≠ TASK_MANAGER_MAX_TASKS T := by
      rw [hunused, List.length_cons] at hslots
      omega
    refine .accepted (by decide) rfl ?_
    rw [TaskMap.step, if_neg hid, if_neg hnone, if_neg hroom]
    refine Prod.ext rfl (Eq.symm ?_)
    let running (e : Slot T × UInt32) : Bool := (Function.update s.manager.userTaskBuffers slot u e.1).task.isRunning
    have hfirst : view Prod.snd running ([] ++ (slot, id) :: s.manager.activeTasks) =
        Function.update (view Prod.snd running ([] ++ s.manager.activeTasks)) id (some (running (slot, id))) :=
      view_split hafter
    refine hfirst.trans ?_
    dsimp only [running]
    rw [List.nil_append, Function.update_self, htask]
    refine congrArg (Function.update · id (some false)) (view_congr fun e he => ?_)
    rw [Function.update_of_ne (h.slots.unused_ne (by simp [hunused]) he)]
    rfl

theorem remove_refines {result : RemoveUserTaskResult} (h : OsInv reserved s) (hr : Removes s id result t) :
    Refines (.delete id) s (removeResponse result) t := by
  have herased {e : Slot T × UInt32} {as bs : List (Slot T × UInt32)} (heid : e.2 = id)
      (hsplit : s.manager.activeTasks = as ++ e :: bs) :
      Function.update (taskMap s) id none = view Prod.snd (fun e => (s.taskOf e).task.isRunning) (as ++ bs) := by
    have hids := h.slots.ids
    rw [hsplit] at hids
    rw [taskMap, hsplit, ← heid]
    exact (view_erased hids).symm
  cases hr with
  | null hid =>
    refine .unchanged ?_
    rw [TaskMap.step, if_pos hid]
    rfl
  | unknown hid hfind =>
    have hnone : taskMap s id = none := by simp [taskMap_eq, hfind]
    refine .unchanged ?_
    rw [TaskMap.step, if_neg hid, if_pos hnone]
    rfl
  | idle e as bs hid hfind heid hsplit =>
    have hsome : taskMap s id ≠ none := by simp [taskMap_eq, hfind]
    refine .accepted (by decide) rfl ?_
    rw [TaskMap.step, if_neg hid, if_neg hsome]
    exact Prod.ext rfl (herased heid hsplit)
  | running e as bs taskID sockets hid hfind heid hsplit =>
    have hsome : taskMap s id ≠ none := by simp [taskMap_eq, hfind]
    refine .accepted (by decide) rfl ?_
    rw [TaskMap.step, if_neg hid, if_neg hsome]
    exact Prod.ext rfl (herased heid hsplit)

theorem getUserTask_eq (s : OsState T) (id : UInt32) : s.getUserTask id = (s.findTask id).map Prod.fst := rfl

theorem readState_refines (s : OsState T) (id : UInt32) : Refines (.get id) s (readState s id) s := by
  refine .unchanged ?_
  unfold readState
  rw [getUserTask_eq, TaskMap.step, taskMap_eq]
  cases hfind : s.findTask id with
  | none => rfl
  | some e =>
    rw [Option.map_some, Option.map_some]
    dsimp only
    rw [show s.manager.userTaskBuffers e.1 = s.taskOf e from rfl]
    cases (s.taskOf e).task.isRunning with
    | false => rfl
    | true => rfl

/-- Another task in one slot, with another flag. -/
theorem taskMap_updated (h : SlotsInv s) {e : Slot T × UInt32} {as bs : List (Slot T × UInt32)}
    (hsplit : s.manager.activeTasks = as ++ e :: bs) {u : UserTaskObject T}
    (hbuffers : t.manager.userTaskBuffers = Function.update s.manager.userTaskBuffers e.1 u)
    (hactive : t.manager.activeTasks = s.manager.activeTasks) :
    taskMap t = Function.update (taskMap s) e.2 (some u.task.isRunning) := by
  have hids := h.ids
  rw [hsplit] at hids
  have hothers : view Prod.snd (fun e => (t.taskOf e).task.isRunning) (as ++ bs) =
      view Prod.snd (fun e => (s.taskOf e).task.isRunning) (as ++ bs) := by
    refine view_congr fun e' he' => ?_
    rw [taskOf_of_ne hbuffers (h.slot_ne hsplit he')]
  unfold taskMap
  rw [hactive, hsplit, view_split hids, view_split hids, hothers, Function.update_idem, taskOf_of_eq hbuffers rfl]

/-- A refused start: the task's stack is saved, and memory written. -/
theorem sameTasks_saved (s : OsState T) (slot : Slot T) (stack : UInt32) (mem : L3.Mem)
    (hbuffers : t.manager.userTaskBuffers = Function.update s.manager.userTaskBuffers slot
      { s.manager.userTaskBuffers slot with updatedKernelStack := stack })
    (hactive : t.manager.activeTasks = s.manager.activeTasks) (hunused : t.manager.unusedTasks = s.manager.unusedTasks)
    (hkernel : t.kernelTasks = s.kernelTasks) (hcore : t.core = { s.core with mem := mem }) : SameTasks s t := by
  refine ⟨hactive, hunused, fun other => ?_, hkernel, mem, hcore⟩
  by_cases hslot : other = slot
  · subst hslot
    exact ⟨stack, by rw [hbuffers, Function.update_self]⟩
  · exact ⟨_, by rw [hbuffers, Function.update_of_ne hslot]⟩

/-- An idle task is started if there is a descriptor. -/
theorem startIdle_refines (h : OsInv reserved s) (m : Machine) {e : Slot T × UInt32} (hfind : s.findTask id = some e)
    (hidle : (s.taskOf e).task.isRunning = false) :
    Refines (.start id) s (startResponse (s.setToRunningState m e.1).1) (s.setToRunningState m e.1).2 := by
  have hdescriptors := descriptors_ncard h.slots h.descriptors
  have hsome : taskMap s id = some false := by rw [taskMap_eq, hfind, Option.map_some, hidle]
  obtain ⟨rfl, as, bs, hsplit, -⟩ := findTask_some hfind
  have he : e ∈ s.manager.activeTasks := by simp [hsplit]
  obtain ⟨stack, mem, response, task, core, hstarts, hval⟩ := s.setToRunningState_starts m e.1
  rw [hval]
  cases hstarts with
  | running hactive => exact absurd (hactive.symm.trans hidle) (by simp)
  | uninitialised _ hzero => exact absurd hzero (h.pages.memory he)
  | full _ _ hunused =>
    -- the only refusal that has written something
    have hfull : (taskMap s).running.ncard = maxRunning s := by
      rw [show s.core.unusedTasks = [] from hunused, List.length_nil, Nat.add_zero] at hdescriptors
      exact hdescriptors
    have hstep : (taskMap s).step (TASK_MANAGER_MAX_TASKS T) (maxRunning s) (.start e.2) =
        ((FORBIDDEN_RESPONSE_CODE, none), taskMap s) := by
      rw [TaskMap.step, hsome]
      exact if_pos hfull
    have hsame := sameTasks_saved (t := (s.setToRunningState m e.1).2) s e.1 stack mem (by rw [hval]) (by rw [hval])
      (by rw [hval]) (by rw [hval]) (by rw [hval])
    rw [hval] at hsame
    refine ⟨by rw [hstep]; rfl, ?_, rfl, fun _ => ⟨hsame, fun hne => absurd rfl (hne e.2)⟩⟩
    rw [hstep]
    exact hsame.taskMap_eq
  | started taskID unusedTasks descriptor _ _ hunused =>
    have hroom : (taskMap s).running.ncard ≠ maxRunning s := by
      rw [show s.core.unusedTasks = taskID :: unusedTasks from hunused, List.length_cons] at hdescriptors
      omega
    refine .accepted (show ¬ (0x80 : UInt8) ≤ CHANGED_RESPONSE_CODE by decide) rfl ?_
    rw [TaskMap.step, hsome]
    refine (if_neg hroom).trans (Prod.ext rfl (Eq.symm ?_))
    refine taskMap_updated (u := { s.manager.userTaskBuffers e.1 with
      task := ⟨some taskID, true⟩, updatedKernelStack := stack }) h.slots hsplit ?_ ?_
    · rfl
    · rfl

theorem start_refines (h : OsInv reserved s) (m : Machine) (id : UInt32) :
    Refines (.start id) s (start m s id).1 (start m s id).2 := by
  unfold start
  rw [getUserTask_eq]
  cases hfind : s.findTask id with
  | none =>
    refine .unchanged ?_
    rw [TaskMap.step, taskMap_eq, hfind]
    rfl
  | some e =>
    rw [Option.map_some]
    dsimp only
    rw [show s.manager.userTaskBuffers e.1 = s.taskOf e from rfl]
    cases hrun : (s.taskOf e).task.isRunning with
    | false => exact startIdle_refines h m hfind hrun
    | true =>
      refine .unchanged ?_
      rw [TaskMap.step, taskMap_eq, hfind, Option.map_some, hrun]
      rfl

/-! ## Requests -/

/-- What a request comes to. -/
def MapRequest.act (q : MapRequest) (m : Machine) (s : OsState T) : Option (CoAPResponse × OsState T) :=
  match q with
  | create id => L8.create m s id
  | delete id => remove s id
  | start id => some (L8.start m s id)
  | get id => some (readState s id, s)

theorem Asks.val {q : MapRequest} {r : ApiRequest} {segment : List UInt8} (h : Asks q r segment) (m : Machine)
    (s : OsState T) : (r.handle m s).val = q.act m s := by
  obtain ⟨hvalid, hnumber, hmethod, hid⟩ := h
  have hnumbers : ∀ g ∈ [segment], IsNumber g := fun g hg => by rwa [List.mem_singleton.mp hg]
  obtain ⟨id, address, hparsed, _, _, hval⟩ := (parsesExactly (m := m) (s := s) hvalid).acts hnumbers
  have hdecimal : id.toNat = decimal segment := hparsed
  rw [hval, hmethod]
  cases q with
  | create id' | delete id' | start id' | get id' =>
    cases UInt32.toNat_inj.mp (hdecimal.trans hid)
    rfl

/-- A request is handled; if a task is created, the allocator has found its pages. -/
def Serves (m : Machine) (r : ApiRequest) (s : OsState T) (response : CoAPResponse) (t : OsState T) : Prop :=
  (r.handle m s).val = some (response, t) ∧
    (response.responseCode = CREATED_RESPONSE_CODE → Allocates m s.core (1024 * 2))

/-- Requests, handled one after the other. -/
inductive Session : OsState T → List MapRequest → List CoAPResponse → OsState T → Prop
  | nil (s : OsState T) : Session s [] [] s
  | cons {s t u : OsState T} {m : Machine} {q : MapRequest} {qs : List MapRequest} {r : ApiRequest}
      {segment : List UInt8} {response : CoAPResponse} {responses : List CoAPResponse} : Asks q r segment →
    Serves m r s response t → Session t qs responses u → Session s (q :: qs) (response :: responses) u

theorem createResponse_created {result : CreateUserTaskResult} (h : result = .SUCCESS) :
    (createResponse result).responseCode = CREATED_RESPONSE_CODE := by
  rw [h]
  rfl

/-- One request does what it does to the map, and is a run of the system. -/
theorem handle_refines (hT : T ≤ 256) (hs : (osLTS T reserved).Reachable s) {q : MapRequest} {r : ApiRequest}
    {segment : List UInt8} {response : CoAPResponse} (hasks : Asks q r segment) (hserves : Serves m r s response t) :
    Refines q s response t ∧ (osLTS T reserved).Reachable t := by
  have h := (osInv_inductive hT).reachable s hs
  obtain ⟨hval, halloc⟩ := hserves
  rw [hasks.val] at hval
  cases q with
  | create id =>
    obtain ⟨⟨result, t'⟩, hcall, hresult⟩ := Option.map_eq_some_iff.mp hval
    cases hresult
    have hpages : result = .SUCCESS → Allocates m s.core (1024 * 2) := fun h => halloc (createResponse_created h)
    exact ⟨create_refines h (OsState.createUserTask_creates h.pages.isRunning h.pages.pageDirectory hcall hpages),
      hs.step (l := .createUserTask m id) ⟨result, hcall, hpages⟩⟩
  | delete id =>
    obtain ⟨⟨result, t'⟩, hcall, hresult⟩ := Option.map_eq_some_iff.mp hval
    cases hresult
    obtain ⟨result', t'', hcall', hremoves⟩ := h.removes id
    cases hcall.symm.trans hcall'
    exact ⟨remove_refines h hremoves, hs.step (l := .removeUserTask id) ⟨_, hcall⟩⟩
  | start id =>
    have hrefines := start_refines h m id
    have hpair : start m s id = (response, t) := Option.some.inj hval
    rw [hpair] at hrefines
    refine ⟨hrefines, ?_⟩
    unfold start at hpair
    cases hslot : s.getUserTask id with
    | none =>
      rw [hslot] at hpair
      cases hpair
      exact hs
    | some slot =>
      rw [hslot] at hpair
      dsimp only at hpair
      split at hpair
      · cases hpair
        exact hs
      · cases hpair
        obtain ⟨e, hfind, rfl⟩ := Option.map_eq_some_iff.mp hslot
        have he := List.mem_of_find?_eq_some hfind
        exact hs.step (l := .setToRunningState m e.1) ⟨List.mem_map_of_mem he, rfl⟩
  | get id =>
    cases hval
    exact ⟨readState_refines s id, hs⟩

theorem maxRunning_eq (h : t.kernelTasks = s.kernelTasks) : maxRunning t = maxRunning s := by
  rw [maxRunning, maxRunning, OsState.kernelTaskIDs, OsState.kernelTaskIDs, h]

/-- Any number of requests, one after the other. -/
theorem session_refines (hT : T ≤ 256) {qs : List MapRequest} {responses : List CoAPResponse}
    (hsession : Session s qs responses t) (hs : (osLTS T reserved).Reachable s) :
    responses.map shows = ((taskMap s).run (TASK_MANAGER_MAX_TASKS T) (maxRunning s) qs).1 ∧
      taskMap t = ((taskMap s).run (TASK_MANAGER_MAX_TASKS T) (maxRunning s) qs).2 ∧
      (osLTS T reserved).Reachable t := by
  induction hsession with
  | nil s => exact ⟨rfl, rfl, hs⟩
  | cons hasks hserves _ ih =>
    obtain ⟨hrefines, ht⟩ := handle_refines hT hs hasks hserves
    obtain ⟨hreplies, hmap, hu⟩ := ih ht
    rw [maxRunning_eq hrefines.kernelTasks, hrefines.map] at hreplies hmap
    refine ⟨?_, hmap, hu⟩
    rw [List.map_cons, hreplies, hrefines.reply]
    rfl

/-- A task that is not there yet is created if the allocator finds its pages. -/
theorem createUserTask_isSome (hrun : s.core.isRunning = true)
    (hdirectory : s.core.currentPageDirectory = s.core.kernelPageDirectoryPhysicalAddr)
    (halloc : Allocates m s.core (1024 * 2)) (id : UInt32) : ∃ result t, s.createUserTask m id = some (result, t) := by
  obtain ⟨r, allocator, u, mem, _, _, _, _, _, hval⟩ := UserTaskObject.new_spec hrun hdirectory halloc
  unfold OsState.createUserTask
  by_cases hid : id = 0
  · exact ⟨_, _, if_pos hid⟩
  · rw [if_neg hid]
    cases s.findTask id with
    | some e => exact ⟨_, _, if_pos rfl⟩
    | none =>
      rw [if_neg (by simp)]
      cases s.manager.unusedTasks with
      | nil => exact ⟨_, _, rfl⟩
      | cons slot unusedTasks =>
        dsimp only
        rw [hval]
        exact ⟨_, _, rfl⟩

/-- Every request is answered. -/
theorem served (h : OsInv reserved s) {q : MapRequest} {r : ApiRequest} {segment : List UInt8} (hasks : Asks q r segment)
    (halloc : Allocates m s.core (1024 * 2)) : ∃ response t, Serves m r s response t := by
  unfold Serves
  rw [hasks.val]
  cases q with
  | create id =>
    obtain ⟨result, t, hcall⟩ := createUserTask_isSome h.pages.isRunning h.pages.pageDirectory halloc id
    exact ⟨createResponse result, t, by rw [MapRequest.act, create, hcall]; rfl, fun _ => halloc⟩
  | delete id =>
    obtain ⟨result, t, hcall, _⟩ := h.removes id
    exact ⟨removeResponse result, t, by rw [MapRequest.act, remove, hcall]; rfl, fun _ => halloc⟩
  | start id => exact ⟨_, _, rfl, fun _ => halloc⟩
  | get id => exact ⟨_, _, rfl, fun _ => halloc⟩

end

end CpuScheduler.L8
