import CpuScheduler.L8Api.TaskMap

/-!
# A start that is refused

Every request of the map can be made, with its id as a decimal number
(`exists_asks`). So the 50 tasks that the descriptors are for can be created
and started one after the other (`filled`), and the start of one more is
refused, after it has written the saved stack pointer of its task.
-/
namespace CpuScheduler.L8

open L1 L1.PageAllocator L3 L4 Wildcard Digits
open L6 (ContentFormat slash caret cString MAX_COAP_PATH_SIZE)

/-! ## The requests of the map -/

def digitChar (d : Nat) : UInt8 := UInt8.ofNat (0x30 + d)

/-- The id with leading zeros. -/
def numeral (id : UInt32) : List UInt8 := (Nat.digitsAppend 10 10 id.toNat).reverse.map digitChar

theorem digitChar_toNat {d : Nat} (h : d < 10) : (digitChar d).toNat = 0x30 + d := by
  rw [digitChar, UInt8.toNat_ofNat']
  omega

theorem isDigit_digitChar {d : Nat} (h : d < 10) : IsDigit (digitChar d) := by
  unfold IsDigit
  rw [digitChar_toNat h]
  omega

theorem numeral_lt (id : UInt32) : id.toNat < 10 ^ 10 := Nat.lt_trans id.toNat_lt (by decide)

theorem numeral_digits (id : UInt32) {c : UInt8} (hc : c ∈ numeral id) : IsDigit c := by
  obtain ⟨d, hd, rfl⟩ := List.mem_map.mp hc
  exact isDigit_digitChar (Nat.lt_of_mem_digitsAppend (by decide) 10 d (List.mem_reverse.mp hd))

theorem numeral_length (id : UInt32) : (numeral id).length = 10 := by
  rw [numeral, List.length_map, List.length_reverse, Nat.length_digitsAppend (by decide) 10 (numeral_lt id)]

theorem decimal_numeral (id : UInt32) : decimal (numeral id) = id.toNat := by
  have hdigits : digits (numeral id) = (Nat.digitsAppend 10 10 id.toNat).reverse := by
    rw [digits, numeral, List.map_map]
    refine (List.map_congr_left fun d hd => ?_).trans (List.map_id _)
    have hlt := Nat.lt_of_mem_digitsAppend (by decide) 10 d (List.mem_reverse.mp hd)
    rw [Function.comp, digitChar_toNat hlt, Nat.add_sub_cancel_left]
    rfl
  rw [decimal, hdigits, List.reverse_reverse]
  exact (Nat.setInvOn_digitsAppend_ofDigits (by decide) 10).2 (numeral_lt id)

theorem isNumber_numeral (id : UInt32) : IsNumber (numeral id) :=
  ⟨fun _ => numeral_digits id, by rw [decimal_numeral]; exact id.toNat_lt⟩

theorem notMem_numeral (id : UInt32) {c : UInt8} (hc : ¬ IsDigit c) : c ∉ numeral id :=
  fun hmem => hc (numeral_digits id hmem)

/-- A request with the path /tasks/{id} and what is behind it. -/
def request (method : ApiMethod) (behind : List UInt8) (id : UInt32) : ApiRequest :=
  ⟨method, tasks ++ (numeral id ++ behind), .textPlainCharsetUTF8, running⟩

theorem cString_request (method : ApiMethod) {behind : List UInt8} (h0 : (0 : UInt8) ∉ behind) (id : UInt32) :
    cString (request method behind id).path = tasks ++ (numeral id ++ behind) := by
  refine List.takeWhile_eq_self_iff.mpr fun c hc => decide_eq_true ?_
  rintro rfl
  rcases List.mem_append.mp hc with htasks | hrest
  · exact absurd htasks (by decide)
  · rcases List.mem_append.mp hrest with hid | hbehind
    · exact notMem_numeral id (by decide) hid
    · exact h0 hbehind

theorem request_valid (method : ApiMethod) {behind : List UInt8} (hpattern : method.pattern = tasks ++ caret :: behind)
    (h0 : (0 : UInt8) ∉ behind) (hcaret : caret ∉ behind) (hlength : behind.length ≤ 6)
    (hchecked : method.Checked .textPlainCharsetUTF8 running) (id : UInt32) :
    (request method behind id).Valid [numeral id] := by
  have hpath := cString_request method h0 id
  refine ⟨?_, ?_, ?_, hchecked⟩
  · rw [hpath, List.length_append, List.length_append, numeral_length]
    exact Nat.le_trans (Nat.add_le_add_left (Nat.add_le_add_left hlength 10) _) (by decide)
  · rw [hpath]
    show Captures slash caret method.pattern _ _
    rw [hpattern]
    have hbehind : Captures slash caret (behind ++ []) behind [] :=
      (captures_literal hcaret).mpr ⟨[], by rw [List.append_nil], .nil⟩
    rw [List.append_nil] at hbehind
    exact (captures_literal caret_notMem_tasks).mpr ⟨_, rfl, .wild (notMem_numeral id (by decide)) hbehind⟩
  · intro segment hsegment hempty
    rw [List.mem_singleton.mp hsegment] at hempty
    have hlength := numeral_length id
    rw [hempty] at hlength
    exact absurd hlength (by decide)

/-- Every request of the map can be made. -/
theorem exists_asks (q : MapRequest) : ∃ r segment, Asks q r segment := by
  cases q with
  | create id => exact ⟨_, _, request_valid .taskPUT rfl (by decide) (by decide) (by decide) trivial id,
      isNumber_numeral id, rfl, decimal_numeral id⟩
  | delete id => exact ⟨_, _, request_valid .taskDELETE rfl (by decide) (by decide) (by decide) trivial id,
      isNumber_numeral id, rfl, decimal_numeral id⟩
  | start id => exact ⟨_, _, request_valid .statePUT rfl (by decide) (by decide) (by decide) ⟨rfl, rfl⟩ id,
      isNumber_numeral id, rfl, decimal_numeral id⟩
  | get id => exact ⟨_, _, request_valid .stateGET rfl (by decide) (by decide) (by decide) trivial id,
      isNumber_numeral id, rfl, decimal_numeral id⟩

/-! ## The saved stack -/

section
variable {T : Nat} {s t : OsState T} {m : Machine} {id : UInt32}

theorem new_stack {c c' : CpuCore T} {a : UInt32} {u : UserTaskObject T}
    (h : (UserTaskObject.new m c a).val = some (u, c')) : u.updatedKernelStack = m.uninit := by
  unfold UserTaskObject.new at h
  cases hask : askForPages m (UserTaskObject.asks c a) (1024 * 2) c with
  | none =>
    rw [hask] at h
    cases h
  | some p =>
    rw [hask] at h
    simp only [Traced.val_ite, Traced.val_bind, Traced.val_pure] at h
    split at h
    · cases h
      rfl
    · cases h
      rfl

/-- The saved stack of a new task is not initialised. -/
theorem createUserTask_stack {slot : Slot T} {unusedTasks : List (Slot T)}
    (h : s.createUserTask m id = some (.SUCCESS, t)) (hunused : s.manager.unusedTasks = slot :: unusedTasks) :
    (t.manager.userTaskBuffers slot).updatedKernelStack = m.uninit := by
  unfold OsState.createUserTask at h
  split at h
  · cases h
  · split at h
    · cases h
    · rw [hunused] at h
      obtain ⟨⟨u, core⟩, hnew, hresult⟩ := Option.map_eq_some_iff.mp h
      cases hresult
      dsimp only
      rw [Function.update_self]
      exact new_stack hnew

end

/-! ## All descriptors in use -/

theorem Session.snoc {T : Nat} {s t u : OsState T} {m : Machine} {qs : List MapRequest} {q : MapRequest}
    {r : ApiRequest} {segment : List UInt8} {response : CoAPResponse} {responses : List CoAPResponse}
    (h : Session s qs responses t) (hasks : Asks q r segment) (hserves : Serves m r t response u) :
    Session s (qs ++ [q]) (responses ++ [response]) u := by
  induction h with
  | nil s => exact .cons hasks hserves (.nil u)
  | cons hasks' hserves' _ ih => exact .cons hasks' hserves' (ih hserves)

theorem startResponse_ne_created (result : SetToRunningStateResponse) :
    (startResponse result).responseCode ≠ CREATED_RESPONSE_CODE := by
  cases result with
  | SUCCESS => decide
  | TASK_ALREADY_RUNNING => decide
  | TASK_NOT_PROPERLY_INITIALIZED => decide
  | TOO_MANY_TASKS => decide

/-- An idle task is to be started. -/
theorem serves_start {T : Nat} {s : OsState T} {id : UInt32} {slot : Slot T} {r : ApiRequest} {segment : List UInt8}
    (m : Machine) (hasks : Asks (.start id) r segment) (hslot : s.getUserTask id = some slot)
    (hidle : (s.manager.userTaskBuffers slot).task.isRunning = false) :
    Serves m r s (startResponse (s.setToRunningState m slot).1) (s.setToRunningState m slot).2 := by
  refine ⟨?_, fun hcode => absurd hcode (startResponse_ne_created _)⟩
  rw [hasks.val, MapRequest.act, start, hslot]
  dsimp only
  rw [if_neg (by rw [hidle]; decide)]

/-- Requests have created `n` tasks and started `k` of them, and the pages
behind the memory of `n` tasks are free. -/
structure Filled (n k : Nat) (s : OsState 50) : Prop where
  session : ∃ qs responses, Session bootedState qs responses s
  descriptors : s.core.unusedTasks.length + k = 50
  slots : s.manager.unusedTasks.length + n = TASK_MANAGER_MAX_TASKS 50
  ids : ∀ e ∈ s.manager.activeTasks, e.2.toNat ≤ n
  free : ∀ p, 1025 + 2048 * n ≤ p → codeOf s.core.kernelPageAllocator.pageTables p = 0

theorem filled_zero : Filled 0 0 bootedState where
  session := ⟨[], [], .nil _⟩
  descriptors := List.length_finRange
  slots := List.length_finRange
  ids := fun e he => absurd he List.not_mem_nil
  free := fun p hp => by
    have hreserved : codeOf bootedState.core.kernelPageAllocator.pageTables p =
        codeOf (reserved 1024).pageTables p := rfl
    rw [hreserved, codeOf_reserved, if_neg (by omega)]

section
variable {n k : Nat} {s : OsState 50} {id : UInt32}

theorem Filled.inv (h : Filled n k s) : OsInv bootedPages s := by
  obtain ⟨qs, responses, hsession⟩ := h.session
  exact (osInv_inductive (by decide)).reachable s (session_refines (by decide) hsession bootedState_reachable).2.2

/-- One more task is created, with the next id. -/
theorem Filled.create (h : Filled n k s) (hn : n ≤ 50) : ∃ t slot, Filled (n + 1) k t ∧
    t.getUserTask (UInt32.ofNat (n + 1)) = some slot ∧ (t.manager.userTaskBuffers slot).task.isRunning = false ∧
    (t.manager.userTaskBuffers slot).updatedKernelStack = 0 := by
  have hinv := h.inv
  obtain ⟨a, allocator, hcall, hbelow, hfree⟩ := allocate_behind hinv.pages.refines.summarised sampleMachine.behind
    (show 0 < (1024 * 2 : UInt32).toNat by decide) (show 1025 + 2048 * n + 2048 ≤ 1023 * 1024 by omega) h.free
  have halloc : Allocates sampleMachine s.core (1024 * 2) := ⟨⟨a, 2048, by decide⟩, rfl, hbelow, allocator, hcall⟩
  obtain ⟨result, t, hval⟩ := createUserTask_isSome hinv.pages.isRunning hinv.pages.pageDirectory halloc
    (UInt32.ofNat (n + 1))
  have hcreates := OsState.createUserTask_creates hinv.pages.isRunning hinv.pages.pageDirectory hval fun _ => halloc
  obtain ⟨r, segment, hasks⟩ := exists_asks (.create (UInt32.ofNat (n + 1)))
  have hserves : Serves sampleMachine r s (createResponse result) t :=
    ⟨by rw [hasks.val, MapRequest.act, L8.create, hval]; rfl, fun _ => halloc⟩
  have hid : (UInt32.ofNat (n + 1)).toNat = n + 1 := by
    rw [UInt32.toNat_ofNat']
    omega
  cases hcreates with
  | null hzero =>
    rw [hzero] at hid
    exact absurd hid.symm (Nat.succ_ne_zero n)
  | taken e _ hfind =>
    have hle := h.ids e (List.mem_of_find?_eq_some hfind)
    rw [(findTask_some hfind).1, hid] at hle
    exact absurd hle (Nat.not_succ_le_self n)
  | full _ _ hunused =>
    have hslots := h.slots
    rw [hunused, List.length_nil, TASK_MANAGER_MAX_TASKS] at hslots
    omega
  | created slot unusedTasks region allocator' u mem _ hfind hunused _ _ hcall' htask _ =>
    have hpages : allocator' = allocator := congrArg Prod.snd (Option.some.inj (hcall'.symm.trans hcall))
    have hstack := createUserTask_stack hval hunused
    have hslots := h.slots
    rw [hunused, List.length_cons] at hslots
    obtain ⟨qs, responses, hsession⟩ := h.session
    refine ⟨_, slot, ⟨⟨_, _, hsession.snoc hasks hserves⟩, h.descriptors, ?_, ?_, ?_⟩, ?_, ?_, hstack⟩
    · exact (by omega : unusedTasks.length + (n + 1) = TASK_MANAGER_MAX_TASKS 50)
    · intro e he
      rcases List.mem_cons.mp he with rfl | he
      · exact Nat.le_of_eq hid
      · exact Nat.le_succ_of_le (h.ids e he)
    · intro p hp
      dsimp only
      rw [hpages]
      rw [Nat.mul_succ, ← Nat.add_assoc] at hp
      exact hfree p hp
    · simp [OsState.getUserTask, OsState.findTask]
    · dsimp only
      rw [Function.update_self, htask]

/-- An idle task is started. -/
theorem Filled.start (h : Filled n k s) (hk : k < 50) {slot : Slot 50} (hslot : s.getUserTask id = some slot)
    (hidle : (s.manager.userTaskBuffers slot).task.isRunning = false) : ∃ t, Filled n (k + 1) t := by
  obtain ⟨r, segment, hasks⟩ := exists_asks (.start id)
  have hserves := serves_start sampleMachine hasks hslot hidle
  obtain ⟨e, hfind, rfl⟩ := Option.map_eq_some_iff.mp hslot
  have hmemory := h.inv.pages.memory (List.mem_of_find?_eq_some hfind)
  obtain ⟨qs, responses, hsession⟩ := h.session
  have hsession := hsession.snoc hasks hserves
  have hdescriptors := h.descriptors
  obtain ⟨stack, mem, response, task, core, hstarts, hval⟩ := s.setToRunningState_starts sampleMachine e.1
  rw [hval] at hsession
  cases hstarts with
  | running hrunning => exact absurd (hrunning.symm.trans hidle) (by decide)
  | uninitialised _ hzero => exact absurd hzero hmemory
  | full _ _ hunused =>
    rw [show s.core.unusedTasks = [] from hunused, List.length_nil] at hdescriptors
    omega
  | started taskID unusedTasks descriptor _ _ hunused =>
    rw [show s.core.unusedTasks = taskID :: unusedTasks from hunused, List.length_cons] at hdescriptors
    refine ⟨_, ⟨_, _, hsession⟩, ?_, h.slots, h.ids, h.free⟩
    exact (by omega : unusedTasks.length + (k + 1) = 50)

end

/-- Every descriptor can be used up. -/
theorem filled (n : Nat) (hn : n ≤ 50) : ∃ s, Filled n n s := by
  induction n with
  | zero => exact ⟨bootedState, filled_zero⟩
  | succ n ih =>
    obtain ⟨s, h⟩ := ih (Nat.le_of_succ_le hn)
    obtain ⟨t, slot, hcreated, hslot, hidle, -⟩ := h.create (Nat.le_of_succ_le hn)
    exact hcreated.start (Nat.lt_of_succ_le hn) hslot hidle

end CpuScheduler.L8
