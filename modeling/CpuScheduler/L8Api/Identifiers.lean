import CpuScheduler.Core.Digits
import CpuScheduler.Core.Wildcard
import CpuScheduler.L8Api.ApiHandlers

/-!
# The ids in the paths of the API

A digit loop refuses a value as soon as it is above 2^32 - 1. Before each round
the value is below 2^32, so nothing overflows, and as the value never falls the
loop refuses just the segments that are no 32-bit decimal number (`digitLoop_reads`).
Every method runs the loop on exactly the segments that the wildcards of its
pattern stand for.
-/
namespace CpuScheduler.L8

open L4 Wildcard Digits Traced
open L6 (ContentFormat slash caret cString MAX_COAP_PATH_SIZE slash_ne_caret)

def IsDigit (c : UInt8) : Prop := 0x30 ≤ c.toNat ∧ c.toNat ≤ 0x39

instance (c : UInt8) : Decidable (IsDigit c) := inferInstanceAs (Decidable (_ ∧ _))

def digits (segment : List UInt8) : List Nat := segment.map fun c => c.toNat - 0x30

/-- The decimal value. -/
def decimal (segment : List UInt8) : Nat := Nat.ofDigits 10 (digits segment).reverse

/-- A 32-bit number. -/
structure IsNumber (segment : List UInt8) : Prop where
  digits : ∀ c ∈ segment, IsDigit c
  lt : decimal segment < 2 ^ 32

namespace ApiEvent

/-- The next value of the loop fits into 64 bits. -/
def NoOverflow : ApiEvent → Prop
  | digit value character => value.toNat * 10 + (character.toNat - 0x30) < 2 ^ 64
  | call _ => True

def call? : ApiEvent → Option ManagerCall
  | digit _ _ => none
  | call c => some c

end ApiEvent

/-- The calls of the task manager. -/
def calls {α : Type} (x : Traced ApiEvent α) : List ManagerCall := x.log.filterMap ApiEvent.call?

@[simp] theorem calls_pure {α : Type} (a : α) : calls (pure a) = [] := rfl

@[simp] theorem calls_bind {α β : Type} (x : Traced ApiEvent α) (f : α → Traced ApiEvent β) :
    calls (x >>= f) = calls x ++ calls (f x.val) := List.filterMap_append

@[simp] theorem calls_emit_call (c : ManagerCall) : calls (emit [.call c]) = [c] := rfl

@[simp] theorem calls_emit_digit (value : UInt64) (c : UInt8) : calls (emit [.digit value c]) = [] := rfl

/-! ## One segment -/

/-- A computation that accepts just if `accepted`, with the value, and has no
effect. -/
structure Reads (x : Traced ApiEvent (Except CoAPResponse (Nat × UInt64))) (accepted : Prop) (i value : Nat) :
    Prop where
  noOverflow : x.All ApiEvent.NoOverflow
  noCalls : calls x = []
  ok : accepted → ∃ w, x.val = .ok (i, w) ∧ w.toNat = value
  error : ¬ accepted → ∃ response, x.val = .error response ∧ response.responseCode = BAD_REQUEST_RESPONSE_CODE

theorem isDigit_iff (c : UInt8) : IsDigit c ↔ ¬ (c < 0x30 ∨ c > 0x39) := by
  unfold IsDigit
  rw [gt_iff_lt, UInt8.lt_iff_toNat_lt, UInt8.lt_iff_toNat_lt, not_or, Nat.not_lt, Nat.not_lt]
  rfl

theorem toNat_next {value : UInt64} {c : UInt8} (hv : value.toNat < 2 ^ 32) (hc : IsDigit c) :
    (value * 10 + (c - 0x30).toUInt64).toNat = value.toNat * 10 + (c.toNat - 0x30) := by
  have hsub : (c - 0x30).toNat = c.toNat - 0x30 := UInt8.toNat_sub_of_le _ _ (UInt8.le_iff_toNat_le.mpr hc.1)
  have hle := hc.2
  rw [UInt64.toNat_add, UInt64.toNat_mul, UInt8.toNat_toUInt64, hsub]
  have h10 : (10 : UInt64).toNat = 10 := rfl
  rw [h10]
  omega

theorem digitLoop_reads (stopsAtSlash : Bool) (tooBig : CoAPResponse) {segment tail : List UInt8} (i : Nat)
    (value : UInt64) (hcode : tooBig.responseCode = BAD_REQUEST_RESPONSE_CODE) (hvalue : value.toNat < 2 ^ 32)
    (hslash : slash ∉ segment) (hfirst : i = 7 → segment ≠ []) (hi : 7 ≤ i)
    (htail : tail = [] ∨ stopsAtSlash = true ∧ ∃ t, tail = slash :: t) :
    Reads (digitLoop stopsAtSlash tooBig (segment ++ tail) i value)
      ((∀ c ∈ segment, IsDigit c) ∧ readDigits 10 value.toNat (digits segment) < 2 ^ 32)
      (i + segment.length) (readDigits 10 value.toNat (digits segment)) := by
  induction segment generalizing i value with
  | nil =>
    have hstop : digitLoop stopsAtSlash tooBig ([] ++ tail) i value = pure (.ok (i, value)) := by
      rcases htail with rfl | ⟨rfl, t, rfl⟩
      · rfl
      · have h7 : i ≠ 7 := fun h7 => hfirst h7 rfl
        simp [digitLoop, h7]
    rw [hstop]
    exact ⟨all_pure _, rfl, fun _ => ⟨value, rfl, rfl⟩, fun hno => absurd ⟨by simp, hvalue⟩ hno⟩
  | cons c segment ih =>
    obtain ⟨hc, hslash⟩ := not_or.mp (mt List.mem_cons.mpr hslash)
    have hgo : ¬ (stopsAtSlash = true ∧ c = slash) := fun h => hc h.2.symm
    rw [List.cons_append, digitLoop, if_neg hgo]
    by_cases hdigit : IsDigit c
    · rw [if_neg ((isDigit_iff c).mp hdigit)]
      have hnext := toNat_next hvalue hdigit
      have hread : readDigits 10 value.toNat (digits (c :: segment)) =
          readDigits 10 (value * 10 + (c - 0x30).toUInt64).toNat (digits segment) := by rw [hnext]; rfl
      have hsafe : (emit [.digit value c] : Traced ApiEvent Unit).All ApiEvent.NoOverflow := by
        rw [all_emit_singleton]
        have hle := hdigit.2
        show value.toNat * 10 + (c.toNat - 0x30) < 2 ^ 64
        omega
      have hbig : value * 10 + (c - 0x30).toUInt64 > 0xFFFFFFFF ↔
          ¬ (value * 10 + (c - 0x30).toUInt64).toNat < 2 ^ 32 := by
        rw [gt_iff_lt, UInt64.lt_iff_toNat_lt, show (0xFFFFFFFF : UInt64).toNat = 0xFFFFFFFF from rfl]
        omega
      rw [hread]
      by_cases hfits : (value * 10 + (c - 0x30).toUInt64).toNat < 2 ^ 32
      · have hrest := ih (i + 1) _ hfits hslash (fun h => absurd h (by omega)) (by omega)
        have hsmall : ¬ value * 10 + (c - 0x30).toUInt64 > 0xFFFFFFFF := fun h => hbig.mp h hfits
        have haccepted : (∀ d ∈ c :: segment, IsDigit d) ↔ ∀ d ∈ segment, IsDigit d := by simp [hdigit]
        rw [haccepted, List.length_cons, show i + (segment.length + 1) = i + 1 + segment.length by omega]
        simp only [if_neg hsmall]
        exact ⟨all_bind hsafe hrest.noOverflow, by rw [calls_bind, hrest.noCalls]; rfl, hrest.ok, hrest.error⟩
      · -- the value never falls, so the number is too big as well
        simp only [if_pos (hbig.mpr hfits)]
        refine ⟨all_bind hsafe (all_pure _), rfl, fun hok => absurd ?_ hfits, fun _ => ⟨tooBig, rfl, hcode⟩⟩
        exact Nat.lt_of_le_of_lt (le_readDigits (by decide)) hok.2
    · rw [if_pos (not_not.mp (mt (isDigit_iff c).mpr hdigit))]
      refine ⟨all_pure _, rfl, fun hok => ?_, fun _ => ⟨badRequest, rfl, rfl⟩⟩
      exact absurd (hok.1 c List.mem_cons_self) hdigit

/-- From the start, the value is the decimal value. -/
theorem readDigits_decimal (segment : List UInt8) :
    readDigits 10 (0 : UInt64).toNat (digits segment) = decimal segment := readDigits_zero 10 (digits segment)

theorem isNumber_iff (segment : List UInt8) :
    IsNumber segment ↔ (∀ c ∈ segment, IsDigit c) ∧ decimal segment < 2 ^ 32 :=
  ⟨fun h => ⟨h.digits, h.lt⟩, fun h => ⟨h.1, h.2⟩⟩

/-- The loop over the first segment behind "/tasks/". -/
theorem digitLoop_id (stopsAtSlash : Bool) {path id tail : List UInt8} (hpath : cString path = tasks ++ (id ++ tail))
    (hslash : slash ∉ id) (hne : id ≠ []) (htail : tail = [] ∨ stopsAtSlash = true ∧ ∃ t, tail = slash :: t) :
    Reads (digitLoop stopsAtSlash taskIdTooBig ((cString path).drop 7) 7 0) (IsNumber id) (7 + id.length)
      (decimal id) := by
  have hdrop : (cString path).drop 7 = id ++ tail := by rw [hpath]; exact List.drop_left' rfl
  have hreads := digitLoop_reads stopsAtSlash taskIdTooBig 7 0 rfl (by decide) hslash (fun _ => hne) (Nat.le_refl 7)
    htail
  rwa [readDigits_decimal, ← isNumber_iff, ← hdrop] at hreads

theorem addressSegment_reads {path id address : List UInt8} (hpath : cString path = tasks ++ (id ++ (data ++ address)))
    (hslash : slash ∉ address) (hne : address ≠ []) :
    Reads (addressSegment path (7 + id.length)) (IsNumber address) (7 + id.length + 6 + address.length)
      (decimal address) := by
  have hsplit : cString path = (tasks ++ (id ++ data)) ++ address := by simp [hpath]
  have hskip : (tasks ++ (id ++ data)).length = 7 + id.length + 6 := by
    simp only [List.length_append]
    rw [show tasks.length = 7 from rfl, show data.length = 6 from rfl]
    omega
  have hdrop : (cString path).drop (7 + id.length + 6) = address ++ [] := by
    rw [hsplit, List.append_nil]
    exact List.drop_left' hskip
  have hlength : ¬ 7 + id.length + 6 ≥ (cString path).length := by
    have hpos := List.length_pos_iff.mpr hne
    rw [hsplit, List.length_append, hskip]
    omega
  have hreads := digitLoop_reads false addressTooBig (7 + id.length + 6) 0 rfl (by decide) hslash
    (fun h => absurd h (by omega)) (by omega) (.inl rfl)
  unfold addressSegment
  simp only [if_neg hlength]
  rwa [readDigits_decimal, ← isNumber_iff, ← hdrop] at hreads

/-! ## A whole request -/

section
variable {T : Nat}

/-- What a method does with the id and, if its path has one, the address. -/
def ApiMethod.act (method : ApiMethod) (m : Machine) (s : OsState T) (id address : UInt32) (payload : List UInt8) :
    Option (CoAPResponse × OsState T) :=
  match method with
  | taskPUT => create m s id
  | taskDELETE => remove s id
  | stateGET => some (readState s id, s)
  | statePUT => some (start m s id)
  | dataPUT => some (writeData s id address payload)

/-- The call a method makes to the task manager. -/
def ApiMethod.call : ApiMethod → UInt32 → ManagerCall
  | taskPUT, id => .createUserTask id
  | taskDELETE, id => .removeUserTask id
  | _, id => .getUserTask id

theorem ApiMethod.id_call (method : ApiMethod) (id : UInt32) : (method.call id).id = id := by
  cases method <;> rfl

/-- The checks a method makes before it parses. -/
def ApiMethod.Checked : ApiMethod → ContentFormat → List UInt8 → Prop
  | statePUT, contentFormat, payload => contentFormat = .textPlainCharsetUTF8 ∧ payload = running
  | dataPUT, contentFormat, _ => contentFormat = .applicationOctetStream
  | _, _, _ => True

structure ApiRequest where
  method : ApiMethod
  path : List UInt8
  contentFormat : ContentFormat
  payload : List UInt8

def ApiRequest.handle (r : ApiRequest) (m : Machine) (s : OsState T) : Handled T :=
  r.method.handle m s r.path r.contentFormat r.payload

/-- The path matches the method's pattern, with these segments: the id, and the
address if there is one. -/
structure ApiRequest.Valid (r : ApiRequest) (segments : List (List UInt8)) : Prop where
  fits : (cString r.path).length ≤ MAX_COAP_PATH_SIZE
  captures : Captures slash caret r.method.pattern (cString r.path) segments
  nonempty : ∀ segment ∈ segments, segment ≠ []
  checked : r.method.Checked r.contentFormat r.payload

/-- The handler acts on the numbers in the path, or refuses it. -/
structure ParsesExactly (r : ApiRequest) (segments : List (List UInt8)) (m : Machine) (s : OsState T) : Prop where
  noOverflow : (r.handle m s).All ApiEvent.NoOverflow
  acts : (∀ segment ∈ segments, IsNumber segment) → ∃ id address : UInt32,
    id.toNat = decimal (segments.getD 0 []) ∧ address.toNat = decimal (segments.getD 1 []) ∧
    calls (r.handle m s) = [r.method.call id] ∧ (r.handle m s).val = r.method.act m s id address r.payload
  refuses : (¬ ∀ segment ∈ segments, IsNumber segment) → calls (r.handle m s) = [] ∧
    ∃ response, (r.handle m s).val = some (response, s) ∧ response.responseCode = BAD_REQUEST_RESPONSE_CODE

theorem toNat_toUInt32 {w : UInt64} {segment : List UInt8} (hw : w.toNat = decimal segment) (h : IsNumber segment) :
    w.toUInt32.toNat = decimal segment := by
  rw [UInt64.toNat_toUInt32, hw]
  exact Nat.mod_eq_of_lt h.lt

/-- If the segment is refused, so is the request. -/
theorem withId_refused {s : OsState T} {x : Traced ApiEvent (Except CoAPResponse (Nat × UInt64))} {accepted : Prop}
    {i value : Nat} (hx : Reads x accepted i value) (hno : ¬ accepted) (act : Nat → UInt32 → Handled T) :
    (withId s x act).All ApiEvent.NoOverflow ∧ calls (withId s x act) = [] ∧
      ∃ response, (withId s x act).val = some (response, s) ∧ response.responseCode = BAD_REQUEST_RESPONSE_CODE := by
  obtain ⟨response, hval, hcode⟩ := hx.error hno
  unfold withId
  refine ⟨all_bind hx.noOverflow ?_, ?_, response, ?_, hcode⟩
  · rw [hval]
    exact all_pure _
  · rw [calls_bind, hx.noCalls, hval]
    rfl
  · rw [val_bind, hval]
    rfl

/-- If the segment is a number, the request is what `act` makes of it. -/
theorem withId_accepted {s : OsState T} {x : Traced ApiEvent (Except CoAPResponse (Nat × UInt64))}
    {segment : List UInt8} {i : Nat} (hx : Reads x (IsNumber segment) i (decimal segment)) (h : IsNumber segment)
    (act : Nat → UInt32 → Handled T) :
    ∃ id : UInt32, id.toNat = decimal segment ∧
      ((act i id).All ApiEvent.NoOverflow → (withId s x act).All ApiEvent.NoOverflow) ∧
      calls (withId s x act) = calls (act i id) ∧ (withId s x act).val = (act i id).val := by
  obtain ⟨w, hval, hw⟩ := hx.ok h
  refine ⟨w.toUInt32, toNat_toUInt32 hw h, ?_⟩
  unfold withId
  refine ⟨fun hact => all_bind hx.noOverflow ?_, ?_, ?_⟩
  · rw [hval]
    exact hact
  · rw [calls_bind, hx.noCalls, hval]
    rfl
  · rw [val_bind, hval]

/-! ## The patterns -/

theorem caret_notMem_tasks : caret ∉ tasks := by decide
theorem caret_notMem_state : caret ∉ state := by decide
theorem caret_notMem_data : caret ∉ data := by decide

/-- The segments of /tasks/{id} followed by `p`. -/
theorem captures_tasks {p path : List UInt8} {segments : List (List UInt8)}
    (h : Captures slash caret (tasks ++ caret :: p) path segments) : ∃ id t rest, path = tasks ++ (id ++ t) ∧
      segments = id :: rest ∧ slash ∉ id ∧ Captures slash caret p t rest := by
  obtain ⟨u, rfl, hu⟩ := (captures_literal caret_notMem_tasks).mp h
  obtain ⟨id, t, rest, rfl, rfl, hslash, ht⟩ := captures_star.mp hu
  exact ⟨id, t, rest, rfl, rfl, hslash, ht⟩

theorem captures_state {t : List UInt8} {segments : List (List UInt8)} (h : Captures slash caret state t segments) :
    t = state ∧ segments = [] := by
  rw [← List.append_nil state] at h
  obtain ⟨u, rfl, hu⟩ := (captures_literal caret_notMem_state).mp h
  obtain ⟨rfl, rfl⟩ := captures_nil.mp hu
  exact ⟨List.append_nil state, rfl⟩

theorem captures_data {t : List UInt8} {segments : List (List UInt8)}
    (h : Captures slash caret (data ++ [caret]) t segments) : ∃ address, t = data ++ address ∧ segments = [address] ∧
      slash ∉ address := by
  obtain ⟨u, rfl, hu⟩ := (captures_literal caret_notMem_data).mp h
  obtain ⟨address, t, rest, rfl, rfl, hslash, ht⟩ := captures_star.mp hu
  obtain ⟨rfl, rfl⟩ := captures_nil.mp ht
  exact ⟨address, by rw [List.append_nil], rfl, hslash⟩

/-! ## The methods -/

section
variable {r : ApiRequest} {m : Machine} {s : OsState T} {segment : List UInt8} {segments : List (List UInt8)}

/-- A method that reads one segment and acts on it. -/
theorem parsesExactly_id {x : Traced ApiEvent (Except CoAPResponse (Nat × UInt64))} {i : Nat}
    (hx : Reads x (IsNumber segment) i (decimal segment))
    (hhandle : r.handle m s = withId s x fun _ id => do
      emit [.call (r.method.call id)]
      return r.method.act m s id 0 r.payload) : ParsesExactly r [segment] m s := by
  by_cases h : IsNumber segment
  · obtain ⟨id, hid, hsafe, hcalls, hval⟩ := withId_accepted (s := s) hx h fun _ id => do
      emit [.call (r.method.call id)]
      return r.method.act m s id 0 r.payload
    rw [← hhandle] at hsafe hcalls hval
    have hall : (r.handle m s).All ApiEvent.NoOverflow := hsafe (all_bind (all_emit_singleton.mpr trivial) (all_pure _))
    exact ⟨hall, fun _ => ⟨id, 0, hid, rfl, hcalls, hval⟩, fun hno => absurd (by simpa using h) hno⟩
  · obtain ⟨hsafe, hcalls, hval⟩ := withId_refused (s := s) hx h fun _ id => do
      emit [.call (r.method.call id)]
      return r.method.act m s id 0 r.payload
    rw [← hhandle] at hsafe hcalls hval
    exact ⟨hsafe, fun hall => absurd (hall segment List.mem_cons_self) h, fun _ => ⟨hcalls, hval⟩⟩

/-- Behind the id, `dataPUT` reads the address. -/
theorem parsesExactly_data {id address : List UInt8} (hmethod : r.method = .dataPUT)
    (hformat : r.contentFormat = .applicationOctetStream)
    (hpath : cString r.path = tasks ++ (id ++ (data ++ address))) (hid : slash ∉ id) (haddress : slash ∉ address)
    (hid0 : id ≠ []) (haddress0 : address ≠ []) : ParsesExactly r [id, address] m s := by
  obtain ⟨method, path, contentFormat, payload⟩ := r
  cases hmethod
  have hreadsId : Reads (taskIdSegment path) (IsNumber id) (7 + id.length) (decimal id) :=
    digitLoop_id true hpath hid hid0 (.inr ⟨rfl, _, rfl⟩)
  have hreadsAddress := addressSegment_reads hpath haddress haddress0
  let write (taskId : UInt32) (_ : Nat) (a : UInt32) : Handled T := do
    emit [.call (.getUserTask taskId)]
    return some (writeData s taskId a payload)
  have hhandle : (⟨.dataPUT, path, contentFormat, payload⟩ : ApiRequest).handle m s = withId s (taskIdSegment path)
      fun i taskId => withId s (addressSegment path i) (write taskId) := if_neg (not_not.mpr hformat)
  by_cases hidNumber : IsNumber id
  · obtain ⟨taskId, htaskId, hsafe, hcalls, hval⟩ := withId_accepted (s := s) hreadsId hidNumber
      fun i taskId => withId s (addressSegment path i) (write taskId)
    rw [← hhandle] at hsafe hcalls hval
    by_cases haddressNumber : IsNumber address
    · obtain ⟨a, ha, hsafe', hcalls', hval'⟩ := withId_accepted (s := s) hreadsAddress haddressNumber (write taskId)
      refine ⟨hsafe (hsafe' (all_bind (all_emit_singleton.mpr trivial) (all_pure _))), fun _ => ?_, fun hno => ?_⟩
      · exact ⟨taskId, a, htaskId, ha, hcalls.trans hcalls', hval.trans hval'⟩
      · exact absurd (by simp [hidNumber, haddressNumber]) hno
    · obtain ⟨hsafe', hcalls', response, hval', hcode⟩ :=
        withId_refused (s := s) hreadsAddress haddressNumber (write taskId)
      refine ⟨hsafe hsafe', fun hall => absurd (hall address (by simp)) haddressNumber, fun _ => ?_⟩
      exact ⟨hcalls.trans hcalls', response, hval.trans hval', hcode⟩
  · obtain ⟨hsafe, hcalls, hval⟩ := withId_refused (s := s) hreadsId hidNumber
      fun i taskId => withId s (addressSegment path i) (write taskId)
    rw [← hhandle] at hsafe hcalls hval
    exact ⟨hsafe, fun hall => absurd (hall id List.mem_cons_self) hidNumber, fun _ => ⟨hcalls, hval⟩⟩

theorem parsesExactly (h : r.Valid segments) : ParsesExactly r segments m s := by
  obtain ⟨method, path, contentFormat, payload⟩ := r
  obtain ⟨-, hcaptures, hne, hchecked⟩ := h
  cases method with
  | taskPUT =>
    obtain ⟨id, t, rest, hpath, rfl, hslash, ht⟩ := captures_tasks hcaptures
    obtain ⟨rfl, rfl⟩ := captures_nil.mp ht
    exact parsesExactly_id (digitLoop_id false hpath hslash (hne id List.mem_cons_self) (.inl rfl)) rfl
  | taskDELETE =>
    obtain ⟨id, t, rest, hpath, rfl, hslash, ht⟩ := captures_tasks hcaptures
    obtain ⟨rfl, rfl⟩ := captures_nil.mp ht
    exact parsesExactly_id (digitLoop_id false hpath hslash (hne id List.mem_cons_self) (.inl rfl)) rfl
  | stateGET =>
    obtain ⟨id, t, rest, hpath, rfl, hslash, ht⟩ := captures_tasks hcaptures
    obtain ⟨rfl, rfl⟩ := captures_state ht
    exact parsesExactly_id (digitLoop_id true hpath hslash (hne id List.mem_cons_self) (.inr ⟨rfl, _, rfl⟩)) rfl
  | statePUT =>
    obtain ⟨id, t, rest, hpath, rfl, hslash, ht⟩ := captures_tasks hcaptures
    obtain ⟨rfl, rfl⟩ := captures_state ht
    obtain ⟨hformat, hpayload⟩ := hchecked
    have hhandle : (⟨.statePUT, path, contentFormat, payload⟩ : ApiRequest).handle m s =
        withId s (taskIdSegment path) fun _ id => do
          emit [.call (.getUserTask id)]
          return some (start m s id) := by
      refine (if_neg (not_not.mpr hformat)).trans (if_neg ?_)
      rw [hpayload]
      decide
    exact parsesExactly_id (digitLoop_id true hpath hslash (hne id List.mem_cons_self) (.inr ⟨rfl, _, rfl⟩)) hhandle
  | dataPUT =>
    obtain ⟨id, t, rest, hpath, rfl, hslash, ht⟩ := captures_tasks hcaptures
    obtain ⟨address, rfl, rfl, haddress⟩ := captures_data ht
    exact parsesExactly_data rfl hchecked hpath hslash haddress (hne id List.mem_cons_self) (hne address (by simp))

/-- A request acts on one task: the one with the number in its first segment. -/
theorem ParsesExactly.selects (h : ParsesExactly r segments m s) (hnumbers : ∀ segment ∈ segments, IsNumber segment) :
    ∃ id : UInt32, id.toNat = decimal (segments.getD 0 []) ∧ (calls (r.handle m s)).map ManagerCall.id = [id] := by
  obtain ⟨id, _, hid, _, hcalls, _⟩ := h.acts hnumbers
  refine ⟨id, hid, ?_⟩
  rw [hcalls, List.map_singleton, r.method.id_call]

/-- Every method acts on exactly the numbers in its path and refuses everything
else, and two requests with the same id segment select the same task. -/
theorem identifiers_parsed_alike (r r' : ApiRequest) (segments segments' : List (List UInt8)) (m m' : Machine)
    (s s' : OsState T) (h : r.Valid segments) (h' : r'.Valid segments') :
    ParsesExactly r segments m s ∧
    (segments'.getD 0 [] = segments.getD 0 [] → (∀ segment ∈ segments, IsNumber segment) →
      (∀ segment ∈ segments', IsNumber segment) →
      (calls (r'.handle m' s')).map ManagerCall.id = (calls (r.handle m s)).map ManagerCall.id) := by
  refine ⟨parsesExactly h, fun hsame hnumbers hnumbers' => ?_⟩
  obtain ⟨id, hid, hselects⟩ := (parsesExactly h).selects hnumbers
  obtain ⟨id', hid', hselects'⟩ := (parsesExactly h').selects hnumbers'
  have heq : id' = id := UInt32.toNat_inj.mp (by rw [hid, hid', hsame])
  rw [hselects, hselects', heq]

end

end

/-- PUT /tasks/7 -/
def putSeven : ApiRequest := ⟨.taskPUT, tasks ++ [0x37, 0], .textPlainCharsetUTF8, []⟩

/-- PUT /tasks/7/data/8 -/
def dataSeven : ApiRequest := ⟨.dataPUT, tasks ++ 0x37 :: (data ++ [0x38, 0]), .applicationOctetStream, []⟩

theorem slash_notMem_seven : slash ∉ [(0x37 : UInt8)] := by decide
theorem slash_notMem_eight : slash ∉ [(0x38 : UInt8)] := by decide

theorem putSeven_valid : putSeven.Valid [[0x37]] where
  fits := by decide
  captures := (captures_literal caret_notMem_tasks).mpr ⟨[0x37], rfl, .wild slash_notMem_seven .nil⟩
  nonempty := by decide
  checked := trivial

theorem dataSeven_valid : dataSeven.Valid [[0x37], [0x38]] where
  fits := by decide
  captures := (captures_literal caret_notMem_tasks).mpr ⟨0x37 :: (data ++ [0x38]), rfl, .wild slash_notMem_seven
    ((captures_literal caret_notMem_data).mpr ⟨[0x38], rfl, .wild slash_notMem_eight .nil⟩)⟩
  nonempty := by decide
  checked := rfl

theorem isNumber_digit {c : UInt8} (h : IsDigit c) : IsNumber [c] := by
  refine ⟨fun d hd => ?_, ?_⟩
  · rwa [List.mem_singleton.mp hd]
  · have hle := h.2
    simp only [decimal, digits, List.map_cons, List.map_nil, List.reverse_singleton, Nat.ofDigits_singleton]
    omega

theorem identifiers_parsed_alike_seven : (calls (dataSeven.handle sampleMachine bootedState)).map ManagerCall.id =
    (calls (putSeven.handle sampleMachine bootedState)).map ManagerCall.id := by
  refine (identifiers_parsed_alike putSeven dataSeven _ _ sampleMachine sampleMachine bootedState bootedState
    putSeven_valid dataSeven_valid).2 rfl ?_ ?_
  · intro segment hsegment
    rw [List.mem_singleton.mp hsegment]
    exact isNumber_digit (by decide)
  · intro segment hsegment
    rcases List.mem_pair.mp hsegment with rfl | rfl
    · exact isNumber_digit (by decide)
    · exact isNumber_digit (by decide)

end CpuScheduler.L8
