import CpuScheduler.L6Server.PathRegistry

/-!
# Which registered path a request is for

A request should go to the path that was registered last among those whose
pattern the request's path matches, and get 4.04 if there is none. A path
element may contain the zero that ends the path, and then the filter takes it
for the end: `dispatch_exact_iff` says for which registrations and paths the
dispatch is as it should be, in particular for all paths without zeros.
-/
namespace CpuScheduler.L6

open Wildcard L3

/-! ## The first of a list -/

section
variable {α : Type} {P Q : α → Prop} {l : List α} {x : α}

/-- `x` is the first element with `P`. -/
def IsFirst (P : α → Prop) (l : List α) (x : α) : Prop := ∃ as bs, l = as ++ x :: bs ∧ P x ∧ ∀ y ∈ as, ¬ P y

/-- Every element with `Q` has one with `P` in front of it or is one itself. -/
def Precedes (P Q : α → Prop) (l : List α) : Prop :=
  ∀ as x bs, l = as ++ x :: bs → Q x → P x ∨ ∃ y ∈ as, P y

theorem IsFirst.mem (h : IsFirst P l x) : x ∈ l := by
  obtain ⟨as, bs, hl, _⟩ := h
  simp [hl]

theorem IsFirst.holds (h : IsFirst P l x) : P x := by
  obtain ⟨as, bs, _, hx, _⟩ := h
  exact hx

theorem IsFirst.append (h : IsFirst P l x) (rest : List α) : IsFirst P (l ++ rest) x := by
  obtain ⟨as, bs, hl, hx, has⟩ := h
  exact ⟨as, bs ++ rest, by simp [hl], hx, has⟩

theorem exists_isFirst (hx : x ∈ l) (hP : P x) : ∃ y, IsFirst P l y := by
  induction l with
  | nil => cases hx
  | cons y ys ih =>
    by_cases hy : P y
    · exact ⟨y, [], ys, rfl, hy, by simp⟩
    · have hne : x ≠ y := fun heq => hy (heq ▸ hP)
      obtain ⟨z, as, bs, hl, hz, has⟩ := ih ((List.mem_cons.mp hx).resolve_left hne)
      refine ⟨z, y :: as, bs, by simp [hl], hz, fun w hw => ?_⟩
      cases hw with
      | head => exact hy
      | tail _ hw => exact has w hw

theorem find?_eq_some_iff_isFirst {f : α → Bool} : l.find? f = some x ↔ IsFirst (fun y => f y = true) l x := by
  rw [List.find?_eq_some_iff_append]
  simp [IsFirst, and_left_comm]

theorem IsFirst.of_precedes (h : IsFirst Q l x) (hPQ : Precedes P Q l) (hQP : Precedes Q P l) : IsFirst P l x := by
  obtain ⟨as, bs, hl, hx, has⟩ := h
  have hnone : ∀ y ∈ as, ¬ P y := by
    intro y hy hPy
    obtain ⟨cs, ds, rfl⟩ := List.append_of_mem hy
    rcases hQP cs y (ds ++ x :: bs) (by simp [hl]) hPy with hQy | ⟨z, hz, hQz⟩
    · exact has y hy hQy
    · exact has z (List.mem_append_left _ hz) hQz
  refine ⟨as, bs, hl, ?_, hnone⟩
  rcases hPQ as x bs hl hx with hPx | ⟨y, hy, hPy⟩
  · exact hPx
  · exact absurd hPy (hnone y hy)

theorem precedes_of_isFirst (h : ∀ x, IsFirst Q l x → IsFirst P l x) : Precedes P Q l := by
  intro as x bs hl hx
  obtain ⟨y, hy⟩ := exists_isFirst (l := as ++ [x]) (by simp) hx
  have hfirst : IsFirst Q l y := by
    rw [hl, List.append_cons]
    exact hy.append bs
  rcases List.mem_append.mp hy.mem with hmem | hmem
  · exact .inr ⟨y, hmem, (h y hfirst).holds⟩
  · left
    rw [← List.mem_singleton.mp hmem]
    exact (h y hfirst).holds

/-- The first of two kinds is the same if and only if each kind comes no later
than the other. -/
theorem isFirst_iff_iff : (∀ x, IsFirst Q l x ↔ IsFirst P l x) ↔ Precedes P Q l ∧ Precedes Q P l := by
  constructor
  · intro h
    exact ⟨precedes_of_isFirst fun x => (h x).mp, precedes_of_isFirst fun x => (h x).mpr⟩
  · rintro ⟨hPQ, hQP⟩ x
    exact ⟨fun h => h.of_precedes hPQ hQP, fun h => h.of_precedes hQP hPQ⟩

end

/-! ## The condition -/

/-- The registration matches the path. -/
def Registration.Fits (path : List UInt8) (r : Registration) : Prop := Matches slash caret r.1 path

/-- The zeros in the path do no harm: no '/' comes after one unless no pattern
matches anyway, and a pattern that is left because of zeros at the end comes
behind one that matches. -/
structure ZerosHarmless (rs : List Registration) (path : List UInt8) : Prop where
  slash : SlashAfterZero path → ∀ r ∈ rs, ¬ r.Fits path
  zeroEnd : ∀ as r bs, rs = as ++ r :: bs → ZeroEnd r.1 path → ∃ r' ∈ as, r'.Fits path

section
variable {rs : List Registration} {path : List UInt8}

theorem zerosHarmless_of_zero_notMem (rs : List Registration) (h0 : 0 ∉ path) : ZerosHarmless rs path := by
  refine ⟨fun hslash => ?_, fun _ r _ _ hend => absurd hend.zero h0⟩
  have hdrop : path.dropWhile (fun c => c ≠ 0) = [] := List.dropWhile_eq_nil_iff.mpr (ne_zero_of_notMem h0)
  rw [SlashAfterZero, hdrop] at hslash
  exact absurd hslash List.not_mem_nil

/-- The first pattern that is left is the first that matches. -/
theorem first_accepts_iff (hseg : ∀ r ∈ rs, Segmented slash caret r.1) (hzero : ∀ r ∈ rs, 0 ∉ r.1) :
    (∀ r, (rs.find? fun r => accepts r.1 path) = some r ↔ IsFirst (Registration.Fits path) rs r) ↔
      ZerosHarmless rs path := by
  have haccepts : ∀ r ∈ rs, accepts r.1 path = true ↔ r.Fits path ∧ ¬ SlashAfterZero path ∨ ZeroEnd r.1 path :=
    fun r hr => accepts_iff (hseg r hr) (hzero r hr)
  have hend : ∀ r ∈ rs, ZeroEnd r.1 path → ¬ r.Fits path ∧ ¬ SlashAfterZero path :=
    fun r hr h => h.not_matches (hseg r hr) (hzero r hr)
  simp only [find?_eq_some_iff_isFirst]
  rw [isFirst_iff_iff]
  constructor
  · rintro ⟨hPQ, hQP⟩
    constructor
    case slash =>
      intro hslash r hr hfits
      have hnone : ∀ r' ∈ rs, ¬ accepts r'.1 path = true := by
        intro r' hr' h
        rcases (haccepts r' hr').mp h with ⟨_, hno⟩ | hz
        · exact hno hslash
        · exact (hend r' hr' hz).2 hslash
      obtain ⟨as, bs, hsplit⟩ := List.append_of_mem hr
      rcases hQP as r bs hsplit hfits with h | ⟨r', hr', h⟩
      · exact hnone r hr h
      · exact hnone r' (by simp [hsplit, hr']) h
    case zeroEnd =>
      intro as r bs hsplit hz
      have hr : r ∈ rs := by simp [hsplit]
      exact (hPQ as r bs hsplit ((haccepts r hr).mpr (.inr hz))).resolve_left (hend r hr hz).1
  · intro h
    constructor
    · intro as r bs hsplit hr
      rcases (haccepts r (by simp [hsplit])).mp hr with ⟨hfits, _⟩ | hz
      · exact .inl hfits
      · exact .inr (h.zeroEnd as r bs hsplit hz)
    · intro as r bs hsplit hfits
      have hr : r ∈ rs := by simp [hsplit]
      exact .inl ((haccepts r hr).mpr (.inl ⟨hfits, fun hslash => h.slash hslash r hr hfits⟩))

end

/-! ## The dispatch -/

namespace CoAPServer

/-- The element whose handler is called, if there is room for a response.
mirrors coap_server.cpp:356, 410 -/
def chosen (server : CoAPServer) (links : List PathIndex) (udpPayloadSize : Nat) (udpPayload : Nat → UInt8)
    (path : Bytes) : Option PathIndex :=
  match (readHeader udpPayload udpPayloadSize).val with
  | none => none
  | some h =>
    match (optionLoop links udpPayload udpPayloadSize (udpPayloadSize + 1) (4 + h.tokenLength) 0
        (server.pathState path)).val with
    | .done _ s => (finishPath s).val.possibleValidPaths.head?
    | _ => none

/-- There is room for a response without a payload.
mirrors coap_server.cpp:362-366 -/
def HasRoomForCode (server : CoAPServer) (tokenLength : Nat) : Prop :=
  optionsOffset tokenLength ≤ WRITE_BUFFER_SIZE - server.attemptWriteBufferSwap.1.currentlyWrittenToWriteBufferDataLen

/-- The code of the response that the server `after` has to the request that
`server` got. -/
def responseCode (server after : CoAPServer) : UInt8 :=
  after.writeBuffers (!server.attemptWriteBufferSwap.1.currentlySendingWritebuffer)
    (server.attemptWriteBufferSwap.1.currentlyWrittenToWriteBufferDataLen + SEND_BUFFER_HEADER_SIZE + UDP_HEADER_SIZE + 1)

end CoAPServer

/-- The method that is called is one of the path that was registered last among
those that match; without one the response is 4.04. -/
structure DispatchExact (server : CoAPServer) (rs : List Registration) (r : Request) (links : List PathIndex)
    (udpPayload : Nat → UInt8) (path : Bytes) : Prop where
  invoked : ∀ inv ∈ server.invocations links r.encode.length udpPayload path,
    IsFirst (Registration.Fits (requestPath r.options)) rs (server.pathListElements inv.handler).registration
  chosen : ∀ g, (server.chosen links r.encode.length udpPayload path).map
      (fun i => (server.pathListElements i).registration) = some g ↔
    IsFirst (Registration.Fits (requestPath r.options)) rs g
  notFound : (∀ g ∈ rs, ¬ g.Fits (requestPath r.options)) →
    server.invocations links r.encode.length udpPayload path = [] ∧
      ∀ sourceIP sourcePort, server.HasRoomForCode r.token.length → ∃ t calls,
        (server.handlePacketFromReceiveBuffer links sourceIP sourcePort r.encode.length udpPayload path).val =
          .finished t calls ∧ server.responseCode t = NOT_FOUND_RESPONSE_CODE

section
variable {udpPayload : Nat → UInt8} {udpPayloadSize : Nat} {server : CoAPServer}

/-- The code of the response is in the write buffer. -/
theorem writeResponse_code (sourceIP : UInt32) (sourcePort : UInt16) {h : Header} {offset : Nat} {s : PathState}
    {r : CoAPResponse} (hroom : requiredWritebufferSize h s.possibleValidPaths ≤
      WRITE_BUFFER_SIZE - server.currentlyWrittenToWriteBufferDataLen)
    (hcall : ∀ first buffer, ∃ buffer',
      (callHandler first udpPayload udpPayloadSize h offset s buffer).val = some (r, buffer')) :
    let w := (server.writeResponse sourceIP sourcePort udpPayload udpPayloadSize h offset s).val
    w.2 = true ∧ w.1.writeBuffers (!server.currentlySendingWritebuffer)
      (server.currentlyWrittenToWriteBufferDataLen + SEND_BUFFER_HEADER_SIZE + UDP_HEADER_SIZE + 1) =
        r.limited.responseCode := by
  unfold CoAPServer.writeResponse
  dsimp only
  rw [dif_neg (by omega)]
  simp only [Traced.val_bind]
  split
  · rename_i hnone
    obtain ⟨_, hsome⟩ := hcall server.currentlyWrittenToWriteBufferDataLen
      (storeHeader server.currentlyWrittenToWriteBufferDataLen sourceIP sourcePort h
        (server.writeBuffers (!server.currentlySendingWritebuffer))).val
    rw [hsome] at hnone
    cases hnone
  · rename_i response buffer hval
    obtain ⟨buffer', hsome⟩ := hcall server.currentlyWrittenToWriteBufferDataLen
      (storeHeader server.currentlyWrittenToWriteBufferDataLen sourceIP sourcePort h
        (server.writeBuffers (!server.currentlySendingWritebuffer))).val
    rw [hsome] at hval
    cases hval
    refine ⟨rfl, ?_⟩
    simp [storeSize, store, SEND_BUFFER_HEADER_SIZE, UDP_HEADER_SIZE]

theorem swapped_eq (server : CoAPServer) (s : PathState) :
    (server.swapped s).currentlySendingWritebuffer = server.attemptWriteBufferSwap.1.currentlySendingWritebuffer ∧
    (server.swapped s).currentlyWrittenToWriteBufferDataLen =
      server.attemptWriteBufferSwap.1.currentlyWrittenToWriteBufferDataLen := by
  unfold CoAPServer.swapped CoAPServer.attemptWriteBufferSwap
  dsimp only
  split <;> exact ⟨rfl, rfl⟩

theorem writeBuffers_swap (server : CoAPServer) : server.attemptWriteBufferSwap.1.writeBuffers = server.writeBuffers := by
  unfold CoAPServer.attemptWriteBufferSwap
  split <;> rfl

variable (udpPayload udpPayloadSize) in
/-- No path is left. -/
theorem respond_notFound {h : Header} {s : PathState} (hnone : (finishPath s).val.possibleValidPaths = [])
    (hroom : server.HasRoomForCode h.tokenLength) (sourceIP : UInt32) (sourcePort : UInt16) (offset : Nat) :
    ∃ t calls, (server.respond sourceIP sourcePort udpPayload udpPayloadSize h offset s).val = .finished t calls ∧
      server.responseCode t = NOT_FOUND_RESPONSE_CODE := by
  obtain ⟨hsending, hlen⟩ := swapped_eq server (finishPath s).val
  have hcall : ∀ first buffer, ∃ buffer', (callHandler first udpPayload udpPayloadSize h offset (finishPath s).val
      buffer).val = some (⟨NOT_FOUND_RESPONSE_CODE, 0, .textPlainCharsetUTF8⟩, buffer') := by
    intro first buffer
    rw [callHandler, hnone]
    exact ⟨buffer, rfl⟩
  have hrequired : requiredWritebufferSize h (finishPath s).val.possibleValidPaths ≤
      WRITE_BUFFER_SIZE - (server.swapped (finishPath s).val).currentlyWrittenToWriteBufferDataLen := by
    rw [hlen, requiredWritebufferSize, if_pos (.inl hnone)]
    exact hroom
  obtain ⟨hwritten, hcode⟩ := writeResponse_code sourceIP sourcePort hrequired hcall
  rw [hsending, hlen] at hcode
  have hval : ∃ calls, (server.respond sourceIP sourcePort udpPayload udpPayloadSize h offset s).val =
      .finished ((server.swapped (finishPath s).val).writeResponse sourceIP sourcePort udpPayload udpPayloadSize h offset
        (finishPath s).val).val.1.attemptWriteBufferSwap.1 calls := by
    unfold CoAPServer.respond
    simp only [Traced.val_bind, Traced.val_ite, Traced.val_pure]
    exact ⟨_, if_pos hwritten⟩
  obtain ⟨calls, hval⟩ := hval
  refine ⟨_, calls, hval, ?_⟩
  rw [CoAPServer.responseCode, writeBuffers_swap]
  exact hcode

variable {links : List PathIndex}

variable (links) in
/-- The variables at the end of the path of a request. -/
theorem request_candidates (hnd : server.used.Nodup) (r : Request)
    (hfit : (requestPath r.options).length ≤ MAX_COAP_PATH_SIZE) (hbytes : BytesAt udpPayload 0 r.encode) (path : Bytes) :
    ∃ h offset s, (readHeader udpPayload r.encode.length).val = some h ∧ h.tokenLength = r.token.length ∧
      (optionLoop links udpPayload r.encode.length (r.encode.length + 1) (4 + h.tokenLength) 0
        (server.pathState path)).val = .done offset s ∧
      (finishPath s).val.possibleValidPaths =
        server.used.filter fun i => accepts (server.pathListElements i).path (requestPath r.options) := by
  have hfit' : (uriPath r.options).length ≤ MAX_COAP_PATH_SIZE := by
    rw [requestPath_eq] at hfit
    split at hfit
    · rename_i hnil
      rw [hnil]
      exact Nat.zero_le _
    · exact hfit
  obtain ⟨h, offset, s, hread, _, hloop, hfollows, _, _⟩ :=
    request_follows links server r hfit' hbytes path
  have htoken : h.tokenLength = r.token.length := by
    have hsize : 4 + r.token.length ≤ r.encode.length := by
      simp only [Request.encode, Request.encodeHeader, List.length_append, List.length_cons, List.length_nil]
      omega
    obtain ⟨h', hread', htoken', _⟩ := readHeader_encode r (bytesAt_append.mp hbytes).1 hsize
    rw [hread] at hread'
    cases hread'
    exact htoken'
  refine ⟨h, offset, s, hread, htoken, hloop, ?_⟩
  have hfeed : feed [0] false (feed (requestPath r.options) true (server.used, server.pathListElements)) =
      feed (requestPath r.options ++ [0]) true (server.used, server.pathListElements) := by
    rw [feed_append]
    rfl
  have hcandidates := congrArg Prod.fst (finishPath_follows hfollows).1
  rw [hfeed] at hcandidates
  exact hcandidates.trans (tracks_feed hnd server.pathListElements slash _).list

variable (links) in
/-- The path that is chosen is the first whose pattern is left. -/
theorem chosen_eq (hnd : server.used.Nodup) (r : Request)
    (hfit : (requestPath r.options).length ≤ MAX_COAP_PATH_SIZE) (hbytes : BytesAt udpPayload 0 r.encode) (path : Bytes) :
    (server.chosen links r.encode.length udpPayload path).map (fun i => (server.pathListElements i).registration) =
      (server.used.map fun i => (server.pathListElements i).registration).find?
        fun g => accepts g.1 (requestPath r.options) := by
  obtain ⟨h, offset, s, hread, _, hloop, hpaths⟩ := request_candidates links hnd r hfit hbytes path
  rw [List.find?_map, CoAPServer.chosen, hread]
  dsimp only
  rw [hloop]
  dsimp only
  rw [hpaths, List.head?_filter]
  rfl

/-- A method is only called for the path that is chosen. -/
theorem chosen_of_invocation {path : Bytes} {inv : Invocation}
    (hinv : inv ∈ server.invocations links udpPayloadSize udpPayload path) :
    server.chosen links udpPayloadSize udpPayload path = some inv.handler := by
  unfold CoAPServer.invocations at hinv
  unfold CoAPServer.chosen
  cases hread : (readHeader udpPayload udpPayloadSize).val with
  | none =>
    rw [hread] at hinv
    cases hinv
  | some h =>
    rw [hread] at hinv
    dsimp only at hinv ⊢
    cases hloop : (optionLoop links udpPayload udpPayloadSize (udpPayloadSize + 1) (4 + h.tokenLength) 0
        (server.pathState path)).val with
    | outOfRounds =>
      rw [hloop] at hinv
      cases hinv
    | dropped s =>
      rw [hloop] at hinv
      cases hinv
    | done offset s =>
      rw [hloop] at hinv
      dsimp only at hinv ⊢
      split at hinv
      · unfold dispatch at hinv
        cases hpaths : (finishPath s).val.possibleValidPaths with
        | nil =>
          rw [hpaths] at hinv
          cases hinv
        | cons i is =>
          rw [hpaths] at hinv
          dsimp only at hinv
          split at hinv
          · obtain ⟨method, _, heq⟩ := List.mem_map.mp hinv
            rw [← heq]
            rfl
          · cases hinv
      · cases hinv

end

/-- After any run, a request is dispatched as it should be if and only if the
zeros in its path do no harm. -/
theorem dispatch_exact_iff {l t : PathLists} {events : List ServerEvent} (hinit : l.Constructed)
    (hrun : pathLTS.Run l events t) (hseg : ∀ g ∈ registered events, Segmented slash caret g.1) (r : Request)
    (hfit : (requestPath r.options).length ≤ MAX_COAP_PATH_SIZE) {udpPayload : Nat → UInt8}
    (hbytes : BytesAt udpPayload 0 r.encode) (links : List PathIndex) (path : Bytes) :
    DispatchExact t.server (registered events) r links udpPayload path ↔
      ZerosHarmless (registered events) (requestPath r.options) := by
  obtain ⟨hinv, hregistrations⟩ := run_registrations hinit hrun
  have hnd : t.server.used.Nodup := (List.nodup_append.mp hinv.nodup).1
  have hzero : ∀ g ∈ registered events, 0 ∉ g.1 := by
    intro g hg
    rw [← hregistrations] at hg
    obtain ⟨i, hi, rfl⟩ := List.mem_map.mp hg
    exact hinv.noZero i hi
  have hchosen := chosen_eq links hnd r hfit hbytes path
  rw [show t.server.used.map _ = registered events from hregistrations] at hchosen
  rw [← first_accepts_iff hseg hzero]
  constructor
  · intro h g
    rw [← hchosen]
    exact h.chosen g
  · intro hfirst
    have hinvoked : ∀ inv ∈ t.server.invocations links r.encode.length udpPayload path,
        IsFirst (Registration.Fits (requestPath r.options)) (registered events)
          (t.server.pathListElements inv.handler).registration := by
      intro inv hmem
      rw [chosen_of_invocation hmem] at hchosen
      exact (hfirst _).mp hchosen.symm
    refine ⟨hinvoked, fun g => by rw [hchosen]; exact hfirst g, fun hnone => ⟨?_, ?_⟩⟩
    · refine List.eq_nil_iff_forall_not_mem.mpr fun inv hmem => ?_
      exact hnone _ (hinvoked inv hmem).mem (hinvoked inv hmem).holds
    · intro sourceIP sourcePort hroom
      obtain ⟨h, offset, s, hread, htoken, hloop, hpaths⟩ := request_candidates links hnd r hfit hbytes path
      have hempty : (finishPath s).val.possibleValidPaths = [] := by
        rw [hpaths, List.filter_eq_nil_iff]
        intro i hi haccepts
        have hmem : (t.server.pathListElements i).registration ∈ registered events := by
          rw [← hregistrations]
          exact List.mem_map_of_mem hi
        obtain ⟨g, hg⟩ := exists_isFirst (P := fun g : Registration => accepts g.1 (requestPath r.options) = true)
          hmem haccepts
        have hfits := (hfirst g).mp (find?_eq_some_iff_isFirst.mpr hg)
        exact hnone g hfits.mem hfits.holds
      rw [← htoken] at hroom
      obtain ⟨t', calls, hval, hcode⟩ := respond_notFound udpPayload r.encode.length hempty hroom sourceIP
        sourcePort offset
      refine ⟨t', calls, ?_, hcode⟩
      unfold CoAPServer.handlePacketFromReceiveBuffer
      rw [Traced.val_bind, hread]
      dsimp only
      rw [Traced.val_bind, hloop]
      exact hval

/-! ## "/a" and a zero -/

def okHandler : CoAPHandler := fun _ _ _ _ => (⟨0x45, 0, .textPlainCharsetUTF8⟩, fun _ => 0)

def constructedLists : PathLists where
  server :=
    { pathListElements := fun _ => ⟨[], 0, okHandler, Nat.zero_le 100⟩
      used := []
      writeBuffers := fun _ _ => 0
      currentlySendingWritebuffer := true
      currentlySendingWritebufferIndicatorWhenFinished := 1
      currentlyWrittenToWriteBufferDataLen := 0
      dataLen_le := Nat.zero_le _ }
  unused := List.finRange MAX_NUM_COAP_PATHS

theorem constructed_constructedLists : constructedLists.Constructed := ⟨rfl, rfl, fun _ => rfl, rfl, rfl, rfl⟩

/-- "/a" with its terminating zero. -/
def registerA : List ServerEvent := [.setPathHandler [slash, 0x61, 0] okHandler]

def registeredLists : PathLists := constructedLists.setPathHandler [slash, 0x61, 0] okHandler

theorem run_registerA : pathLTS.Run constructedLists registerA registeredLists := .cons rfl (.nil _)

theorem registered_registerA : registered registerA = [([slash, 0x61], okHandler)] := rfl

theorem segmented_registerA : ∀ g ∈ registered registerA, Segmented slash caret g.1 := by
  intro g hg
  rw [registered_registerA, List.mem_singleton] at hg
  subst hg
  simp [Segmented, slash, caret]

theorem value_length {n : Nat} (h : n ≤ 2) : n ≤ 65535 := by omega

/-- A Uri-Path option with the value `value`. -/
def pathOption (value : List UInt8) (h : value.length ≤ 2) : RequestOption :=
  ⟨11, value, pathOption_number, value_length h⟩

theorem pathOption_ordered (value : List UInt8) (h : value.length ≤ 2) : Ordered 0 [pathOption value h] := by
  refine ⟨fun o _ => Nat.zero_le _, ?_⟩
  simp

theorem pathOption_known (value : List UInt8) (h : value.length ≤ 2) : ∀ o ∈ [pathOption value h], o.Known := by
  intro o ho h12
  rw [List.mem_singleton] at ho
  subst ho
  cases h12

/-- A GET request for one path element. -/
def getRequest (value : List UInt8) (h : value.length ≤ 2) : Request :=
  ⟨true, .get, 0, 0, [], [pathOption value h], [], Nat.zero_le 8, pathOption_ordered value h, pathOption_known value h⟩

/-- A request for "/a" and a zero is answered by the handler of "/a". -/
theorem zero_byte_dispatched : constructedLists.Constructed ∧ pathLTS.Run constructedLists registerA registeredLists ∧
    (∀ g ∈ registered registerA, Segmented slash caret g.1) ∧
    (requestPath (getRequest [0x61, 0] (Nat.le_refl 2)).options).length ≤ MAX_COAP_PATH_SIZE ∧
    ¬ DispatchExact registeredLists.server (registered registerA) (getRequest [0x61, 0] (Nat.le_refl 2)) []
      (fun k => (getRequest [0x61, 0] (Nat.le_refl 2)).encode.getD k 0) fun _ => 0 := by
  refine ⟨constructed_constructedLists, run_registerA, segmented_registerA, by decide, fun h => ?_⟩
  have hone : (registeredLists.server.invocations [] (getRequest [0x61, 0] (Nat.le_refl 2)).encode.length
      (fun k => (getRequest [0x61, 0] (Nat.le_refl 2)).encode.getD k 0) fun _ => 0).length = 1 := by
    decide +kernel
  obtain ⟨inv, hinv⟩ := List.length_eq_one_iff.mp hone
  have hfirst := h.invoked inv (by rw [hinv]; exact List.mem_singleton_self inv)
  have hpattern := segmented_registerA _ hfirst.mem
  have hfits := hfirst.holds
  have hmem := hfirst.mem
  rw [registered_registerA, List.mem_singleton] at hmem
  rw [hmem] at hfits hpattern
  obtain ⟨q, hq, _⟩ := (matches_iff hpattern slash_ne_caret).mp hfits
  have hnone : remainder slash caret [slash, 0x61] (requestPath (getRequest [0x61, 0] (Nat.le_refl 2)).options) = none := by
    decide
  rw [hnone] at hq
  cases hq

theorem dispatch_exact_iff_a : DispatchExact registeredLists.server (registered registerA)
    (getRequest [0x61] (Nat.le_succ 1)) [] (fun k => (getRequest [0x61] (Nat.le_succ 1)).encode.getD k 0) fun _ => 0 := by
  have hbytes : BytesAt (fun k => (getRequest [0x61] (Nat.le_succ 1)).encode.getD k 0) 0
      (getRequest [0x61] (Nat.le_succ 1)).encode := fun k _ => by rw [Nat.zero_add]
  exact (dispatch_exact_iff constructed_constructedLists run_registerA segmented_registerA _ (by decide) hbytes [] _).mpr
    (zerosHarmless_of_zero_notMem _ (by decide))

end CpuScheduler.L6
