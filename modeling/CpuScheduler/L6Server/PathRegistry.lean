import CpuScheduler.L6Server.PathFilter

/-!
# The registered paths

`setPathHandler` moves an element from the unused list to the front of the used
list, `removePathHandler` moves the first one with the path back, and a request
only changes the progress counters. So the used list is a list of patterns with
their handlers, the last one registered first: `registered` says which one, from
the calls alone, and `run_registrations` that the server has it after any run.
-/
namespace CpuScheduler.L6

open Wildcard L3

/-! ## Requests keep the paths -/

/-- A pattern and its handler. -/
abbrev Registration := List UInt8 × CoAPHandler

def CoAPPath.registration (p : CoAPPath) : Registration := (p.path, p.pHandler)

/-- Only progress counters differ. -/
def SamePaths (before after : PathIndex → CoAPPath) : Prop := ∀ i, (after i).registration = (before i).registration

theorem SamePaths.refl (elements : PathIndex → CoAPPath) : SamePaths elements elements := fun _ => rfl

theorem SamePaths.trans {a b c : PathIndex → CoAPPath} (hab : SamePaths a b) (hbc : SamePaths b c) : SamePaths a c :=
  fun i => (hbc i).trans (hab i)

theorem registration_accept (p : CoAPPath) (c : UInt8) (isFirstCharacter : Bool) :
    (p.accept c isFirstCharacter).2.registration = p.registration := by
  cases isFirstCharacter
  all_goals
    simp only [CoAPPath.accept]
    repeat' split
    all_goals rfl

theorem samePaths_trimList (c : UInt8) (isFirstCharacter : Bool) (candidates : List PathIndex)
    (elements : PathIndex → CoAPPath) :
    SamePaths elements (trimListBasedOnNewCharacter c isFirstCharacter candidates elements).2 := by
  induction candidates generalizing elements with
  | nil => exact .refl elements
  | cons i is ih =>
    have hfirst : SamePaths elements (Function.update elements i ((elements i).accept c isFirstCharacter).2) := by
      intro j
      by_cases hj : j = i
      · subst hj
        rw [Function.update_self, registration_accept]
      · rw [Function.update_of_ne hj]
    exact hfirst.trans (ih _)

theorem samePaths_trim (s : PathState) (c : UInt8) (isFirstCharacter : Bool) :
    SamePaths s.elements (s.trim c isFirstCharacter).elements :=
  samePaths_trimList c isFirstCharacter s.possibleValidPaths s.elements

section
variable {udpPayload : Nat → UInt8} {udpPayloadSize : Nat} {links : List PathIndex}

theorem samePaths_appendLoop (n i offset : Nat) (s : PathState) :
    SamePaths s.elements (appendLoop udpPayload n i offset s).val.elements := by
  induction n generalizing i offset s with
  | zero => exact .refl s.elements
  | succ n ih =>
    rw [appendLoop, Traced.val_ite]
    split
    · exact .refl s.elements
    · exact (samePaths_trim (writePath s i _).val _ false).trans (ih (i + 1) (offset + 1) _)

theorem samePaths_appendPath (o : CoAPOption) (s : PathState) :
    SamePaths s.elements (appendPath links udpPayload o s).val.elements := by
  have hstart : SamePaths s.elements (startSegment links o s).val.elements := by
    unfold startSegment
    rw [Traced.val_ite]
    split
    · rw [Traced.val_pure]
      split <;> exact .refl s.elements
    · exact samePaths_trim (writePath s s.pathSizeSoFar slash).val slash _
  exact hstart.trans (samePaths_appendLoop o.length _ o.value _)

theorem samePaths_applyOption {o : CoAPOption} {s t : PathState} (h : (applyOption links udpPayload o s).val = some t) :
    SamePaths s.elements t.elements := by
  unfold applyOption at h
  simp only [Traced.val_ite, Traced.val_bind, Traced.val_pure] at h
  split at h
  · cases h
    exact samePaths_appendPath o s
  · split at h
    · split at h
      · cases h
        exact .refl s.elements
      · split at h
        · obtain ⟨format, _, ht⟩ := Option.map_eq_some_iff.mp h
          subst ht
          exact .refl s.elements
        · cases h
    · cases h
      exact .refl s.elements

/-- The variables when the option loop ends. -/
def Parsed.state? : Parsed → Option PathState
  | .outOfRounds => none
  | .dropped s => some s
  | .done _ s => some s

theorem samePaths_optionLoop (rounds offset number : Nat) {s t : PathState}
    (h : (optionLoop links udpPayload udpPayloadSize rounds offset number s).val.state? = some t) :
    SamePaths s.elements t.elements := by
  induction rounds generalizing offset number s with
  | zero => cases h
  | succ rounds ih =>
    rw [optionLoop, Traced.val_ite] at h
    split at h
    · simp only [Traced.val_bind, Traced.val_ite] at h
      split at h
      · cases h
        exact .refl _
      · cases hread : (readOption udpPayload udpPayloadSize offset number).val with
        | none =>
          rw [hread] at h
          cases h
          exact .refl _
        | some o =>
          rw [hread] at h
          simp only [Traced.val_bind] at h
          cases happly : (applyOption links udpPayload o s).val with
          | none =>
            rw [happly] at h
            cases h
            exact .refl _
          | some u =>
            rw [happly] at h
            exact (samePaths_applyOption happly).trans (ih _ _ h)
    · cases h
      exact .refl _

theorem samePaths_finishPath (s : PathState) : SamePaths s.elements (finishPath s).val.elements := by
  have hroot : SamePaths s.elements (rootPath s).val.elements := by
    unfold rootPath
    rw [Traced.val_ite]
    split
    · exact samePaths_trim (writePath s 0 slash).val slash true
    · exact .refl s.elements
  exact hroot.trans (samePaths_trim (writePath (rootPath s).val _ 0).val 0 false)

end

theorem swap_keeps (server : CoAPServer) : server.attemptWriteBufferSwap.1.used = server.used ∧
    server.attemptWriteBufferSwap.1.pathListElements = server.pathListElements := by
  unfold CoAPServer.attemptWriteBufferSwap
  split <;> exact ⟨rfl, rfl⟩

section
variable (server : CoAPServer) (links : List PathIndex) (sourceIP : UInt32) (sourcePort : UInt16)
  (udpPayloadSize : Nat) (udpPayload : Nat → UInt8) (path : Bytes)

theorem writeResponse_keeps (h : Header) (offset : Nat) (s : PathState) :
    (server.writeResponse sourceIP sourcePort udpPayload udpPayloadSize h offset s).val.1.used = server.used ∧
    (server.writeResponse sourceIP sourcePort udpPayload udpPayloadSize h offset s).val.1.pathListElements =
      server.pathListElements := by
  unfold CoAPServer.writeResponse
  dsimp only
  split
  · exact ⟨rfl, rfl⟩
  · simp only [Traced.val_bind]
    split <;> exact ⟨rfl, rfl⟩

theorem respond_keeps (h : Header) (offset : Nat) (s : PathState) : ∃ t calls,
    (server.respond sourceIP sourcePort udpPayload udpPayloadSize h offset s).val = .finished t calls ∧
      t.used = server.used ∧ SamePaths s.elements t.pathListElements := by
  have hswap := swap_keeps { server with pathListElements := (finishPath s).val.elements }
  have hwrite := writeResponse_keeps (server.swapped (finishPath s).val) sourceIP sourcePort udpPayloadSize udpPayload h
    offset (finishPath s).val
  have hused := hwrite.1.trans hswap.1
  have helements := hwrite.2.trans hswap.2
  have hsame : SamePaths s.elements ((server.swapped (finishPath s).val).writeResponse sourceIP sourcePort udpPayload
      udpPayloadSize h offset (finishPath s).val).val.1.pathListElements := by
    rw [helements]
    exact samePaths_finishPath s
  unfold CoAPServer.respond
  simp only [Traced.val_bind, Traced.val_ite, Traced.val_pure]
  split
  · have hlast := swap_keeps ((server.swapped (finishPath s).val).writeResponse sourceIP sourcePort udpPayload
      udpPayloadSize h offset (finishPath s).val).val.1
    refine ⟨_, _, rfl, hlast.1.trans hused, ?_⟩
    rw [← hlast.2] at hsame
    exact hsame
  · exact ⟨_, _, rfl, hused, hsame⟩

/-- A request changes the progress counters only. -/
theorem handlePacket_keeps {t : CoAPServer} {calls : List SendCall}
    (h : (server.handlePacketFromReceiveBuffer links sourceIP sourcePort udpPayloadSize udpPayload path).val =
      .finished t calls) : t.used = server.used ∧ SamePaths server.pathListElements t.pathListElements := by
  unfold CoAPServer.handlePacketFromReceiveBuffer at h
  rw [Traced.val_bind] at h
  cases hread : (readHeader udpPayload udpPayloadSize).val with
  | none =>
    rw [hread] at h
    cases h
    exact ⟨rfl, .refl _⟩
  | some header =>
    rw [hread] at h
    dsimp only at h
    rw [Traced.val_bind] at h
    cases hloop : (optionLoop links udpPayload udpPayloadSize (udpPayloadSize + 1) (4 + header.tokenLength) 0
        (server.pathState path)).val with
    | outOfRounds =>
      rw [hloop] at h
      cases h
    | dropped s =>
      rw [hloop] at h
      cases h
      have hoptions := congrArg Parsed.state? hloop
      exact ⟨rfl, samePaths_optionLoop _ _ _ hoptions⟩
    | done offset s =>
      rw [hloop] at h
      have hoptions := congrArg Parsed.state? hloop
      obtain ⟨t', calls', hval, hused, hsame⟩ := respond_keeps server sourceIP sourcePort udpPayloadSize udpPayload
        header offset s
      rw [show _ = Handled.finished t' calls' from hval] at h
      cases h
      exact ⟨hused, (samePaths_optionLoop _ _ _ hoptions).trans hsame⟩

end

/-! ## Registering paths -/

/-- What `strlen` and `memCopy` see of a string. -/
def cString (string : List UInt8) : List UInt8 := string.takeWhile fun c => c ≠ 0

theorem zero_notMem_cString (string : List UInt8) : 0 ∉ cString string := by
  intro h0
  have hne := List.mem_takeWhile_imp h0
  simp at hne

/-- The server with the list of its unused elements. -/
structure PathLists where
  server : CoAPServer
  unused : List PathIndex

/-- The path of an element is the given one. mirrors coap_server.cpp:122-123 -/
def CoAPServer.holds (server : CoAPServer) (path : List UInt8) (i : PathIndex) : Bool :=
  decide ((server.pathListElements i).path = path)

namespace PathLists

/-- mirrors coap_server.cpp:88-110 -/
def setPathHandler (l : PathLists) (path : List UInt8) (pHandler : CoAPHandler) : PathLists :=
  if hfits : (cString path).length ≤ MAX_COAP_PATH_SIZE then
    match l.unused with
    | [] => l
    | i :: unused =>
      ⟨{ l.server with
          used := i :: l.server.used
          pathListElements := Function.update l.server.pathListElements i ⟨cString path, 0, pHandler, hfits⟩ }, unused⟩
  else l

/-- mirrors coap_server.cpp:112-137 -/
def removePathHandler (l : PathLists) (path : List UInt8) : PathLists :=
  if (cString path).length > MAX_COAP_PATH_SIZE then l
  else
    match l.server.used.find? (l.server.holds (cString path)) with
    | none => l
    | some i => ⟨{ l.server with used := l.server.used.eraseP (l.server.holds (cString path)) }, i :: l.unused⟩

/-- The server as it is constructed. mirrors coap_server.cpp:59-82 -/
structure Constructed (l : PathLists) : Prop where
  used : l.server.used = []
  unused : l.unused = List.finRange MAX_NUM_COAP_PATHS
  pathSize : ∀ i, (l.server.pathListElements i).path = []
  currentlySendingWritebuffer : l.server.currentlySendingWritebuffer = true
  indicator : l.server.currentlySendingWritebufferIndicatorWhenFinished = 1
  dataLen : l.server.currentlyWrittenToWriteBufferDataLen = 0

/-- The paths that are registered, the last one first. -/
def registrations (l : PathLists) : List Registration :=
  l.server.used.map fun i => (l.server.pathListElements i).registration

end PathLists

inductive ServerEvent where
  | setPathHandler (path : List UInt8) (pHandler : CoAPHandler)
  | removePathHandler (path : List UInt8)
  | handlePacket (links : List PathIndex) (sourceIP : UInt32) (sourcePort : UInt16) (udpPayloadSize : Nat)
      (udpPayload : Nat → UInt8) (path : Bytes)
  | bufferSent

/-- A request is handled from whatever the arrays hold; `bufferSent` is the
kernel's write to the indicator. -/
def pathStep (l : PathLists) : ServerEvent → PathLists → Prop
  | .setPathHandler path pHandler, t => t = l.setPathHandler path pHandler
  | .removePathHandler path, t => t = l.removePathHandler path
  | .handlePacket links sourceIP sourcePort udpPayloadSize udpPayload path, t => t.unused = l.unused ∧
    ∃ calls, (l.server.handlePacketFromReceiveBuffer links sourceIP sourcePort udpPayloadSize udpPayload path).val =
      .finished t.server calls
  | .bufferSent, t => t = ⟨{ l.server with currentlySendingWritebufferIndicatorWhenFinished := 1 }, l.unused⟩

def pathLTS : LTS PathLists ServerEvent where
  init := PathLists.Constructed
  step := pathStep

/-! ## What the calls say -/

/-- The registrations after one more call. -/
def ServerEvent.register : ServerEvent → List Registration → List Registration
  | .setPathHandler path pHandler, rs =>
    if (cString path).length ≤ MAX_COAP_PATH_SIZE ∧ rs.length < MAX_NUM_COAP_PATHS then (cString path, pHandler) :: rs
    else rs
  | .removePathHandler path, rs => rs.eraseP fun r => decide (r.1 = cString path)
  | .handlePacket .., rs => rs
  | .bufferSent, rs => rs

/-- The registrations after some calls. -/
def registered (events : List ServerEvent) : List Registration :=
  events.foldl (fun rs event => event.register rs) []

/-- Every element is in one of the lists, and paths end before their zero. -/
structure PathsInv (l : PathLists) : Prop where
  nodup : (l.server.used ++ l.unused).Nodup
  length : (l.server.used ++ l.unused).length = MAX_NUM_COAP_PATHS
  noZero : ∀ i ∈ l.server.used, 0 ∉ (l.server.pathListElements i).path

section
variable {l t : PathLists}

theorem length_registrations (l : PathLists) : l.registrations.length = l.server.used.length := List.length_map _

theorem PathsInv.constructed (h : l.Constructed) : PathsInv l ∧ l.registrations = [] := by
  refine ⟨⟨?_, ?_, ?_⟩, ?_⟩
  · rw [h.used, h.unused]
    exact List.nodup_finRange _
  · rw [h.used, h.unused]
    exact List.length_finRange
  · rw [h.used]
    exact fun _ hi => absurd hi List.not_mem_nil
  · rw [PathLists.registrations, h.used]
    rfl

/-- The lists are the same and so are the paths. -/
theorem PathsInv.same (h : PathsInv l) (hunused : t.unused = l.unused) (hused : t.server.used = l.server.used)
    (hsame : SamePaths l.server.pathListElements t.server.pathListElements) :
    PathsInv t ∧ t.registrations = l.registrations := by
  refine ⟨⟨?_, ?_, fun i hi => ?_⟩, ?_⟩
  · rw [hused, hunused]
    exact h.nodup
  · rw [hused, hunused]
    exact h.length
  · rw [hused] at hi
    have hpath : (t.server.pathListElements i).path = (l.server.pathListElements i).path := congrArg Prod.fst (hsame i)
    rw [hpath]
    exact h.noZero i hi
  · rw [PathLists.registrations, hused]
    exact List.map_congr_left fun i _ => hsame i

theorem PathsInv.setPathHandler (h : PathsInv l) (path : List UInt8) (pHandler : CoAPHandler) :
    PathsInv (l.setPathHandler path pHandler) ∧
      (l.setPathHandler path pHandler).registrations =
        (ServerEvent.setPathHandler path pHandler).register l.registrations := by
  have hlength := h.length
  have hnd := h.nodup
  rw [List.length_append] at hlength
  unfold PathLists.setPathHandler ServerEvent.register
  dsimp only
  rw [length_registrations]
  by_cases hfits : (cString path).length ≤ MAX_COAP_PATH_SIZE
  · rw [dif_pos hfits]
    cases hunused : l.unused with
    | nil =>
      rw [hunused, List.length_nil] at hlength
      rw [if_neg (by omega)]
      exact ⟨h, rfl⟩
    | cons i unused =>
      rw [hunused, List.length_cons] at hlength
      rw [hunused] at hnd
      have hi : i ∉ l.server.used := fun hmem => (List.nodup_append.mp hnd).2.2 i hmem i List.mem_cons_self rfl
      have hother : ∀ j ∈ l.server.used, Function.update l.server.pathListElements i ⟨cString path, 0, pHandler, hfits⟩ j =
          l.server.pathListElements j := fun j hj => Function.update_of_ne (ne_of_mem_of_not_mem hj hi) ..
      rw [if_pos ⟨hfits, by omega⟩]
      refine ⟨⟨?_, ?_, ?_⟩, ?_⟩
      · exact List.nodup_middle.mp hnd
      · rw [List.length_append, List.length_cons]
        show l.server.used.length + 1 + unused.length = _
        omega
      · intro j hj
        dsimp only
        rcases List.mem_cons.mp hj with rfl | hj
        · rw [Function.update_self]
          exact zero_notMem_cString path
        · rw [hother j hj]
          exact h.noZero j hj
      · unfold PathLists.registrations
        dsimp only
        rw [List.map_cons, Function.update_self]
        congr 1
        exact List.map_congr_left fun j hj => by rw [hother j hj]
  · rw [dif_neg hfits, if_neg fun hc => hfits hc.1]
    exact ⟨h, rfl⟩

theorem PathsInv.removePathHandler (h : PathsInv l) (path : List UInt8) :
    PathsInv (l.removePathHandler path) ∧
      (l.removePathHandler path).registrations = (ServerEvent.removePathHandler path).register l.registrations := by
  have hregister : (ServerEvent.removePathHandler path).register l.registrations =
      (l.server.used.eraseP (l.server.holds (cString path))).map fun i => (l.server.pathListElements i).registration :=
    List.eraseP_map ..
  rw [hregister]
  unfold PathLists.removePathHandler
  by_cases hlong : (cString path).length > MAX_COAP_PATH_SIZE
  · -- no registered path is that long
    have hnone : ∀ i ∈ l.server.used, ¬ l.server.holds (cString path) i := by
      intro i _ hi
      have hfits := (l.server.pathListElements i).fits
      rw [of_decide_eq_true hi] at hfits
      omega
    rw [if_pos hlong, List.eraseP_of_forall_not hnone]
    exact ⟨h, rfl⟩
  · rw [if_neg hlong]
    cases hfind : l.server.used.find? (l.server.holds (cString path)) with
    | none =>
      rw [List.eraseP_of_forall_not (List.find?_eq_none.mp hfind)]
      exact ⟨h, rfl⟩
    | some i =>
      obtain ⟨hi, as, bs, hused, has⟩ := List.find?_eq_some_iff_append.mp hfind
      have herase : l.server.used.eraseP (l.server.holds (cString path)) = as ++ bs := by
        rw [hused, List.eraseP_append_right _ fun a ha => by simpa using has a ha, List.eraseP_cons_of_pos hi]
      have hperm : List.Perm (as ++ bs ++ i :: l.unused) (l.server.used ++ l.unused) := by
        rw [hused]
        simp only [List.append_assoc, List.cons_append]
        exact List.perm_middle.append_left as |>.trans (by simp)
      dsimp only
      rw [herase]
      refine ⟨⟨hperm.nodup_iff.mpr h.nodup, hperm.length_eq.trans h.length, fun j hj => h.noZero j ?_⟩, rfl⟩
      rw [hused]
      exact List.mem_append.mpr ((List.mem_append.mp hj).imp id (List.mem_cons_of_mem i))

theorem PathsInv.step {event : ServerEvent} (h : PathsInv l) (hstep : pathStep l event t) :
    PathsInv t ∧ t.registrations = event.register l.registrations := by
  cases event with
  | setPathHandler path pHandler =>
    cases hstep
    exact h.setPathHandler path pHandler
  | removePathHandler path =>
    cases hstep
    exact h.removePathHandler path
  | handlePacket links sourceIP sourcePort udpPayloadSize udpPayload path =>
    obtain ⟨hunused, calls, hval⟩ := hstep
    obtain ⟨hused, hsame⟩ := handlePacket_keeps _ _ _ _ _ _ _ hval
    exact h.same hunused hused hsame
  | bufferSent =>
    cases hstep
    exact h.same rfl rfl (.refl _)

/-- After any run the server has the paths that the calls say. -/
theorem run_registrations {events : List ServerEvent} (hinit : l.Constructed) (hrun : pathLTS.Run l events t) :
    PathsInv t ∧ t.registrations = registered events := by
  obtain ⟨hinv, hnil⟩ := PathsInv.constructed hinit
  unfold registered
  rw [← hnil]
  clear hnil hinit
  induction hrun with
  | nil => exact ⟨hinv, rfl⟩
  | cons hstep _ ih =>
    obtain ⟨hinv', hregister⟩ := hinv.step hstep
    rw [List.foldl_cons, ← hregister]
    exact ih hinv'

end

end CpuScheduler.L6
