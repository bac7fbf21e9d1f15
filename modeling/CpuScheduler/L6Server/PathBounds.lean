import CpuScheduler.L6Server.CoapServer

/-!
# Bounds of one request

Which requests make `handlePacketFromReceiveBuffer` leave its buffers. Payload
reads and writes to the write buffer are always in bounds, and the option loop
ends, since each option moves the offset. The local array `path` is left in
one way: a Uri-Path option that makes the path too long while there are
candidates. The source means to drop the candidates there, but compares.

`Overrun` says it for a request: `requestOptions` are the options of the
payload, without any state of the server, and `pathAfter` what a list of
options leaves of the candidates. A request that is dropped by a later option
never terminates the path, so it only leaves the array if the characters of
the option agree with a candidate up to the end of the array.
-/
namespace CpuScheduler.L6

open Word L3

namespace Access

/-- The access stays inside the buffers. -/
def InBounds (udpPayloadSize : Nat) : Access → Prop
  | read i => i < udpPayloadSize
  | path i => i ≤ MAX_COAP_PATH_SIZE
  | buffer first count => first + count ≤ WRITE_BUFFER_SIZE

end Access

section
variable {links : List PathIndex} {udpPayload : Nat → UInt8} {udpPayloadSize : Nat}

/-! ## Header and options -/

theorem all_readByte {P : Access → Prop} {i : Nat} : Traced.All P (readByte udpPayload i) ↔ P (.read i) := by
  rw [readByte, Traced.all_bind_iff, Traced.all_emit_singleton]
  exact and_iff_left (Traced.all_pure _)

theorem readBytes_inBounds {first n : Nat} (h : first + n ≤ udpPayloadSize) :
    Traced.All (Access.InBounds udpPayloadSize) (readBytes udpPayload first n) := by
  induction n generalizing first with
  | zero => exact Traced.all_pure _
  | succ n ih =>
    rw [readBytes]
    refine Traced.all_bind (all_readByte.mpr ?_) (Traced.all_bind (ih (by omega)) (Traced.all_pure _))
    show first < udpPayloadSize
    omega

theorem readHeader_inBounds : Traced.All (Access.InBounds udpPayloadSize) (readHeader udpPayload udpPayloadSize) := by
  have hread (i : Nat) (h : i < udpPayloadSize) :
      Traced.All (Access.InBounds udpPayloadSize) (readByte udpPayload i) := all_readByte.mpr h
  unfold readHeader
  refine Traced.all_ite (fun _ => Traced.all_pure _) fun hsize => ?_
  refine Traced.all_bind (hread 0 (by omega)) ?_
  refine Traced.all_ite (fun _ => Traced.all_pure _) fun _ => ?_
  refine Traced.all_ite (fun _ => Traced.all_pure _) fun _ => ?_
  refine Traced.all_ite (fun _ => Traced.all_pure _) fun _ => ?_
  refine Traced.all_bind (hread 1 (by omega)) ?_
  refine Traced.all_ite (fun _ => Traced.all_pure _) fun _ => ?_
  refine Traced.all_bind (hread 2 (by omega)) (Traced.all_bind (hread 3 (by omega)) ?_)
  refine Traced.all_ite (fun _ => Traced.all_pure _) fun htoken => ?_
  exact Traced.all_bind (readBytes_inBounds (by omega)) (Traced.all_pure _)

theorem length_readBytes (first n : Nat) : (readBytes udpPayload first n).val.length = n := by
  induction n generalizing first with
  | zero => rfl
  | succ n ih => exact congrArg Nat.succ (ih (first + 1))

/-- The token is inside the payload. -/
theorem readHeader_some {h : Header} (hread : (readHeader udpPayload udpPayloadSize).val = some h) :
    4 + h.tokenLength ≤ udpPayloadSize ∧ h.token.length = h.tokenLength := by
  unfold readHeader at hread
  simp only [Traced.val_ite, Traced.val_bind, Traced.val_pure] at hread
  split at hread
  · cases hread
  · split at hread
    · cases hread
    · split at hread
      · cases hread
      · split at hread
        · cases hread
        · split at hread
          · cases hread
          · split at hread
            · cases hread
            · cases hread
              exact ⟨Nat.le_of_not_lt ‹_›, length_readBytes _ _⟩

/-- The offset moves over the bytes of the field. -/
theorem readExtended_offset {field n : Nat} (hn : numExtendedBytes field = some n) (offset : Nat) :
    (readExtended udpPayload field offset).val.2 = offset + n := by
  unfold numExtendedBytes at hn
  unfold readExtended
  split at hn
  · cases hn
    rw [if_pos ‹_›]
    rfl
  · rw [if_neg ‹_›]
    split at hn
    · cases hn
      rw [if_pos ‹_›]
      rfl
    · rw [if_neg ‹_›]
      split at hn
      · cases hn
      · cases hn
        rfl

theorem readExtended_inBounds {field n offset : Nat} (hn : numExtendedBytes field = some n)
    (h : offset + n < udpPayloadSize) :
    Traced.All (Access.InBounds udpPayloadSize) (readExtended udpPayload field offset) := by
  have hread (i : Nat) (h : i < udpPayloadSize) :
      Traced.All (Access.InBounds udpPayloadSize) (readByte udpPayload i) := all_readByte.mpr h
  unfold readExtended
  refine Traced.all_ite (fun hfield => ?_) fun _ => Traced.all_ite (fun hfield => ?_) fun _ => Traced.all_pure _
  · cases (hfield ▸ hn : numExtendedBytes 13 = some n)
    exact Traced.all_bind (hread _ h) (Traced.all_pure _)
  · cases (hfield ▸ hn : numExtendedBytes 14 = some n)
    exact Traced.all_bind (hread _ (by omega)) (Traced.all_bind (hread _ h) (Traced.all_pure _))

theorem readOption_inBounds {offset number : Nat} (h : offset < udpPayloadSize) :
    Traced.All (Access.InBounds udpPayloadSize) (readOption udpPayload udpPayloadSize offset number) := by
  unfold readOption
  refine Traced.all_bind (all_readByte.mpr h) ?_
  dsimp only
  split
  · rename_i m n hm hn
    refine Traced.all_ite (fun _ => Traced.all_pure _) fun hsize => ?_
    refine Traced.all_bind (readExtended_inBounds hm (by omega)) (Traced.all_bind (readExtended_inBounds hn ?_) ?_)
    · rw [readExtended_offset hm]
      omega
    refine Traced.all_ite (fun _ => Traced.all_pure _) fun _ => ?_
    exact Traced.all_ite (fun _ => Traced.all_pure _) fun _ => Traced.all_pure _
  · exact Traced.all_pure _

/-- An option is inside the payload, and behind its first byte. -/
theorem readOption_some {offset number : Nat} {o : CoAPOption}
    (h : (readOption udpPayload udpPayloadSize offset number).val = some o) :
    offset < o.value ∧ o.value + o.length ≤ udpPayloadSize := by
  unfold readOption at h
  simp only [Traced.val_bind] at h
  split at h
  · rename_i m n hm hn
    simp only [Traced.val_ite, Traced.val_bind, Traced.val_pure] at h
    split at h
    · cases h
    · rw [readExtended_offset hm, readExtended_offset hn] at h
      split at h
      · cases h
      · split at h
        · cases h
        · cases h
          exact ⟨by simp only; omega, by simp only; omega⟩
  · cases h

/-- The server knows the format of a Content-Format option; the other options
are accepted. -/
def CoAPOption.Accepted (udpPayload : Nat → UInt8) (o : CoAPOption) : Prop :=
  o.number = 12 → o.length = 0 ∨ o.length = 1 ∧ (ContentFormat.ofIdentifier (udpPayload o.value)).isSome

theorem CoAPOption.accepted_of_number_ne {o : CoAPOption} (h : o.number ≠ 12) : o.Accepted udpPayload :=
  fun hnumber => absurd hnumber h

instance (udpPayload : Nat → UInt8) (o : CoAPOption) : Decidable (o.Accepted udpPayload) :=
  inferInstanceAs (Decidable (_ → _))

/-- The options of a payload up to where the option loop stops, and whether it
stops at the end of the options. -/
structure Options where
  options : List CoAPOption
  complete : Bool

def parseOptions (udpPayload : Nat → UInt8) (udpPayloadSize : Nat) : Nat → Nat → Nat → Options
  | 0, _, _ => ⟨[], false⟩
  | rounds + 1, offset, number =>
    if offset < udpPayloadSize ∧ udpPayload offset ≠ 0xFF then
      match (readOption udpPayload udpPayloadSize offset number).val with
      | none => ⟨[], false⟩
      | some o =>
        if o.Accepted udpPayload then
          let rest := parseOptions udpPayload udpPayloadSize rounds (o.value + o.length) o.number
          ⟨o :: rest.options, rest.complete⟩
        else ⟨[], false⟩
    else ⟨[], true⟩

/-- The options of a request. -/
def requestOptions (udpPayload : Nat → UInt8) (udpPayloadSize : Nat) : Options :=
  match (readHeader udpPayload udpPayloadSize).val with
  | none => ⟨[], false⟩
  | some h => parseOptions udpPayload udpPayloadSize (udpPayloadSize + 1) (4 + h.tokenLength) 0

/-! ## Characters of the path -/

/-- The candidates that are left after `n` characters of the payload. -/
def candidatesAfter (udpPayload : Nat → UInt8) :
    Nat → Nat → List PathIndex → (PathIndex → CoAPPath) → List PathIndex
  | 0, _, candidates, _ => candidates
  | n + 1, offset, candidates, elements =>
    let (candidates, elements) := trimListBasedOnNewCharacter (udpPayload offset) false candidates elements
    candidatesAfter udpPayload n (offset + 1) candidates elements

theorem candidatesAfter_nil (n offset : Nat) (elements : PathIndex → CoAPPath) :
    candidatesAfter udpPayload n offset [] elements = [] := by
  induction n generalizing offset with
  | zero => rfl
  | succ n ih => exact ih (offset + 1)

theorem all_writePath {P : Access → Prop} {s : PathState} {i : Nat} {c : UInt8} :
    Traced.All P (writePath s i c) ↔ P (.path i) := by
  rw [writePath, Traced.all_bind_iff, Traced.all_emit_singleton]
  exact and_iff_left (Traced.all_pure _)

/-- A character is written while there are candidates. -/
theorem appendLoop_inBounds_iff {n i offset : Nat} {s : PathState} (h : offset + n ≤ udpPayloadSize) :
    Traced.All (Access.InBounds udpPayloadSize) (appendLoop udpPayload n i offset s) ↔
      ∀ j < n, candidatesAfter udpPayload j offset s.possibleValidPaths s.elements ≠ [] →
        i + j ≤ MAX_COAP_PATH_SIZE := by
  induction n generalizing i offset s with
  | zero => exact ⟨fun _ j hj => absurd hj (Nat.not_lt_zero j), fun _ => Traced.all_pure _⟩
  | succ n ih =>
    rw [appendLoop]
    by_cases hnil : s.possibleValidPaths = []
    · rw [if_pos hnil, hnil]
      exact ⟨fun _ j _ hj => absurd (candidatesAfter_nil j offset _) hj, fun _ => Traced.all_pure _⟩
    · have hread : Access.InBounds udpPayloadSize (.read offset) := show offset < udpPayloadSize by omega
      rw [if_neg hnil, Traced.all_bind_iff, all_readByte, Traced.all_bind_iff, all_writePath, ih (by omega)]
      constructor
      · rintro ⟨_, hi, hrest⟩ j hj hne
        cases j with
        | zero => exact hi
        | succ j =>
          have := hrest j (by omega) hne
          omega
      · intro hall
        refine ⟨hread, hall 0 (by omega) hnil, fun j hj hne => ?_⟩
        have := hall (j + 1) (by omega) hne
        omega

/-- A Uri-Path option that makes the path too long while there are candidates. -/
def Overlong (o : CoAPOption) (s : PathState) : Prop :=
  o.number = 11 ∧ s.possibleValidPaths ≠ [] ∧ s.TooLong o

/-- The characters of the option agree with a candidate up to the end of the
array and beyond. -/
def Spills (links : List PathIndex) (udpPayload : Nat → UInt8) (o : CoAPOption) (s : PathState) : Prop :=
  ∃ j < o.length, MAX_COAP_PATH_SIZE < s.pathSizeSoFar + 1 + j ∧
    candidatesAfter udpPayload j o.value (startSegment links o s).val.possibleValidPaths
      (startSegment links o s).val.elements ≠ []

theorem startSegment_size (o : CoAPOption) (s : PathState) :
    (startSegment links o s).val.pathSizeSoFar = s.pathSizeSoFar := by
  unfold startSegment
  split
  · rw [Traced.val_pure]
    split <;> rfl
  · rfl

theorem appendLoop_size (n i offset : Nat) (s : PathState) :
    (appendLoop udpPayload n i offset s).val.pathSizeSoFar = s.pathSizeSoFar := by
  induction n generalizing i offset s with
  | zero => rfl
  | succ n ih =>
    rw [appendLoop, Traced.val_ite]
    split
    · rfl
    · exact ih _ _ _

theorem appendPath_size (o : CoAPOption) (s : PathState) :
    (appendPath links udpPayload o s).val.pathSizeSoFar = s.pathSizeSoFar + (1 + o.length) := by
  simp only [appendPath, Traced.val_bind, Traced.val_pure, appendLoop_size, startSegment_size]

theorem startSegment_inBounds (o : CoAPOption) (s : PathState) :
    Traced.All (Access.InBounds udpPayloadSize) (startSegment links o s) := by
  unfold startSegment
  refine Traced.all_ite (fun _ => Traced.all_pure _) fun hfits => ?_
  refine Traced.all_bind (all_writePath.mpr ?_) (Traced.all_pure _)
  unfold PathState.TooLong at hfits
  show s.pathSizeSoFar ≤ MAX_COAP_PATH_SIZE
  omega

theorem appendPath_inBounds_iff {o : CoAPOption} {s : PathState} (h : o.value + o.length ≤ udpPayloadSize) :
    Traced.All (Access.InBounds udpPayloadSize) (appendPath links udpPayload o s) ↔
      (s.TooLong o → ¬ Spills links udpPayload o s) := by
  rw [appendPath, Traced.all_bind_iff, Traced.all_bind_iff, appendLoop_inBounds_iff h, startSegment_size]
  constructor
  · rintro ⟨_, hchars, _⟩ _ ⟨j, hj, hout, hne⟩
    have := hchars j hj hne
    omega
  · intro hno
    refine ⟨startSegment_inBounds o s, fun j hj hne => ?_, Traced.all_pure _⟩
    by_contra hout
    refine hno ?_ ⟨j, hj, by omega, hne⟩
    unfold PathState.TooLong
    omega

theorem isSome_applyOption_iff (o : CoAPOption) (s : PathState) :
    (applyOption links udpPayload o s).val.isSome ↔ o.Accepted udpPayload := by
  unfold applyOption CoAPOption.Accepted
  split
  · rename_i h
    simp [h.1]
  · split
    · rename_i h
      simp only [h, true_imp_iff]
      split
      · simp [*]
      · split <;> simp [*, readByte]
    · simp [*]

theorem applyOption_inBounds_iff {o : CoAPOption} {s : PathState} (h : o.value + o.length ≤ udpPayloadSize) :
    Traced.All (Access.InBounds udpPayloadSize) (applyOption links udpPayload o s) ↔
      (Overlong o s → ¬ Spills links udpPayload o s) := by
  unfold applyOption Overlong
  split
  · rename_i hpath
    rw [Traced.all_bind_iff, appendPath_inBounds_iff h]
    constructor
    · intro hall hover
      exact hall.1 hover.2.2
    · intro hall
      exact ⟨fun hlong => hall ⟨hpath.1, hpath.2, hlong⟩, Traced.all_pure _⟩
  · rename_i hpath
    refine iff_of_true ?_ fun hover => absurd ⟨hover.1, hover.2.1⟩ hpath
    refine Traced.all_ite (fun _ => ?_) fun _ => Traced.all_pure _
    refine Traced.all_ite (fun _ => Traced.all_pure _) fun _ => ?_
    refine Traced.all_ite (fun hone => ?_) fun _ => Traced.all_pure _
    refine Traced.all_bind (all_readByte.mpr ?_) (Traced.all_pure _)
    show o.value < udpPayloadSize
    omega

/-! ## The option loop -/

/-- The variables after an option. -/
def afterOption (links : List PathIndex) (udpPayload : Nat → UInt8) (o : CoAPOption) (s : PathState) : PathState :=
  (applyOption links udpPayload o s).val.getD s

/-- The variables after a list of options. -/
def pathAfter (links : List PathIndex) (udpPayload : Nat → UInt8) (os : List CoAPOption) (s : PathState) : PathState :=
  os.foldl (fun s o => afterOption links udpPayload o s) s

/-- Along the options `os`, from `s`, option `o` is met with the variables `t`. -/
inductive Meets (links : List PathIndex) (udpPayload : Nat → UInt8) :
    List CoAPOption → PathState → CoAPOption → PathState → Prop where
  | here (o : CoAPOption) (os : List CoAPOption) (s : PathState) : Meets links udpPayload (o :: os) s o s
  | there {o o' : CoAPOption} {os : List CoAPOption} {s t : PathState} :
    Meets links udpPayload os (afterOption links udpPayload o s) o' t → Meets links udpPayload (o :: os) s o' t

theorem applyOption_accepted {o : CoAPOption} (s : PathState) (h : o.Accepted udpPayload) :
    (applyOption links udpPayload o s).val = some (afterOption links udpPayload o s) := by
  have hsome : (applyOption links udpPayload o s).val.isSome := (isSome_applyOption_iff o s).mpr h
  obtain ⟨t, ht⟩ := Option.isSome_iff_exists.mp hsome
  rw [afterOption, ht, Option.getD_some]

theorem applyOption_rejected {o : CoAPOption} (s : PathState) (h : ¬ o.Accepted udpPayload) :
    (applyOption links udpPayload o s).val = none := by
  have hnone : ¬ (applyOption links udpPayload o s).val.isSome := fun hsome => h ((isSome_applyOption_iff o s).mp hsome)
  simpa using hnone

/-- The loop ends: every option moves the offset. It applies the options of the
payload one after the other. -/
theorem optionLoop_val {rounds offset number : Nat} (s : PathState) (hoffset : offset ≤ udpPayloadSize)
    (h : udpPayloadSize < offset + rounds) :
    ((parseOptions udpPayload udpPayloadSize rounds offset number).complete = true ∧
      ∃ e, (optionLoop links udpPayload udpPayloadSize rounds offset number s).val =
        .done e (pathAfter links udpPayload (parseOptions udpPayload udpPayloadSize rounds offset number).options s)) ∨
    ((parseOptions udpPayload udpPayloadSize rounds offset number).complete = false ∧
      ∃ t, (optionLoop links udpPayload udpPayloadSize rounds offset number s).val = .dropped t) := by
  induction rounds generalizing offset number s with
  | zero => omega
  | succ rounds ih =>
    rw [optionLoop, parseOptions]
    by_cases hin : offset < udpPayloadSize
    · by_cases hmarker : udpPayload offset = 0xFF
      · rw [if_pos hin, if_neg (by simp [hmarker])]
        left
        refine ⟨rfl, offset, ?_⟩
        simp [readByte, hmarker, pathAfter]
      · rw [if_pos hin, if_pos ⟨hin, hmarker⟩]
        simp only [Traced.val_bind, Traced.val_ite]
        rw [if_neg (show (readByte udpPayload offset).val ≠ 0xFF from hmarker)]
        cases ho : (readOption udpPayload udpPayloadSize offset number).val with
        | none => exact .inr ⟨rfl, s, rfl⟩
        | some o =>
          obtain ⟨hfirst, hend⟩ := readOption_some ho
          dsimp only
          by_cases hacc : o.Accepted udpPayload
          · rw [if_pos hacc, Traced.val_bind, applyOption_accepted s hacc]
            exact ih (afterOption links udpPayload o s) hend (by omega)
          · rw [if_neg hacc, Traced.val_bind, applyOption_rejected s hacc]
            exact .inr ⟨rfl, s, rfl⟩
    · rw [if_neg hin, if_neg (fun h => hin h.1)]
      exact .inl ⟨rfl, offset, rfl⟩

theorem optionLoop_inBounds_iff {rounds offset number : Nat} {s : PathState} (h : udpPayloadSize < offset + rounds) :
    Traced.All (Access.InBounds udpPayloadSize)
      (optionLoop links udpPayload udpPayloadSize rounds offset number s) ↔
    ∀ o t, Meets links udpPayload (parseOptions udpPayload udpPayloadSize rounds offset number).options s o t →
      Overlong o t → ¬ Spills links udpPayload o t := by
  have hnone {x : Traced Access Parsed} {s : PathState} (hx : Traced.All (Access.InBounds udpPayloadSize) x) :
      Traced.All (Access.InBounds udpPayloadSize) x ↔
        ∀ o t, Meets links udpPayload [] s o t → Overlong o t → ¬ Spills links udpPayload o t :=
    iff_of_true hx fun o t hmeets => nomatch hmeets
  induction rounds generalizing offset number s with
  | zero => exact hnone (Traced.all_pure _)
  | succ rounds ih =>
    rw [optionLoop, parseOptions]
    by_cases hin : offset < udpPayloadSize
    · have hread : Traced.All (Access.InBounds udpPayloadSize) (readByte udpPayload offset) := all_readByte.mpr hin
      rw [if_pos hin]
      by_cases hmarker : udpPayload offset = 0xFF
      · rw [if_neg (by simp [hmarker])]
        refine hnone (Traced.all_bind hread ?_)
        rw [if_pos (show (readByte udpPayload offset).val = 0xFF from hmarker)]
        exact Traced.all_pure _
      · rw [if_pos ⟨hin, hmarker⟩, Traced.all_bind_iff, and_iff_right hread,
          if_neg (show (readByte udpPayload offset).val ≠ 0xFF from hmarker), Traced.all_bind_iff,
          and_iff_right (readOption_inBounds hin)]
        cases ho : (readOption udpPayload udpPayloadSize offset number).val with
        | none => exact hnone (Traced.all_pure _)
        | some o =>
          obtain ⟨hfirst, hend⟩ := readOption_some ho
          dsimp only
          rw [Traced.all_bind_iff, applyOption_inBounds_iff hend]
          by_cases hacc : o.Accepted udpPayload
          · rw [if_pos hacc, applyOption_accepted s hacc]
            have hnext : udpPayloadSize < o.value + o.length + rounds := by omega
            constructor
            · intro hall o' t hmeets
              cases hmeets with
              | here => exact hall.1
              | there hmeets => exact (ih hnext).mp hall.2 o' t hmeets
            · intro hall
              exact ⟨hall o s (.here _ _ _), (ih hnext).mpr fun o' t hmeets => hall o' t (.there hmeets)⟩
          · rw [if_neg hacc, applyOption_rejected s hacc]
            refine iff_of_true ⟨fun hover => absurd ?_ hacc, Traced.all_pure _⟩ fun o t hmeets => nomatch hmeets
            exact CoAPOption.accepted_of_number_ne (by rw [hover.1]; decide)
    · rw [if_neg hin, if_neg (fun h => hin h.1)]
      exact hnone (Traced.all_pure _)

theorem afterOption_size (o : CoAPOption) (s : PathState) :
    (afterOption links udpPayload o s).pathSizeSoFar =
      if o.number = 11 ∧ s.possibleValidPaths ≠ [] then s.pathSizeSoFar + (1 + o.length) else s.pathSizeSoFar := by
  unfold afterOption applyOption
  split
  · exact appendPath_size o s
  · split
    · split
      · rfl
      · split
        · cases hf : ContentFormat.ofIdentifier (udpPayload o.value) <;> simp [readByte, hf]
        · rfl
    · rfl

theorem size_le_pathAfter (os : List CoAPOption) (s : PathState) :
    s.pathSizeSoFar ≤ (pathAfter links udpPayload os s).pathSizeSoFar := by
  induction os generalizing s with
  | nil => exact Nat.le_refl _
  | cons o os ih =>
    refine Nat.le_trans ?_ (ih (afterOption links udpPayload o s))
    rw [afterOption_size]
    split <;> omega

/-- The path fits its array at the end if it did with every option. -/
theorem pathAfter_size_iff {os : List CoAPOption} {s : PathState} (h : s.pathSizeSoFar ≤ MAX_COAP_PATH_SIZE) :
    (pathAfter links udpPayload os s).pathSizeSoFar ≤ MAX_COAP_PATH_SIZE ↔
      ∀ o t, Meets links udpPayload os s o t → ¬ Overlong o t := by
  induction os generalizing s with
  | nil => exact iff_of_true h fun o t hmeets => nomatch hmeets
  | cons o os ih =>
    have hsize : (afterOption links udpPayload o s).pathSizeSoFar = _ := afterOption_size o s
    constructor
    · intro hend
      have hnext : (afterOption links udpPayload o s).pathSizeSoFar ≤ MAX_COAP_PATH_SIZE :=
        (size_le_pathAfter os _).trans hend
      intro o' t hmeets
      cases hmeets with
      | here =>
        intro hover
        rw [if_pos ⟨hover.1, hover.2.1⟩] at hsize
        have := hover.2.2
        unfold PathState.TooLong at this
        omega
      | there hmeets => exact (ih hnext).mp hend o' t hmeets
    · intro hall
      have hnext : (afterOption links udpPayload o s).pathSizeSoFar ≤ MAX_COAP_PATH_SIZE := by
        by_contra hlong
        rw [hsize] at hlong
        split at hlong
        · rename_i hpath
          exact hall o s (.here _ _ _) ⟨hpath.1, hpath.2, by unfold PathState.TooLong; omega⟩
        · exact hlong h
      exact (ih hnext).mpr fun o' t hmeets => hall o' t (.there hmeets)

/-- The terminating zero is in bounds if the path fits. -/
theorem finishPath_inBounds_iff {s : PathState} :
    Traced.All (Access.InBounds udpPayloadSize) (finishPath s) ↔ s.pathSizeSoFar ≤ MAX_COAP_PATH_SIZE := by
  unfold finishPath rootPath
  by_cases h0 : s.pathSizeSoFar = 0
  · rw [if_pos h0, h0]
    refine iff_of_true (Traced.all_bind ?_ (Traced.all_bind ?_ (Traced.all_pure _))) (Nat.zero_le _)
    · exact Traced.all_bind (all_writePath.mpr (Nat.zero_le _)) (Traced.all_pure _)
    · exact all_writePath.mpr (show 1 ≤ MAX_COAP_PATH_SIZE by decide)
  · rw [if_neg h0, Traced.all_bind_iff, Traced.all_bind_iff, all_writePath]
    constructor
    · intro hall
      exact hall.2.1
    · intro hle
      exact ⟨Traced.all_pure _, hle, Traced.all_pure _⟩

/-! ## The response -/

theorem store_inBounds {first : Nat} {bytes : List UInt8} {buffer : Bytes}
    (h : first + bytes.length ≤ WRITE_BUFFER_SIZE) :
    Traced.All (Access.InBounds udpPayloadSize) (store first bytes buffer) :=
  Traced.all_bind (Traced.all_emit_singleton.mpr h) (Traced.all_pure _)

theorem storeHeader_inBounds {first : Nat} {sourceIP : UInt32} {sourcePort : UInt16} {h : Header} {buffer : Bytes}
    (htoken : h.token.length = h.tokenLength) (hroom : first + optionsOffset h.tokenLength ≤ WRITE_BUFFER_SIZE) :
    Traced.All (Access.InBounds udpPayloadSize) (storeHeader first sourceIP sourcePort h buffer) := by
  simp only [optionsOffset, SEND_BUFFER_HEADER_SIZE, UDP_HEADER_SIZE, COAP_PACKET_MINIMUM_SIZE] at hroom
  unfold storeHeader SEND_BUFFER_HEADER_SIZE UDP_HEADER_SIZE
  refine Traced.all_bind (store_inBounds ?_) (Traced.all_bind (store_inBounds ?_) (Traced.all_bind (store_inBounds ?_)
    (Traced.all_bind (store_inBounds ?_) (store_inBounds ?_))))
  all_goals simp only [List.length_cons, List.length_nil, List.length_replicate, htoken]; omega

theorem storeFormat_inBounds {first : Nat} {h : Header} {r : CoAPResponse} {buffer : Bytes}
    (hroom : r.responseSize > 0 → first + responseOffset h.tokenLength ≤ WRITE_BUFFER_SIZE) :
    Traced.All (Access.InBounds udpPayloadSize) (storeFormat first h r buffer) := by
  simp only [responseOffset, RESPONSE_OPTIONS_SIZE, PAYLOAD_MARKER_SIZE] at hroom
  unfold storeFormat RESPONSE_OPTIONS_SIZE
  refine Traced.all_ite (fun hsize => ?_) fun _ => Traced.all_pure _
  have := hroom hsize
  refine Traced.all_bind (store_inBounds ?_) (store_inBounds ?_)
  all_goals simp only [List.length_cons, List.length_nil]; omega

theorem storeSize_inBounds {first : Nat} {h : Header} {r : CoAPResponse} {buffer : Bytes}
    (hroom : first + optionsOffset h.tokenLength ≤ WRITE_BUFFER_SIZE) :
    Traced.All (Access.InBounds udpPayloadSize) (storeSize first h r buffer) := by
  simp only [optionsOffset, SEND_BUFFER_HEADER_SIZE, UDP_HEADER_SIZE, COAP_PACKET_MINIMUM_SIZE] at hroom
  unfold storeSize SEND_BUFFER_HEADER_SIZE UDP_HEADER_SIZE
  refine Traced.all_bind (store_inBounds ?_) (store_inBounds ?_)
  all_goals simp only [List.length_cons, List.length_nil]; omega

theorem optionsOffset_le_required (h : Header) (paths : List PathIndex) :
    optionsOffset h.tokenLength ≤ requiredWritebufferSize h paths := by
  unfold requiredWritebufferSize responseOffset
  split <;> omega

/-- With a method there is room for the whole response buffer. -/
theorem required_of_method {h : Header} {paths : List PathIndex} (hne : paths ≠ [])
    (hm : (methodOf h.codeDetail).isSome) :
    requiredWritebufferSize h paths = responseOffset h.tokenLength + RESPONSE_BUFFER_SIZE := by
  obtain ⟨h1, h2⟩ := isSome_methodOf hm
  rw [requiredWritebufferSize, if_neg]
  simp only [hne, h1, false_or]
  omega

theorem checkPayloadMarker_inBounds (offset : Nat) :
    Traced.All (Access.InBounds udpPayloadSize) (checkPayloadMarker udpPayload udpPayloadSize offset) := by
  unfold checkPayloadMarker
  refine Traced.all_ite (fun hsize => ?_) fun _ => Traced.all_pure _
  refine Traced.all_bind (all_readByte.mpr ?_) (Traced.all_pure _)
  show offset < udpPayloadSize
  unfold payloadSize at hsize
  split at hsize <;> omega

theorem callHandler_inBounds {first offset : Nat} {h : Header} {s : PathState} {buffer : Bytes}
    (hroom : first + requiredWritebufferSize h s.possibleValidPaths ≤ WRITE_BUFFER_SIZE) :
    Traced.All (Access.InBounds udpPayloadSize) (callHandler first udpPayload udpPayloadSize h offset s buffer) := by
  unfold callHandler
  cases hpaths : s.possibleValidPaths with
  | nil => exact Traced.all_pure _
  | cons i is =>
    refine Traced.all_bind (checkPayloadMarker_inBounds offset) ?_
    refine Traced.all_ite (fun _ => Traced.all_bind ?_ (Traced.all_pure _)) fun _ => Traced.all_pure _
    unfold callMethod
    cases hm : methodOf h.codeDetail with
    | none => exact Traced.all_pure _
    | some method =>
      refine Traced.all_bind (Traced.all_emit_singleton.mpr ?_) (Traced.all_pure _)
      rw [hpaths, required_of_method (List.cons_ne_nil i is) (by rw [hm]; rfl)] at hroom
      show first + responseOffset h.tokenLength + RESPONSE_BUFFER_SIZE ≤ WRITE_BUFFER_SIZE
      omega

theorem writeResponse_inBounds {server : CoAPServer} {sourceIP : UInt32} {sourcePort : UInt16} {h : Header}
    {offset : Nat} {s : PathState} (htoken : h.token.length = h.tokenLength) :
    Traced.All (Access.InBounds udpPayloadSize)
      (server.writeResponse sourceIP sourcePort udpPayload udpPayloadSize h offset s) := by
  unfold CoAPServer.writeResponse
  dsimp only
  split
  · exact Traced.all_pure _
  · rename_i hroom
    have hfirst := server.dataLen_le
    have hroom : server.currentlyWrittenToWriteBufferDataLen + requiredWritebufferSize h s.possibleValidPaths ≤
      WRITE_BUFFER_SIZE := by omega
    have hbase := optionsOffset_le_required h s.possibleValidPaths
    refine Traced.all_bind (storeHeader_inBounds htoken (by omega)) (Traced.all_bind (callHandler_inBounds hroom) ?_)
    split
    · exact Traced.all_pure _
    · rename_i r buffer hcall
      refine Traced.all_bind (storeFormat_inBounds fun hsize => ?_)
        (Traced.all_bind (storeSize_inBounds (by omega)) (Traced.all_pure _))
      rcases callHandler_cases hcall with h0 | ⟨hne, hm⟩
      · rw [CoAPResponse.limited_size_zero h0] at hsize
        exact absurd hsize (Nat.lt_irrefl 0)
      · rw [required_of_method hne hm] at hroom
        omega

theorem respond_inBounds_iff {server : CoAPServer} {sourceIP : UInt32} {sourcePort : UInt16} {h : Header}
    {offset : Nat} {s : PathState} (htoken : h.token.length = h.tokenLength) :
    Traced.All (Access.InBounds udpPayloadSize)
      (server.respond sourceIP sourcePort udpPayload udpPayloadSize h offset s) ↔
    s.pathSizeSoFar ≤ MAX_COAP_PATH_SIZE := by
  unfold CoAPServer.respond
  rw [Traced.all_bind_iff, finishPath_inBounds_iff]
  refine and_iff_left (Traced.all_bind (writeResponse_inBounds htoken) ?_)
  exact Traced.all_ite (fun _ => Traced.all_pure _) fun _ => Traced.all_pure _

theorem respond_val_ne (server : CoAPServer) (sourceIP : UInt32) (sourcePort : UInt16) (h : Header) (offset : Nat)
    (s : PathState) :
    (server.respond sourceIP sourcePort udpPayload udpPayloadSize h offset s).val ≠ .outOfRounds := by
  unfold CoAPServer.respond
  simp only [Traced.val_bind, Traced.val_ite, Traced.val_pure]
  split <;> exact Handled.noConfusion

end

/-! ## A whole request -/

section
variable (server : CoAPServer) (links : List PathIndex) (sourceIP : UInt32) (sourcePort : UInt16)
  (udpPayloadSize : Nat) (udpPayload : Nat → UInt8) (path : Bytes)

/-- The handling of the request ends and stays inside the buffers. -/
def Contained : Prop :=
  Traced.All (Access.InBounds udpPayloadSize)
    (server.handlePacketFromReceiveBuffer links sourceIP sourcePort udpPayloadSize udpPayload path) ∧
  (server.handlePacketFromReceiveBuffer links sourceIP sourcePort udpPayloadSize udpPayload path).val ≠ .outOfRounds

/-- A Uri-Path option of the request makes the path too long while there are
candidates, and the path is terminated or the option's characters go on past
the end of the array. -/
def Overrun : Prop :=
  ∃ o s, Meets links udpPayload (requestOptions udpPayload udpPayloadSize).options (server.pathState path) o s ∧
    Overlong o s ∧ ((requestOptions udpPayload udpPayloadSize).complete = true ∨ Spills links udpPayload o s)

theorem contained_iff : Contained server links sourceIP sourcePort udpPayloadSize udpPayload path ↔
    ¬ Overrun server links udpPayloadSize udpPayload path := by
  unfold Contained Overrun CoAPServer.handlePacketFromReceiveBuffer requestOptions
  rw [Traced.all_bind_iff, Traced.val_bind, and_iff_right readHeader_inBounds]
  cases hheader : (readHeader udpPayload udpPayloadSize).val with
  | none =>
    refine iff_of_true ⟨Traced.all_pure _, by simp⟩ ?_
    rintro ⟨o, s, hmeets, _⟩
    cases hmeets
  | some h =>
    obtain ⟨hsize, htoken⟩ := readHeader_some hheader
    have hrounds : udpPayloadSize < 4 + h.tokenLength + (udpPayloadSize + 1) := by omega
    dsimp only
    rw [Traced.all_bind_iff, Traced.val_bind, optionLoop_inBounds_iff hrounds]
    rcases optionLoop_val (server.pathState path) hsize hrounds with ⟨hcomplete, e, hval⟩ | ⟨hcomplete, t, hval⟩
    · rw [hval, hcomplete]
      dsimp only
      rw [respond_inBounds_iff htoken, pathAfter_size_iff (Nat.zero_le _)]
      constructor
      · rintro ⟨⟨_, hfits⟩, _⟩ ⟨o, s, hmeets, hover, _⟩
        exact hfits o s hmeets hover
      · intro hno
        have hfits : ∀ o s, Meets links udpPayload _ (server.pathState path) o s → ¬ Overlong o s :=
          fun o s hmeets hover => hno ⟨o, s, hmeets, hover, .inl rfl⟩
        exact ⟨⟨fun o s hmeets hover => absurd hover (hfits o s hmeets), hfits⟩, respond_val_ne _ _ _ _ _ _⟩
    · rw [hval, hcomplete]
      constructor
      · rintro ⟨⟨hchars, _⟩, _⟩ ⟨o, s, hmeets, hover, hfalse | hspills⟩
        · cases hfalse
        · exact hchars o s hmeets hover hspills
      · intro hno
        refine ⟨⟨fun o s hmeets hover hspills => hno ⟨o, s, hmeets, hover, .inr hspills⟩, Traced.all_pure _⟩, ?_⟩
        exact Handled.noConfusion

end

/-- One registered path, "/^", and nothing to send. -/
def oneHandlerServer : CoAPServer where
  pathListElements _ := ⟨[slash, caret], 0, fun _ _ _ _ => (⟨0x45, 0, .textPlainCharsetUTF8⟩, fun _ => 0),
    Nat.le_add_left 2 98⟩
  used := [⟨0, Nat.succ_pos 9⟩]
  writeBuffers _ _ := 0
  currentlySendingWritebuffer := false
  currentlySendingWritebufferIndicatorWhenFinished := 1
  currentlyWrittenToWriteBufferDataLen := 0
  dataLen_le := Nat.zero_le _

/-- A GET request with one Uri-Path option of 100 characters. -/
def overlongRequest : Nat → UInt8
  | 0 => 0x40
  | 1 => 1
  | 2 => 0
  | 3 => 0
  | 4 => 0xBD
  | 5 => 87
  | _ => 0x61

theorem overlong_request_overruns : ¬ Contained oneHandlerServer [] 0x0100000A 5683 106 overlongRequest fun _ => 0 := by
  intro h
  have hout : 101 ≤ MAX_COAP_PATH_SIZE := h.1 (.path 101) (by decide +kernel)
  exact absurd hout (by decide)

end CpuScheduler.L6
