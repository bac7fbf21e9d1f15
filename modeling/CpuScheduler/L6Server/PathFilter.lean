import CpuScheduler.Core.Wildcard
import CpuScheduler.L6Server.RequestFormat

/-!
# What the filter accepts

`trimListBasedOnNewCharacter` follows each candidate with a counter into its
pattern; `step` is what one character does to the rest of the pattern. A zero
is taken for the end of the path: a candidate stays if it could end here, and
its counter does not move. At the end of the path that is what is wanted, but
a zero in the path itself is treated the same way.

`accepts_iff` says which patterns are left at the end: those that match, unless
a '/' comes after a zero, and those that match the path without the zeros at its
end and do not end in '^'.
-/
namespace CpuScheduler.L6

open Wildcard

theorem slash_ne_caret : slash ≠ caret := by decide

/-! ## One pattern -/

/-- The rest of a pattern after one more character. -/
def step (q : List UInt8) (c : UInt8) : Option (List UInt8) :=
  if c = 0 then if AtEnd caret q then some q else none else advance slash caret q c

/-- The rest of a pattern after a string. -/
def run : List UInt8 → List UInt8 → Option (List UInt8)
  | q, [] => some q
  | q, c :: s => (step q c).bind fun q => run q s

/-- The pattern is left after the path and the terminating zero. -/
def accepts (pattern path : List UInt8) : Bool := (run pattern (path ++ [0])).isSome

section
variable {q : List UInt8} {p : CoAPPath} {c : UInt8} {isFirstCharacter : Bool}

theorem run_append (q u v : List UInt8) : run q (u ++ v) = (run q u).bind fun q => run q v := by
  induction u generalizing q with
  | nil => rfl
  | cons c u ih =>
    rw [List.cons_append, run, run]
    cases step q c with
    | none => rfl
    | some q => exact ih q

theorem run_singleton (c : UInt8) (q : List UInt8) : run q [c] = step q c := by
  rw [run]
  cases step q c <;> rfl

theorem drop_eq_getD_cons {l : List UInt8} {k : Nat} (hk : k < l.length) : l.drop k = l.getD k 0 :: l.drop (k + 1) := by
  rw [List.drop_eq_getElem_cons hk, List.getD_eq_getElem _ _ hk]

/-- The rest of the pattern that the counter points to. -/
def CoAPPath.rest (p : CoAPPath) : List UInt8 := p.path.drop p.pathProgressCounter

theorem atEnd_rest (hle : p.pathProgressCounter ≤ p.path.length) : AtEnd caret p.rest ↔
    p.pathProgressCounter = p.path.length ∨
      p.pathProgressCounter + 1 = p.path.length ∧ p.path.getD p.pathProgressCounter 0 = caret := by
  unfold AtEnd CoAPPath.rest
  constructor
  · rintro (hnil | hone)
    · have := List.drop_eq_nil_iff.mp hnil
      omega
    · have hlen := congrArg List.length hone
      rw [List.length_drop, List.length_singleton] at hlen
      rw [drop_eq_getD_cons (by omega)] at hone
      exact .inr ⟨by omega, (List.cons.inj hone).1⟩
  · rintro (hend | ⟨hone, hcaret⟩)
    · exact .inl (List.drop_eq_nil_iff.mpr hend.ge)
    · right
      rw [drop_eq_getD_cons (by omega), hcaret, List.drop_eq_nil_iff.mpr hone.ge]

/-- What one round of the loop makes of a candidate; `next` is the rest of the
pattern after it. -/
structure Accepts (p : CoAPPath) (next : Option (List UInt8)) (r : Bool × CoAPPath) : Prop where
  valid : r.1 = next.isSome
  path : r.2.path = p.path
  handler : r.2.pHandler = p.pHandler
  counter : r.2.pathProgressCounter ≤ p.path.length
  rest : ∀ q, next = some q → r.2.rest = q

theorem accept_counted (hle : p.pathProgressCounter ≤ p.path.length) : Accepts p (step p.rest c) (p.accept c false) := by
  unfold CoAPPath.accept
  simp only [Bool.false_eq_true, if_false]
  by_cases h0 : c = 0
  · rw [if_pos h0, step, if_pos h0]
    have hend := atEnd_rest hle
    by_cases he : AtEnd caret p.rest
    · rw [if_pos he]
      refine ⟨decide_eq_true (hend.mp he), rfl, rfl, hle, fun q hq => ?_⟩
      cases hq
      rfl
    · rw [if_neg he]
      exact ⟨decide_eq_false (hend.not.mp he), rfl, rfl, hle, by simp⟩
  · rw [if_neg h0]
    have hstep : step p.rest c = advance slash caret p.rest c := if_neg h0
    by_cases hsize : p.pathProgressCounter ≥ p.path.length
    · have hnil : p.rest = [] := List.drop_eq_nil_iff.mpr hsize
      rw [if_pos hsize, hstep, hnil]
      exact ⟨rfl, rfl, rfl, hle, by simp [advance]⟩
    · have hrest : p.rest = p.path.getD p.pathProgressCounter 0 :: p.path.drop (p.pathProgressCounter + 1) :=
        drop_eq_getD_cons (by omega)
      rw [if_neg hsize, hstep, hrest]
      by_cases hcaret : p.path.getD p.pathProgressCounter 0 = caret
      · by_cases hslash : c = slash
        · -- the wildcard is left behind
          subst hslash
          have hadvance : advance slash caret (p.path.getD p.pathProgressCounter 0 ::
              p.path.drop (p.pathProgressCounter + 1)) slash =
              if (p.path.drop (p.pathProgressCounter + 1)).head? = some slash then
                some (p.path.drop (p.pathProgressCounter + 1)).tail else none := by
            rw [advance, if_pos hcaret, if_neg (not_not_intro rfl)]
          rw [if_neg (fun h => h.2 rfl), if_pos hcaret, hadvance]
          by_cases hlast : p.pathProgressCounter + 1 ≥ p.path.length
          · rw [if_pos hlast, List.drop_eq_nil_iff.mpr hlast]
            exact ⟨rfl, rfl, rfl, hle, by simp⟩
          · rw [if_neg hlast, drop_eq_getD_cons (Nat.lt_of_not_le hlast), List.head?_cons, List.tail_cons]
            by_cases hagrees : p.path.getD (p.pathProgressCounter + 1) 0 = slash
            · rw [if_pos (congrArg some hagrees), if_neg (not_not_intro hagrees)]
              refine ⟨rfl, rfl, rfl, Nat.lt_of_not_le hlast, fun q hq => ?_⟩
              cases hq
              rfl
            · rw [if_neg (fun h => hagrees (Option.some.inj h)), if_pos hagrees]
              exact ⟨rfl, rfl, rfl, hle, by simp⟩
        · have hadvance : advance slash caret (p.path.getD p.pathProgressCounter 0 ::
              p.path.drop (p.pathProgressCounter + 1)) c = some p.rest := by
            rw [advance, if_pos hcaret, if_pos hslash, ← hrest]
          rw [hadvance, if_pos ⟨hcaret, hslash⟩]
          refine ⟨rfl, rfl, rfl, hle, fun q hq => ?_⟩
          cases hq
          rfl
      · have hadvance : advance slash caret (p.path.getD p.pathProgressCounter 0 ::
            p.path.drop (p.pathProgressCounter + 1)) c =
            if p.path.getD p.pathProgressCounter 0 = c then some (p.path.drop (p.pathProgressCounter + 1)) else none := by
          rw [advance, if_neg hcaret]
        rw [if_neg (fun h => hcaret h.1), if_neg hcaret, if_neg hsize, hadvance]
        by_cases hagrees : p.path.getD p.pathProgressCounter 0 = c
        · rw [if_pos hagrees, if_neg (not_not_intro hagrees)]
          refine ⟨rfl, rfl, rfl, Nat.lt_of_not_le hsize, fun q hq => ?_⟩
          cases hq
          rfl
        · rw [if_neg hagrees, if_pos hagrees]
          exact ⟨rfl, rfl, rfl, hle, by simp⟩

/-- For the first character the counter is set back. -/
theorem accept_first : Accepts p (step p.path c) (p.accept c true) := by
  have h : Accepts (p.setProgress 0) (step (p.setProgress 0).rest c) ((p.setProgress 0).accept c false) :=
    accept_counted (Nat.zero_le _)
  exact ⟨h.valid, h.path, h.handler, h.counter, h.rest⟩

end

/-! ## The candidates -/

section
variable {used candidates : List PathIndex} {elements : PathIndex → CoAPPath} {c : UInt8} {isFirstCharacter : Bool}

/-- The candidates are treated one by one. -/
theorem trimList_eq (hnd : candidates.Nodup) :
    trimListBasedOnNewCharacter c isFirstCharacter candidates elements =
      (candidates.filter fun i => ((elements i).accept c isFirstCharacter).1,
        fun i => if i ∈ candidates then ((elements i).accept c isFirstCharacter).2 else elements i) := by
  induction candidates generalizing elements with
  | nil => simp [trimListBasedOnNewCharacter]
  | cons i is ih =>
    obtain ⟨hi, hnd⟩ := List.nodup_cons.mp hnd
    rw [trimListBasedOnNewCharacter]
    dsimp only
    rw [ih hnd]
    have hsame : ∀ j ∈ is, Function.update elements i ((elements i).accept c isFirstCharacter).2 j = elements j :=
      fun j hj => Function.update_of_ne (ne_of_mem_of_not_mem hj hi) ..
    refine Prod.ext ?_ ?_
    · dsimp only
      rw [List.filter_cons, List.filter_congr fun j hj => by rw [hsame j hj]]
    · funext j
      dsimp only
      by_cases hj : j ∈ is
      · rw [if_pos hj, if_pos (List.mem_cons_of_mem _ hj), hsame j hj]
      · rw [if_neg hj]
        by_cases hij : j = i
        · subst hij
          rw [Function.update_self, if_pos List.mem_cons_self]
        · rw [Function.update_of_ne hij, if_neg (fun h => (List.mem_cons.mp h).elim hij hj)]

/-- The candidates after the characters `u`: the paths whose patterns can take
them, with their counters behind what was taken. -/
structure Tracks (used : List PathIndex) (before : PathIndex → CoAPPath) (u : List UInt8)
    (candidates : List PathIndex) (elements : PathIndex → CoAPPath) : Prop where
  list : candidates = used.filter fun i => (run (before i).path u).isSome
  path : ∀ i, (elements i).path = (before i).path
  handler : ∀ i, (elements i).pHandler = (before i).pHandler
  counter : ∀ i ∈ candidates, (elements i).pathProgressCounter ≤ (elements i).path.length
  rest : ∀ i ∈ candidates, run (before i).path u = some (elements i).rest

theorem tracks_first (hnd : used.Nodup) (before : PathIndex → CoAPPath) (c : UInt8) :
    let r := trimListBasedOnNewCharacter c true used before
    Tracks used before [c] r.1 r.2 := by
  have hrun : ∀ q, run q [c] = step q c := run_singleton c
  have haccept : ∀ i, Accepts (before i) (step (before i).path c) ((before i).accept c true) := fun i => accept_first
  rw [trimList_eq hnd]
  constructor
  case list => exact List.filter_congr fun i _ => by rw [(haccept i).valid, hrun]
  case path =>
    intro i
    dsimp only
    split
    · exact (haccept i).path
    · rfl
  case handler =>
    intro i
    dsimp only
    split
    · exact (haccept i).handler
    · rfl
  case counter =>
    intro i hi
    dsimp only
    rw [if_pos (List.mem_filter.mp hi).1, (haccept i).path]
    exact (haccept i).counter
  case rest =>
    intro i hi
    obtain ⟨hused, hvalid⟩ := List.mem_filter.mp hi
    rw [(haccept i).valid] at hvalid
    obtain ⟨q, hq⟩ := Option.isSome_iff_exists.mp hvalid
    dsimp only
    rw [if_pos hused, hrun, hq, (haccept i).rest q hq]

theorem tracks_step (hnd : used.Nodup) {before : PathIndex → CoAPPath} {u : List UInt8}
    (h : Tracks used before u candidates elements) (c : UInt8) :
    let r := trimListBasedOnNewCharacter c false candidates elements
    Tracks used before (u ++ [c]) r.1 r.2 := by
  have hcand : candidates.Nodup := by
    rw [h.list]
    exact hnd.filter _
  have hrun : ∀ i ∈ candidates, run (before i).path (u ++ [c]) = step (elements i).rest c := by
    intro i hi
    rw [run_append, h.rest i hi, Option.bind_some, run_singleton]
  have haccept : ∀ i ∈ candidates, Accepts (elements i) (step (elements i).rest c) ((elements i).accept c false) :=
    fun i hi => accept_counted (h.counter i hi)
  rw [trimList_eq hcand]
  constructor
  case list =>
    dsimp only
    conv_lhs => rw [h.list, List.filter_filter]
    refine List.filter_congr fun i hi => ?_
    cases hu : run (before i).path u with
    | none => simp [run_append, hu]
    | some q =>
      have hmem : i ∈ candidates := by
        rw [h.list, List.mem_filter, hu]
        exact ⟨hi, rfl⟩
      rw [(haccept i hmem).valid, hrun i hmem]
      simp
  case path =>
    intro i
    dsimp only
    split
    · rename_i hi
      rw [(haccept i hi).path, h.path]
    · exact h.path i
  case handler =>
    intro i
    dsimp only
    split
    · rename_i hi
      rw [(haccept i hi).handler, h.handler]
    · exact h.handler i
  case counter =>
    intro i hi
    have hmem := (List.mem_filter.mp hi).1
    dsimp only
    rw [if_pos hmem, (haccept i hmem).path]
    exact (haccept i hmem).counter
  case rest =>
    intro i hi
    obtain ⟨hmem, hvalid⟩ := List.mem_filter.mp hi
    rw [(haccept i hmem).valid] at hvalid
    obtain ⟨q, hq⟩ := Option.isSome_iff_exists.mp hvalid
    dsimp only
    rw [if_pos hmem, hrun i hmem, hq, (haccept i hmem).rest q hq]

theorem tracks_feed (hnd : used.Nodup) (before : PathIndex → CoAPPath) (c : UInt8) (u : List UInt8) :
    let r := feed (c :: u) true (used, before)
    Tracks used before (c :: u) r.1 r.2 := by
  induction u using List.reverseRecOn with
  | nil => exact tracks_first hnd before c
  | append_singleton u d ih =>
    rw [← List.cons_append, feed_append]
    exact tracks_step hnd ih d

end

/-! ## Which patterns are left -/

/-- A '/' comes after the first zero of the path. -/
def SlashAfterZero (path : List UInt8) : Prop := slash ∈ path.dropWhile fun c => c ≠ 0

/-- The path ends in zeros, and without them it matches the pattern, which does
not end in '^'. -/
structure ZeroEnd (pattern path : List UInt8) : Prop where
  zero : 0 ∈ path
  zeros : ∀ c ∈ path.dropWhile fun c => c ≠ 0, c = 0
  head : Matches slash caret pattern (path.takeWhile fun c => c ≠ 0)
  last : pattern.getLast? ≠ some caret

section
variable {pattern path q u v : List UInt8} {c : UInt8}

theorem run_of_zero_notMem (h0 : 0 ∉ u) (q : List UInt8) : run q u = remainder slash caret q u := by
  induction u generalizing q with
  | nil => rfl
  | cons c u ih =>
    have hc : c ≠ 0 := fun hc => h0 (by rw [hc]; exact List.mem_cons_self)
    rw [run, remainder, step, if_neg hc]
    cases advance slash caret q c with
    | none => rfl
    | some q => exact ih (fun hmem => h0 (List.mem_cons_of_mem _ hmem)) q

theorem step_zero (q : List UInt8) : step q 0 = if AtEnd caret q then some q else none := if_pos rfl

/-- At the end of a pattern only zeros are taken. -/
theorem run_nil_isSome : (run [] v).isSome ↔ ∀ c ∈ v, c = 0 := by
  induction v with
  | nil => exact iff_of_true rfl (by simp)
  | cons c v ih =>
    by_cases hc : c = 0
    · subst hc
      rw [run, step_zero, if_pos (.inl rfl), Option.bind_some, ih]
      simp
    · rw [run, step, if_neg hc]
      simp [advance, hc]

/-- At a '^' at the end anything but a '/' is taken. -/
theorem run_caret_isSome : (run [caret] v).isSome ↔ slash ∉ v := by
  induction v with
  | nil => exact iff_of_true rfl List.not_mem_nil
  | cons c v ih =>
    by_cases hc : c = 0
    · subst hc
      rw [run, step_zero, if_pos (.inr rfl), Option.bind_some, ih, List.mem_cons]
      simp [slash]
    · rw [run, step, if_neg hc]
      by_cases hslash : c = slash
      · subst hslash
        simp [advance]
      · rw [advance, if_pos rfl, if_pos hslash, Option.bind_some, ih, List.mem_cons]
        simp [Ne.symm hslash]

/-- A path without zeros is filtered as it should be. -/
theorem accepts_of_zero_notMem (hp : Segmented slash caret pattern) (h0 : 0 ∉ path) :
    accepts pattern path = true ↔ Matches slash caret pattern path := by
  rw [accepts, run_append, run_of_zero_notMem h0, matches_iff hp slash_ne_caret]
  cases remainder slash caret pattern path with
  | none => simp
  | some q =>
    rw [Option.bind_some, run_singleton, step_zero]
    by_cases he : AtEnd caret q <;> simp [he]

theorem ne_zero_of_notMem (h0 : 0 ∉ u) : ∀ c ∈ u, decide (c ≠ 0) = true := by
  intro c hc
  exact decide_eq_true (ne_of_mem_of_not_mem hc h0)

theorem takeWhile_ne_zero (h0 : 0 ∉ u) (v : List UInt8) : (u ++ 0 :: v).takeWhile (fun c => c ≠ 0) = u := by
  rw [List.takeWhile_append_of_pos (ne_zero_of_notMem h0)]
  simp

theorem dropWhile_ne_zero (h0 : 0 ∉ u) (v : List UInt8) : (u ++ 0 :: v).dropWhile (fun c => c ≠ 0) = 0 :: v := by
  rw [List.dropWhile_append_of_pos (ne_zero_of_notMem h0)]
  simp

theorem slashAfterZero_iff (h0 : 0 ∉ u) : SlashAfterZero (u ++ 0 :: v) ↔ slash ∈ v := by
  rw [SlashAfterZero, dropWhile_ne_zero h0, List.mem_cons]
  simp [slash]

theorem zeroEnd_iff (h0 : 0 ∉ u) : ZeroEnd pattern (u ++ 0 :: v) ↔
    (∀ c ∈ v, c = 0) ∧ Matches slash caret pattern u ∧ pattern.getLast? ≠ some caret := by
  constructor
  · rintro ⟨_, hzeros, hhead, hlast⟩
    rw [dropWhile_ne_zero h0] at hzeros
    rw [takeWhile_ne_zero h0] at hhead
    exact ⟨fun c hc => hzeros c (List.mem_cons_of_mem _ hc), hhead, hlast⟩
  · rintro ⟨hzeros, hhead, hlast⟩
    refine ⟨by simp, ?_, ?_, hlast⟩
    · rw [dropWhile_ne_zero h0]
      intro c hc
      exact (List.mem_cons.mp hc).elim id (hzeros c)
    · rw [takeWhile_ne_zero h0]
      exact hhead

/-- Before a zero, either all of the pattern is taken or its '^' at the end is
reached. -/
theorem remainder_end (h : remainder slash caret pattern u = some q) (he : AtEnd caret q) :
    q = [] ∧ pattern.getLast? ≠ some caret ∨ q = [caret] ∧ pattern.getLast? = some caret := by
  rcases he with rfl | rfl
  · left
    refine ⟨rfl, fun hlast => ?_⟩
    cases getLast_of_remainder h slash_ne_caret hlast
  · right
    refine ⟨rfl, ?_⟩
    obtain ⟨p, rfl⟩ := suffix_of_remainder h
    exact List.getLast?_concat

/-- In a pattern without zeros only a '^' can stand for a zero, and before the
end it is followed by a '/'. -/
theorem eq_caret_of_matches_zero (hq : Segmented slash caret q) (h0 : 0 ∉ q) (h : Matches slash caret q (0 :: v))
    (hv : slash ∉ v) : q = [caret] := by
  cases q with
  | nil => cases matches_nil.mp h
  | cons d q =>
    by_cases hd : d = caret
    · subst hd
      rcases hq.star_cons with rfl | ⟨r, rfl⟩
      · rfl
      · have hmem := h.sep_mem slash_ne_caret (by simp)
        simp [slash] at hmem
        exact absurd hmem hv
    · obtain ⟨t, ht, _⟩ := (matches_char hd).mp h
      cases ht
      exact absurd List.mem_cons_self h0

/-- A path is split at its first zero. -/
theorem accepts_of_zero (hp : Segmented slash caret pattern) (hz : 0 ∉ pattern) (h0 : 0 ∉ u) :
    accepts pattern (u ++ 0 :: v) = true ↔
      Matches slash caret pattern (u ++ 0 :: v) ∧ slash ∉ v ∨
        (∀ c ∈ v, c = 0) ∧ Matches slash caret pattern u ∧ pattern.getLast? ≠ some caret := by
  have hzero : ∀ q, run q (0 :: v ++ [0]) = if AtEnd caret q then run q (v ++ [0]) else none := by
    intro q
    rw [List.cons_append, run, step_zero]
    split <;> rfl
  rw [accepts, List.append_assoc, run_append, run_of_zero_notMem h0, matches_append hp slash_ne_caret,
    matches_iff (s := u) hp slash_ne_caret]
  cases hrest : remainder slash caret pattern u with
  | none => simp
  | some q =>
    have hsub := suffix_of_remainder hrest
    have hq0 : 0 ∉ q := fun hmem => hz (hsub.subset hmem)
    rw [Option.bind_some, hzero]
    by_cases he : AtEnd caret q
    · rw [if_pos he]
      rcases remainder_end hrest he with ⟨rfl, hlast⟩ | ⟨rfl, hlast⟩
      · rw [run_nil_isSome]
        simp [matches_nil, hlast, AtEnd, or_imp]
      · rw [run_caret_isSome]
        simp [matches_star_only, hlast, slash]
    · rw [if_neg he]
      refine iff_of_false (by simp) ?_
      rintro (⟨⟨q', hq', hmatch⟩, hv⟩ | ⟨_, ⟨q', hq', he'⟩, _⟩)
      · cases hq'
        exact he (.inr (eq_caret_of_matches_zero (hp.suffix hsub) hq0 hmatch hv))
      · cases hq'
        exact he he'

/-- The patterns that are left at the end of the path. -/
theorem accepts_iff (hp : Segmented slash caret pattern) (hz : 0 ∉ pattern) : accepts pattern path = true ↔
    Matches slash caret pattern path ∧ ¬ SlashAfterZero path ∨ ZeroEnd pattern path := by
  by_cases h0 : 0 ∈ path
  · obtain ⟨u, v, rfl, hu⟩ := List.eq_append_cons_of_mem h0
    rw [accepts_of_zero hp hz hu, slashAfterZero_iff hu, zeroEnd_iff hu]
  · have hslash : ¬ SlashAfterZero path := by
      have hdrop : path.dropWhile (fun c => c ≠ 0) = [] := List.dropWhile_eq_nil_iff.mpr (ne_zero_of_notMem h0)
      rw [SlashAfterZero, hdrop]
      exact List.not_mem_nil
    rw [accepts_of_zero_notMem hp h0]
    constructor
    · intro h
      exact .inl ⟨h, hslash⟩
    · rintro (⟨h, _⟩ | h)
      · exact h
      · exact absurd h.zero h0

/-- What is left because of zeros at the end does not match. -/
theorem ZeroEnd.not_matches (h : ZeroEnd pattern path) (hp : Segmented slash caret pattern) (hz : 0 ∉ pattern) :
    ¬ Matches slash caret pattern path ∧ ¬ SlashAfterZero path := by
  obtain ⟨u, v, rfl, hu⟩ := List.eq_append_cons_of_mem h.zero
  obtain ⟨hzeros, hhead, hlast⟩ := (zeroEnd_iff hu).mp h
  have hv : slash ∉ v := fun hmem => absurd (hzeros _ hmem) (by decide)
  refine ⟨fun hmatch => ?_, fun hslash => hv ((slashAfterZero_iff hu).mp hslash)⟩
  obtain ⟨q, hq, hmatch⟩ := (matches_append hp slash_ne_caret).mp hmatch
  have hsub := suffix_of_remainder hq
  have hcaret := eq_caret_of_matches_zero (hp.suffix hsub) (fun hmem => hz (hsub.subset hmem)) hmatch hv
  subst hcaret
  obtain ⟨p, rfl⟩ := hsub
  exact hlast List.getLast?_concat

end

end CpuScheduler.L6
