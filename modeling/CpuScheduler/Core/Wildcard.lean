import Mathlib

/-!
# Patterns with a wildcard for a segment

A pattern is a list of characters; `star` stands for any characters but `sep`,
possibly none. In a segmented pattern every `star` is in front of a `sep` or
at the end, so a string is matched from left to right without a choice:
`advance` is the rest of the pattern after one character, and a string matches
just if all its characters can be taken and the rest matches the empty string.
-/
namespace CpuScheduler.Wildcard

variable {α : Type} {sep star : α}

inductive Matches (sep star : α) : List α → List α → Prop
  | nil : Matches sep star [] []
  | char {c : α} {p s : List α} : c ≠ star → Matches sep star p s → Matches sep star (c :: p) (c :: s)
  | wild {p segment s : List α} : sep ∉ segment → Matches sep star p s → Matches sep star (star :: p) (segment ++ s)

/-- The pattern matches, and `segments` is what its `star`s stand for. -/
inductive Captures (sep star : α) : List α → List α → List (List α) → Prop
  | nil : Captures sep star [] [] []
  | char {c : α} {p s : List α} {segments : List (List α)} : c ≠ star → Captures sep star p s segments →
    Captures sep star (c :: p) (c :: s) segments
  | wild {p segment s : List α} {segments : List (List α)} : sep ∉ segment → Captures sep star p s segments →
    Captures sep star (star :: p) (segment ++ s) (segment :: segments)

/-- Every `star` is in front of a `sep` or at the end. -/
def Segmented (sep star : α) : List α → Prop
  | [] => True
  | c :: p => (c = star → p = [] ∨ p.head? = some sep) ∧ Segmented sep star p

/-- The rest of a pattern that the empty string matches. -/
def AtEnd (star : α) (p : List α) : Prop := p = [] ∨ p = [star]

section
variable {c : α} {p q s u v : List α}

theorem matches_nil : Matches sep star [] s ↔ s = [] := by
  constructor
  · intro h
    cases h
    rfl
  · rintro rfl
    exact .nil

theorem matches_star : Matches sep star (star :: p) s ↔
    ∃ segment t, s = segment ++ t ∧ sep ∉ segment ∧ Matches sep star p t := by
  constructor
  · intro h
    generalize hp : star :: p = p' at h
    cases h with
    | nil => cases hp
    | char hne =>
      cases hp
      exact absurd rfl hne
    | wild hseg h =>
      cases hp
      exact ⟨_, _, rfl, hseg, h⟩
  · rintro ⟨segment, t, rfl, hseg, h⟩
    exact .wild hseg h

theorem matches_char (hc : c ≠ star) : Matches sep star (c :: p) s ↔ ∃ t, s = c :: t ∧ Matches sep star p t := by
  constructor
  · intro h
    cases h with
    | char _ h => exact ⟨_, rfl, h⟩
    | wild => exact absurd rfl hc
  · rintro ⟨t, rfl, h⟩
    exact .char hc h

theorem matches_iff_captures : Matches sep star p s ↔ ∃ segments, Captures sep star p s segments := by
  constructor
  · intro h
    induction h with
    | nil => exact ⟨[], .nil⟩
    | char hne _ ih =>
      obtain ⟨segments, h⟩ := ih
      exact ⟨segments, .char hne h⟩
    | wild hseg _ ih =>
      obtain ⟨segments, h⟩ := ih
      exact ⟨_, .wild hseg h⟩
  · intro ⟨segments, h⟩
    induction h with
    | nil => exact .nil
    | char hne _ ih => exact .char hne ih
    | wild hseg _ ih => exact .wild hseg ih

theorem captures_nil {segments : List (List α)} : Captures sep star [] s segments ↔ s = [] ∧ segments = [] := by
  constructor
  · intro h
    cases h
    exact ⟨rfl, rfl⟩
  · rintro ⟨rfl, rfl⟩
    exact .nil

theorem captures_star {segments : List (List α)} : Captures sep star (star :: p) s segments ↔
    ∃ segment t rest, s = segment ++ t ∧ segments = segment :: rest ∧ sep ∉ segment ∧ Captures sep star p t rest := by
  constructor
  · intro h
    generalize hp : star :: p = p' at h
    cases h with
    | nil => cases hp
    | char hne =>
      cases hp
      exact absurd rfl hne
    | wild hseg h =>
      cases hp
      exact ⟨_, _, _, rfl, rfl, hseg, h⟩
  · rintro ⟨segment, t, rest, rfl, rfl, hseg, h⟩
    exact .wild hseg h

/-- Characters other than `star` stand for themselves. -/
theorem captures_literal {segments : List (List α)} (hu : star ∉ u) : Captures sep star (u ++ p) s segments ↔
    ∃ t, s = u ++ t ∧ Captures sep star p t segments := by
  induction u generalizing s with
  | nil => simp
  | cons c u ih =>
    obtain ⟨hc, hu⟩ := not_or.mp (mt List.mem_cons.mpr hu)
    constructor
    · intro h
      cases h with
      | char _ h =>
        obtain ⟨t, rfl, hrest⟩ := (ih hu).mp h
        exact ⟨t, rfl, hrest⟩
      | wild => exact absurd rfl hc
    · rintro ⟨t, rfl, h⟩
      exact .char (Ne.symm hc) ((ih hu).mpr ⟨t, rfl, h⟩)

/-- The separators of the pattern are separators of the string. -/
theorem Matches.sep_mem (h : Matches sep star p s) (hne : sep ≠ star) (hsep : sep ∈ p) : sep ∈ s := by
  induction h with
  | nil => exact hsep
  | char _ _ ih =>
    rcases List.mem_cons.mp hsep with rfl | hsep
    · exact List.mem_cons_self
    · exact List.mem_cons_of_mem _ (ih hsep)
  | wild _ _ ih =>
    refine List.mem_append_right _ (ih ?_)
    exact (List.mem_cons.mp hsep).resolve_left hne

theorem Segmented.suffix (h : Segmented sep star p) (hq : q <:+ p) : Segmented sep star q := by
  induction p with
  | nil =>
    rw [List.suffix_nil.mp hq]
    exact h
  | cons c p ih =>
    rcases List.suffix_cons_iff.mp hq with rfl | hq
    · exact h
    · exact ih h.2 hq

/-- What follows a `star`. -/
theorem Segmented.star_cons (h : Segmented sep star (star :: p)) : p = [] ∨ ∃ q, p = sep :: q := by
  rcases h.1 rfl with rfl | hhead
  · exact .inl rfl
  · cases p with
    | nil => cases hhead
    | cons d q =>
      cases hhead
      exact .inr ⟨q, rfl⟩

theorem matches_empty (hp : Segmented sep star p) (hne : sep ≠ star) : Matches sep star p [] ↔ AtEnd star p := by
  constructor
  · intro h
    cases p with
    | nil => exact .inl rfl
    | cons c p =>
      by_cases hc : c = star
      · subst hc
        rcases hp.star_cons with rfl | ⟨q, rfl⟩
        · exact .inr rfl
        · exact absurd (h.sep_mem hne (by simp)) List.not_mem_nil
      · obtain ⟨t, ht, _⟩ := (matches_char hc).mp h
        cases ht
  · rintro (rfl | rfl)
    · exact .nil
    · exact matches_star.mpr ⟨[], [], rfl, List.not_mem_nil, .nil⟩

theorem matches_star_only : Matches sep star [star] s ↔ sep ∉ s := by
  constructor
  · intro h
    obtain ⟨segment, t, rfl, hseg, ht⟩ := matches_star.mp h
    rw [matches_nil.mp ht, List.append_nil]
    exact hseg
  · intro h
    have hwild : Matches sep star [star] (s ++ []) := .wild h .nil
    rwa [List.append_nil] at hwild

end

/-! ## One character after the other -/

section
variable [DecidableEq α] {c : α} {p q s u v : List α}

instance (star : α) (p : List α) : Decidable (AtEnd star p) := inferInstanceAs (Decidable (_ ∨ _))

/-- The rest of the pattern after one more character. -/
def advance (sep star : α) : List α → α → Option (List α)
  | [], _ => none
  | d :: p, c =>
    if d = star then
      if c ≠ sep then some (d :: p) else if p.head? = some c then some p.tail else none
    else if d = c then some p else none

/-- The rest of the pattern after a string. -/
def remainder (sep star : α) : List α → List α → Option (List α)
  | p, [] => some p
  | p, c :: s => (advance sep star p c).bind fun q => remainder sep star q s

theorem advance_cases (h : advance sep star p c = some q) :
    (∃ p', p = star :: p' ∧ c ≠ sep ∧ q = p) ∨ (p = star :: sep :: q ∧ c = sep) ∨ (p = c :: q ∧ c ≠ star) := by
  cases p with
  | nil => cases h
  | cons d p =>
    rw [advance] at h
    by_cases hd : d = star
    · subst hd
      rw [if_pos rfl] at h
      by_cases hc : c = sep
      · subst hc
        rw [if_neg (by simp)] at h
        split at h
        · rename_i hhead
          cases p with
          | nil => cases hhead
          | cons e p =>
            cases hhead
            cases h
            exact .inr (.inl ⟨rfl, rfl⟩)
        · cases h
      · rw [if_pos hc] at h
        cases h
        exact .inl ⟨p, rfl, hc, rfl⟩
    · rw [if_neg hd] at h
      split at h
      · rename_i heq
        subst heq
        cases h
        exact .inr (.inr ⟨rfl, hd⟩)
      · cases h

theorem suffix_of_advance (h : advance sep star p c = some q) : q <:+ p := by
  rcases advance_cases h with ⟨p', rfl, _, rfl⟩ | ⟨rfl, _⟩ | ⟨rfl, _⟩
  · exact List.suffix_refl _
  · exact ⟨[star, sep], rfl⟩
  · exact ⟨[c], rfl⟩

theorem suffix_of_remainder (h : remainder sep star p s = some q) : q <:+ p := by
  induction s generalizing p with
  | nil =>
    cases h
    exact List.suffix_refl _
  | cons c s ih =>
    obtain ⟨r, hr, h⟩ := Option.bind_eq_some_iff.mp h
    exact (ih h).trans (suffix_of_advance hr)

/-- A `star` at the end of the pattern stays. -/
theorem getLast_of_remainder (h : remainder sep star p s = some q) (hne : sep ≠ star) (hlast : p.getLast? = some star) :
    q.getLast? = some star := by
  induction s generalizing p with
  | nil =>
    cases h
    exact hlast
  | cons c s ih =>
    obtain ⟨r, hr, h⟩ := Option.bind_eq_some_iff.mp h
    refine ih h ?_
    rcases advance_cases hr with ⟨p', rfl, _, rfl⟩ | ⟨rfl, _⟩ | ⟨rfl, hc⟩
    · exact hlast
    · cases r with
      | nil => exact absurd (by simpa using hlast) hne
      | cons d r => simpa using hlast
    · cases r with
      | nil =>
        cases hlast
        exact absurd rfl hc
      | cons d r => simpa using hlast

/-- One character of the string is one step of the pattern. -/
theorem matches_cons (hp : Segmented sep star p) (hne : sep ≠ star) :
    Matches sep star p (c :: s) ↔ ∃ q, advance sep star p c = some q ∧ Matches sep star q s := by
  constructor
  · intro h
    cases p with
    | nil => cases matches_nil.mp h
    | cons d p =>
      by_cases hd : d = star
      · subst hd
        obtain ⟨segment, t, ht, hseg, hrest⟩ := matches_star.mp h
        cases segment with
        | cons e segment =>
          cases ht
          have hc : c ≠ sep := fun heq => hseg (by rw [heq]; exact List.mem_cons_self)
          refine ⟨d :: p, by rw [advance, if_pos rfl, if_pos hc], .wild (fun hmem => ?_) hrest⟩
          exact hseg (List.mem_cons_of_mem _ hmem)
        | nil =>
          -- the wildcard stands for nothing, so the character is the separator
          cases ht
          rcases hp.star_cons with rfl | ⟨q, rfl⟩
          · cases matches_nil.mp hrest
          · obtain ⟨t, ht, hrest⟩ := (matches_char hne).mp hrest
            cases ht
            exact ⟨q, by simp [advance], hrest⟩
      · obtain ⟨t, ht, hrest⟩ := (matches_char hd).mp h
        cases ht
        exact ⟨p, by rw [advance, if_neg hd, if_pos rfl], hrest⟩
  · rintro ⟨q, hq, h⟩
    rcases advance_cases hq with ⟨p', rfl, hc, rfl⟩ | ⟨rfl, rfl⟩ | ⟨rfl, hc⟩
    · obtain ⟨segment, t, rfl, hseg, hrest⟩ := matches_star.mp h
      refine matches_star.mpr ⟨c :: segment, t, rfl, fun hmem => ?_, hrest⟩
      exact (List.mem_cons.mp hmem).elim (fun heq => hc heq.symm) hseg
    · exact matches_star.mpr ⟨[], _, rfl, List.not_mem_nil, .char hne h⟩
    · exact .char hc h

/-- A string matches just if its characters can be taken and nothing is left
that has to be matched. -/
theorem matches_append (hp : Segmented sep star p) (hne : sep ≠ star) :
    Matches sep star p (u ++ v) ↔ ∃ q, remainder sep star p u = some q ∧ Matches sep star q v := by
  induction u generalizing p with
  | nil => exact ⟨fun h => ⟨p, rfl, h⟩, fun ⟨q, hq, h⟩ => by cases hq; exact h⟩
  | cons c u ih =>
    rw [List.cons_append, matches_cons hp hne, remainder]
    constructor
    · rintro ⟨q, hq, h⟩
      obtain ⟨r, hr, h⟩ := (ih (hp.suffix (suffix_of_advance hq))).mp h
      exact ⟨r, by rw [hq, Option.bind_some, hr], h⟩
    · rintro ⟨r, hr, h⟩
      obtain ⟨q, hq, hr⟩ := Option.bind_eq_some_iff.mp hr
      exact ⟨q, hq, (ih (hp.suffix (suffix_of_advance hq))).mpr ⟨r, hr, h⟩⟩

theorem matches_iff (hp : Segmented sep star p) (hne : sep ≠ star) :
    Matches sep star p s ↔ ∃ q, remainder sep star p s = some q ∧ AtEnd star q := by
  have happend := matches_append (u := s) (v := []) hp hne
  rw [List.append_nil] at happend
  rw [happend]
  refine exists_congr fun q => and_congr_right fun hq => ?_
  exact matches_empty (hp.suffix (suffix_of_remainder hq)) hne

end

end CpuScheduler.Wildcard
