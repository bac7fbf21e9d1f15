import Mathlib

/-!
# Text typed line by line

What has been typed: the finished lines, and the one that is being typed. A
line is finished by an end of line or when it is full. A window of fixed
height shows the last lines (`top`).

`charAt` is what a reader of the paper needs: typing a character changes it at
one place, and finishing a line does not change it at all.
-/
namespace CpuScheduler

structure Paper (α : Type) (width : Nat) where
  finished : List (List α)
  current : List α
  fits : ∀ l ∈ finished, l.length ≤ width
  short : current.length < width

namespace Paper

variable {α : Type} {width : Nat} {p : Paper α width}

/-- The lines below the current one are empty. -/
def line (p : Paper α width) (k : Nat) : List α := (p.finished ++ [p.current]).getD k []

def charAt (p : Paper α width) (k j : Nat) : Option α := (p.line k)[j]?

/-- The first line in a window of this height. -/
def top (height : Nat) (p : Paper α width) : Nat := p.finished.length + 1 - height

theorem fits_finish {finished : List (List α)} {l : List α} (hfits : ∀ l ∈ finished, l.length ≤ width)
    (hl : l.length ≤ width) : ∀ l' ∈ finished ++ [l], l'.length ≤ width := by
  intro l' hl'
  rcases List.mem_append.mp hl' with hin | hlast
  · exact hfits l' hin
  · rw [List.mem_singleton.mp hlast]
    exact hl

theorem fits_nil : ∀ l ∈ ([] : List (List α)), l.length ≤ width := fun _ h => absurd h List.not_mem_nil

theorem length_append_one (l : List α) (c : α) : (l ++ [c]).length = l.length + 1 := by simp

theorem short_append {l : List α} (h : l.length + 1 < width) (c : α) : (l ++ [c]).length < width := by
  rwa [length_append_one]

theorem full_le (p : Paper α width) (c : α) : (p.current ++ [c]).length ≤ width := by
  rw [length_append_one]
  exact p.short

section Typing
variable [NeZero width]

def blank : Paper α width := ⟨[], [], fits_nil, NeZero.pos width⟩

def newline (p : Paper α width) : Paper α width :=
  ⟨p.finished ++ [p.current], [], fits_finish p.fits p.short.le, NeZero.pos width⟩

/-- A line that is full is finished at once. -/
def put (p : Paper α width) (c : α) : Paper α width :=
  if h : p.current.length + 1 < width then ⟨p.finished, p.current ++ [c], p.fits, short_append h c⟩
  else ⟨p.finished ++ [p.current ++ [c]], [], fits_finish p.fits (p.full_le c), NeZero.pos width⟩

/-- `none` is an end of line. -/
def type (p : Paper α width) : Option α → Paper α width
  | none => p.newline
  | some c => p.put c

def typeAll (p : Paper α width) (cs : List (Option α)) : Paper α width := cs.foldl type p

end Typing

/-! ## One character -/

theorem getD_concat (ls : List (List α)) (l : List α) (k : Nat) :
    (ls ++ [l]).getD k [] = if k = ls.length then l else ls.getD k [] := by
  rcases Nat.lt_trichotomy k ls.length with hlt | heq | hgt
  · rw [List.getD_append _ _ _ _ hlt, if_neg (by omega)]
  · rw [List.getD_append_right _ _ _ _ (by omega), if_pos heq, heq, Nat.sub_self]
    rfl
  · rw [List.getD_eq_default _ _ (by simp; omega), if_neg (by omega), List.getD_eq_default _ _ (by omega)]

theorem line_eq (p : Paper α width) (k : Nat) :
    p.line k = if k = p.finished.length then p.current else p.finished.getD k [] :=
  getD_concat p.finished p.current k

theorem charAt_current (p : Paper α width) (j : Nat) : p.charAt p.finished.length j = p.current[j]? := by
  rw [charAt, line_eq, if_pos rfl]

theorem charAt_below {k j : Nat} (hk : p.finished.length < k) : p.charAt k j = none := by
  rw [charAt, line_eq, if_neg (by omega), List.getD_eq_default _ _ (by omega)]
  rfl

theorem charAt_free {j : Nat} (hj : p.current.length ≤ j) : p.charAt p.finished.length j = none := by
  rw [charAt_current]
  exact List.getElem?_eq_none hj

section Typing
variable [NeZero width]

theorem finished_put (p : Paper α width) (c : α) :
    (p.put c).finished.length = if p.current.length + 1 < width then p.finished.length else p.finished.length + 1 := by
  unfold put
  split <;> simp

theorem current_put (p : Paper α width) (c : α) :
    (p.put c).current.length = if p.current.length + 1 < width then p.current.length + 1 else 0 := by
  unfold put
  split <;> simp

/-- Finishing a line changes no character. -/
theorem charAt_newline (p : Paper α width) (k j : Nat) : p.newline.charAt k j = p.charAt k j := by
  have hline : p.newline.line k = p.line k := by
    rw [line_eq, newline]
    dsimp only
    split
    · rename_i hk
      rw [line, List.getD_eq_default _ _ (by omega)]
    · rfl
  rw [charAt, hline, charAt]

/-- A character is put at the end of the current line. -/
theorem charAt_put (p : Paper α width) (c : α) (k j : Nat) : (p.put c).charAt k j =
    if k = p.finished.length ∧ j = p.current.length then some c else p.charAt k j := by
  have hline : (p.put c).line k = if k = p.finished.length then p.current ++ [c] else p.line k := by
    rw [line_eq, line_eq, put]
    split
    · split <;> rfl
    · rw [getD_concat, List.length_append, List.length_singleton]
      by_cases hk : k = p.finished.length
      · rw [if_neg (by omega), if_pos hk, if_pos hk]
      · rw [if_neg hk, if_neg hk, if_neg hk]
        split
        · rw [List.getD_eq_default _ _ (by omega)]
        · rfl
  rw [charAt, hline]
  by_cases hk : k = p.finished.length
  · subst hk
    rw [if_pos rfl, charAt_current, List.getElem?_append]
    split
    · rw [if_neg (by omega)]
    · rename_i hj
      by_cases heq : j = p.current.length
      · rw [if_pos ⟨rfl, heq⟩, heq, Nat.sub_self]
        rfl
      · rw [if_neg (fun h => heq h.2), List.getElem?_eq_none (by simp; omega), List.getElem?_eq_none (by omega)]
  · rw [if_neg hk, if_neg (fun h => hk h.1)]
    rfl

end Typing

end Paper

end CpuScheduler
