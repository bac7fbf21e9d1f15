import Mathlib

/-!
# Labelled transition systems

Every component of the kernel that is called step after step (the network
stack handler, the socket manager) is an `LTS`: its constructor gives the
initial states, one label is one call. A property of every reachable state
is proved by `Inductive`: it holds initially and each step keeps it.
`Guarded` restricts the steps of a system, for the results that hold along
the runs whose steps all meet a condition.
-/
namespace CpuScheduler

variable {S L : Type}

structure LTS (S L : Type) where
  init : S → Prop
  step : S → L → S → Prop

namespace LTS

/-- `M.Run s ls t`: the calls `ls`, in order, lead from `s` to `t`. -/
inductive Run (M : LTS S L) : S → List L → S → Prop where
  | nil (s : S) : Run M s [] s
  | cons {s t u : S} {l : L} {ls : List L} : M.step s l t → Run M t ls u → Run M s (l :: ls) u

def Reachable (M : LTS S L) (t : S) : Prop := ∃ s ls, M.init s ∧ M.Run s ls t

/-- `I` holds initially and every step keeps it. -/
structure Inductive (M : LTS S L) (I : S → Prop) : Prop where
  init : ∀ s, M.init s → I s
  step : ∀ s l t, I s → M.step s l t → I t

/-- The steps of `M` taken from a state and with a label that satisfy `P`. -/
def Guarded (M : LTS S L) (P : S → L → Prop) : LTS S L where
  init := M.init
  step s l t := P s l ∧ M.step s l t

theorem Run.keeps {M : LTS S L} {I : S → Prop} (hI : ∀ s l t, I s → M.step s l t → I t)
    {s t : S} {ls : List L} (hr : M.Run s ls t) (hs : I s) : I t := by
  induction hr with
  | nil => exact hs
  | cons h _ ih => exact ih (hI _ _ _ hs h)

theorem Inductive.reachable {M : LTS S L} {I : S → Prop} (hI : M.Inductive I) (t : S)
    (ht : M.Reachable t) : I t := by
  obtain ⟨s, ls, h0, hr⟩ := ht
  exact hr.keeps hI.step (hI.init s h0)

theorem Run.append {M : LTS S L} {s t u : S} {ls ks : List L} (h1 : M.Run s ls t)
    (h2 : M.Run t ks u) : M.Run s (ls ++ ks) u := by
  induction h1 with
  | nil => exact h2
  | cons h _ ih => exact .cons h (ih h2)

theorem Reachable.step {M : LTS S L} {s t : S} {l : L} (hs : M.Reachable s) (h : M.step s l t) :
    M.Reachable t := by
  obtain ⟨s0, ls, h0, hr⟩ := hs
  exact ⟨s0, ls ++ [l], h0, hr.append (.cons h (.nil t))⟩

theorem Reachable.run {M : LTS S L} {s t : S} {ls : List L} (hs : M.Reachable s)
    (h : M.Run s ls t) : M.Reachable t := by
  obtain ⟨s0, ks, h0, hr⟩ := hs
  exact ⟨s0, ks ++ ls, h0, hr.append h⟩

/-- A weaker guard allows the run too. -/
theorem Run.mono {M : LTS S L} {P Q : S → L → Prop} {s t : S} {ls : List L} (hr : (M.Guarded P).Run s ls t)
    (h : ∀ s l, P s l → Q s l) : (M.Guarded Q).Run s ls t := by
  induction hr with
  | nil => exact .nil _
  | cons hstep _ ih => exact .cons ⟨h _ _ hstep.1, hstep.2⟩ ih

/-- A run of a guarded system is one of the full system. -/
theorem Run.of_guarded {M : LTS S L} {P : S → L → Prop} {s t : S} {ls : List L}
    (hr : (M.Guarded P).Run s ls t) : M.Run s ls t := by
  induction hr with
  | nil => exact .nil _
  | cons h _ ih => exact .cons h.2 ih

end LTS

end CpuScheduler
