import Mathlib

/-!
# Lists of extents

An extent is a half-open interval that is not empty. A list of extents stands
for the points it covers. `Ordered` lists go upwards without overlap, and in
`Separated` lists there is a gap between any two extents: such a list is
determined by the points it covers (`Separated.ext`), and `coalesce` brings an
ordered list into this form.
-/
namespace CpuScheduler

/-- The points from `lo` on, below `hi`. -/
@[ext] structure Extent (α : Type) [LT α] where
  lo : α
  hi : α
  lo_lt_hi : lo < hi
  deriving DecidableEq

namespace Extent

variable {α : Type} [LinearOrder α]

instance : Membership α (Extent α) := ⟨fun i x => i.lo ≤ x ∧ x < i.hi⟩

instance (i : Extent α) (x : α) : Decidable (x ∈ i) := inferInstanceAs (Decidable (i.lo ≤ x ∧ x < i.hi))

theorem mem_def {i : Extent α} {x : α} : x ∈ i ↔ i.lo ≤ x ∧ x < i.hi := Iff.rfl

theorem lo_mem (i : Extent α) : i.lo ∈ i := ⟨le_refl _, i.lo_lt_hi⟩

/-- One extent, and one that begins where it ends. -/
def join (i j : Extent α) (h : i.hi = j.lo) : Extent α := ⟨i.lo, j.hi, i.lo_lt_hi.trans (h ▸ j.lo_lt_hi)⟩

theorem mem_join {i j : Extent α} (h : i.hi = j.lo) {x : α} : x ∈ i.join j h ↔ x ∈ i ∨ x ∈ j := by
  have hi := i.lo_lt_hi
  have hj := j.lo_lt_hi
  simp only [mem_def, join]
  constructor
  · intro hx
    rcases lt_or_ge x i.hi with hlt | hge
    · exact .inl ⟨hx.1, hlt⟩
    · exact .inr ⟨h ▸ hge, hx.2⟩
  · intro hx
    rcases hx with hx | hx
    · exact ⟨hx.1, by order⟩
    · exact ⟨by order, hx.2⟩

/-- The extents have no point in common. -/
def Disjoint (i j : Extent α) : Prop := ∀ x ∈ i, x ∉ j

theorem Disjoint.symm {i j : Extent α} (h : i.Disjoint j) : j.Disjoint i := fun x hj hi => h x hi hj

/-- The one that begins first ends before the other. -/
theorem Disjoint.hi_le {i j : Extent α} (h : i.Disjoint j) (hle : i.lo ≤ j.lo) : i.hi ≤ j.lo := by
  by_contra hlt
  exact h j.lo ⟨hle, not_le.mp hlt⟩ j.lo_mem

theorem disjoint_of_hi_le {i j : Extent α} (h : i.hi ≤ j.lo) : i.Disjoint j := by
  intro x hi hj
  exact absurd (hi.2.trans_le h) (not_lt.mpr hj.1)

end Extent

section
variable {α : Type} [LinearOrder α]

def Covers (l : List (Extent α)) (x : α) : Prop := ∃ i ∈ l, x ∈ i

@[simp] theorem covers_nil {x : α} : ¬ Covers [] x := by simp [Covers]

@[simp] theorem covers_cons {i : Extent α} {l : List (Extent α)} {x : α} :
    Covers (i :: l) x ↔ x ∈ i ∨ Covers l x := by
  simp [Covers]

@[simp] theorem covers_append {l l' : List (Extent α)} {x : α} :
    Covers (l ++ l') x ↔ Covers l x ∨ Covers l' x := by
  simp [Covers, or_and_right, exists_or]

theorem covers_of_mem {l : List (Extent α)} {i : Extent α} (hi : i ∈ l) {x : α} (hx : x ∈ i) : Covers l x :=
  ⟨i, hi, hx⟩

theorem covers_perm {l l' : List (Extent α)} (h : l.Perm l') {x : α} : Covers l x ↔ Covers l' x := by
  simp only [Covers, h.mem_iff]

/-- Upwards, without overlap. -/
def Ordered (l : List (Extent α)) : Prop := l.Pairwise fun i j => i.hi ≤ j.lo

/-- Upwards, with a gap between any two. -/
def Separated (l : List (Extent α)) : Prop := l.Pairwise fun i j => i.hi < j.lo

theorem Separated.ordered {l : List (Extent α)} (h : Separated l) : Ordered l := h.imp fun hij => hij.le

/-- Extents of a separated list that touch are the same. -/
theorem Separated.eq_of_touch {l : List (Extent α)} (h : Separated l) {i j : Extent α} (hi : i ∈ l) (hj : j ∈ l)
    (h1 : i.lo ≤ j.hi) (h2 : j.lo ≤ i.hi) : i = j := by
  have hsymm : Std.Symm fun i j : Extent α => i.hi < j.lo ∨ j.hi < i.lo := ⟨fun _ _ h => h.symm⟩
  have hgaps : l.Pairwise fun i j => i.hi < j.lo ∨ j.hi < i.lo := h.imp Or.inl
  by_contra hne
  rcases hgaps.forall hi hj hne with hlt | hlt
  · exact absurd hlt (not_lt.mpr h2)
  · exact absurd hlt (not_lt.mpr h1)

/-- An extent that is covered lies in one extent of a separated list. -/
theorem Separated.exists_le {l : List (Extent α)} (h : Separated l) {i : Extent α} (hi : ∀ x ∈ i, Covers l x) :
    ∃ j ∈ l, j.lo ≤ i.lo ∧ i.hi ≤ j.hi := by
  obtain ⟨j, hj, hlo⟩ := hi i.lo i.lo_mem
  refine ⟨j, hj, hlo.1, ?_⟩
  by_contra hgt
  -- otherwise the end of `j` is covered by another extent
  obtain ⟨k, hk, hend⟩ := hi j.hi ⟨hlo.2.le, not_le.mp hgt⟩
  have hkj := h.eq_of_touch hk hj hend.1 (j.lo_lt_hi.trans hend.2).le
  rw [hkj] at hend
  exact absurd hend.2 (lt_irrefl _)

theorem Separated.subset {l l' : List (Extent α)} (h : Separated l) (h' : Separated l')
    (hsame : ∀ x, Covers l x ↔ Covers l' x) : l ⊆ l' := by
  intro i hi
  obtain ⟨j, hj, h1, h2⟩ := h'.exists_le fun x hx => (hsame x).mp (covers_of_mem hi hx)
  obtain ⟨k, hk, h3, h4⟩ := h.exists_le fun x hx => (hsame x).mpr (covers_of_mem hj hx)
  have hki := i.lo_lt_hi
  have hik : i = k := h.eq_of_touch hi hk (by order) (by order)
  subst hik
  have hij : i = j := Extent.ext (le_antisymm h3 h1) (le_antisymm h2 h4)
  rw [hij]
  exact hj

/-- A separated list is determined by the points it covers. -/
theorem Separated.ext {l l' : List (Extent α)} (h : Separated l) (h' : Separated l')
    (hsame : ∀ x, Covers l x ↔ Covers l' x) : l = l' := by
  have hirrefl : Std.Irrefl fun i j : Extent α => i.hi < j.lo := ⟨fun i hlt => absurd (hlt.trans i.lo_lt_hi) (lt_irrefl _)⟩
  have hanti : Std.Antisymm fun i j : Extent α => i.hi < j.lo := by
    refine ⟨fun i j h1 h2 => ?_⟩
    have hi := i.lo_lt_hi
    have hj := j.lo_lt_hi
    exact absurd (h1.trans (hj.trans (h2.trans hi))) (lt_irrefl _)
  exact List.Pairwise.eq_of_mem_iff h h' fun i => ⟨fun hi => h.subset h' hsame hi, fun hi => h'.subset h (fun x => (hsame x).symm) hi⟩

/-! ## Coalescing -/

/-- Extents that touch are joined; `i` is the one that is growing. -/
def coalesceFrom (i : Extent α) : List (Extent α) → List (Extent α)
  | [] => [i]
  | j :: l => if h : i.hi = j.lo then coalesceFrom (i.join j h) l else i :: coalesceFrom j l

def coalesce : List (Extent α) → List (Extent α)
  | [] => []
  | i :: l => coalesceFrom i l

theorem covers_coalesceFrom (i : Extent α) (l : List (Extent α)) {x : α} :
    Covers (coalesceFrom i l) x ↔ Covers (i :: l) x := by
  induction l generalizing i with
  | nil => rfl
  | cons j l ih =>
    unfold coalesceFrom
    split
    · rename_i h
      rw [ih, covers_cons, covers_cons, covers_cons, Extent.mem_join h, or_assoc]
    · rw [covers_cons, covers_cons, ih]

/-- The first extent grows to the right only. -/
theorem lo_le_of_mem_coalesceFrom {i j : Extent α} {l : List (Extent α)} (h : Ordered (i :: l))
    (hj : j ∈ coalesceFrom i l) : i.lo ≤ j.lo := by
  have hcovers : Covers (i :: l) j.lo := (covers_coalesceFrom i l).mp (covers_of_mem hj j.lo_mem)
  rcases covers_cons.mp hcovers with hi | ⟨k, hk, hlo⟩
  · exact hi.1
  · exact i.lo_lt_hi.le.trans (((List.pairwise_cons.mp h).1 k hk).trans hlo.1)

theorem ordered_join {i j : Extent α} {l : List (Extent α)} (h : Ordered (i :: j :: l)) (hij : i.hi = j.lo) :
    Ordered (i.join j hij :: l) := by
  obtain ⟨_, hl⟩ := List.pairwise_cons.mp h
  exact List.pairwise_cons.mpr ⟨(List.pairwise_cons.mp hl).1, (List.pairwise_cons.mp hl).2⟩

theorem separated_coalesceFrom {i : Extent α} {l : List (Extent α)} (h : Ordered (i :: l)) :
    Separated (coalesceFrom i l) := by
  induction l generalizing i with
  | nil => exact List.pairwise_singleton _ _
  | cons j l ih =>
    unfold coalesceFrom
    split
    · rename_i hij
      exact ih (ordered_join h hij)
    · rename_i hij
      obtain ⟨hi, hl⟩ := List.pairwise_cons.mp h
      have hlt : i.hi < j.lo := lt_of_le_of_ne (hi j (by simp)) hij
      exact List.pairwise_cons.mpr ⟨fun k hk => hlt.trans_le (lo_le_of_mem_coalesceFrom hl hk), ih hl⟩

/-- What holds of the extents and of any two that are joined. -/
theorem forall_coalesceFrom {P : Extent α → Prop} (hjoin : ∀ i j h, P i → P j → P (i.join j h)) {i : Extent α}
    {l : List (Extent α)} (h : ∀ j ∈ i :: l, P j) : ∀ j ∈ coalesceFrom i l, P j := by
  induction l generalizing i with
  | nil => exact h
  | cons j l ih =>
    unfold coalesceFrom
    split
    · rename_i hij
      refine ih fun k hk => ?_
      rcases List.mem_cons.mp hk with rfl | hk
      · exact hjoin i j hij (h i (by simp)) (h j (by simp))
      · exact h k (by simp [hk])
    · intro k hk
      rcases List.mem_cons.mp hk with rfl | hk
      · exact h k (by simp)
      · exact ih (fun m hm => h m (List.mem_cons_of_mem _ hm)) k hk

theorem covers_coalesce (l : List (Extent α)) {x : α} : Covers (coalesce l) x ↔ Covers l x := by
  cases l with
  | nil => rfl
  | cons i l => exact covers_coalesceFrom i l

theorem separated_coalesce {l : List (Extent α)} (h : Ordered l) : Separated (coalesce l) := by
  cases l with
  | nil => exact List.Pairwise.nil
  | cons i l => exact separated_coalesceFrom h

theorem forall_coalesce {P : Extent α → Prop} (hjoin : ∀ i j h, P i → P j → P (i.join j h)) {l : List (Extent α)}
    (h : ∀ j ∈ l, P j) : ∀ j ∈ coalesce l, P j := by
  cases l with
  | nil => exact h
  | cons i l => exact forall_coalesceFrom hjoin h

/-! ## Any list of disjoint extents -/

/-- The extents in order, those that touch joined. -/
def coalesced (l : List (Extent α)) : List (Extent α) := coalesce (l.insertionSort fun i j => i.lo ≤ j.lo)

theorem covers_coalesced (l : List (Extent α)) {x : α} : Covers (coalesced l) x ↔ Covers l x := by
  unfold coalesced
  rw [covers_coalesce]
  exact covers_perm (List.perm_insertionSort _ l)

theorem separated_coalesced {l : List (Extent α)} (h : l.Pairwise Extent.Disjoint) : Separated (coalesced l) := by
  have htotal : Std.Total fun i j : Extent α => i.lo ≤ j.lo := ⟨fun i j => le_total i.lo j.lo⟩
  have htrans : IsTrans (Extent α) fun i j => i.lo ≤ j.lo := ⟨fun _ _ _ h1 h2 => h1.trans h2⟩
  have hsorted := List.pairwise_insertionSort (fun i j : Extent α => i.lo ≤ j.lo) l
  have hdisjoint : (l.insertionSort fun i j => i.lo ≤ j.lo).Pairwise Extent.Disjoint :=
    ((List.perm_insertionSort _ l).pairwise_iff fun h => h.symm).mpr h
  refine separated_coalesce ((hsorted.and hdisjoint).imp ?_)
  intro i j hij
  exact hij.2.hi_le hij.1

end

/-! ## Extents of natural numbers -/

theorem length_le_of_ordered {l : List (Extent Nat)} {a b : Nat} (h : Ordered l) (hab : a ≤ b)
    (hl : ∀ i ∈ l, a ≤ i.lo ∧ i.hi ≤ b) : l.length ≤ b - a := by
  induction l generalizing a with
  | nil => exact Nat.zero_le _
  | cons i l ih =>
    obtain ⟨hi, hrest⟩ := List.pairwise_cons.mp h
    have hlt := i.lo_lt_hi
    obtain ⟨h1, h2⟩ := hl i (by simp)
    have hlen := ih hrest h2 fun j hj => ⟨hi j hj, (hl j (by simp [hj])).2⟩
    rw [List.length_cons]
    omega

end CpuScheduler
