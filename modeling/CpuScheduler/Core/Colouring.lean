import CpuScheduler.Core.Runs

/-!
# Regions that are told apart by colours

A map gives each cell below `bound` a colour; `free` is the colour of a cell
that nobody uses. The boundaries of a region are not stored: a region has one
colour, and the cells next to it have another (`Coloured`). So the run of
equal colours from the first cell of a region is the region
(`Coloured.runLen_eq`). Painting a new region in a colour that its neighbours
do not have keeps this, and so does erasing a region.
-/
namespace CpuScheduler

/-- `size` cells from `first` on. -/
structure Region where
  first : Nat
  size : Nat
  pos : 0 < size

namespace Region

def Mem (r : Region) (p : Nat) : Prop := r.first ≤ p ∧ p < r.first + r.size

instance (r : Region) (p : Nat) : Decidable (r.Mem p) := inferInstanceAs (Decidable (_ ∧ _))

theorem first_mem (r : Region) : r.Mem r.first := ⟨Nat.le_refl _, Nat.lt_add_of_pos_right r.pos⟩

end Region

variable {C : Type}

/-- The map with the cells of a region in one colour. -/
def paint (code : Nat → C) (r : Region) (c : C) : Nat → C := fun p => if r.Mem p then c else code p

theorem paint_mem {code : Nat → C} {r : Region} {p : Nat} (c : C) (h : r.Mem p) : paint code r c p = c := if_pos h

theorem paint_other {code : Nat → C} {r : Region} {p : Nat} (c : C) (h : ¬ r.Mem p) :
    paint code r c p = code p := if_neg h

/-- The used cells are the `fixed` ones and those of the `live` regions, which
are disjoint and differ in colour from the cells next to them. -/
structure Coloured (free : C) (bound : Nat) (code : Nat → C) (fixed : Set Nat) (live : Set Region) : Prop where
  used : ∀ p, p < bound → (code p ≠ free ↔ p ∈ fixed ∨ ∃ r ∈ live, r.Mem p)
  below : ∀ r ∈ live, r.first + r.size ≤ bound
  disjoint : ∀ r ∈ live, ∀ r' ∈ live, r ≠ r' → ∀ p, r.Mem p → ¬ r'.Mem p
  unfixed : ∀ r ∈ live, ∀ p, r.Mem p → p ∉ fixed
  colour : ∀ r ∈ live, ∃ c, c ≠ free ∧ (∀ p, r.Mem p → code p = c) ∧
    (0 < r.first → code (r.first - 1) ≠ c) ∧ (r.first + r.size < bound → code (r.first + r.size) ≠ c)

namespace Coloured

variable {free : C} {bound : Nat} {code : Nat → C} {fixed : Set Nat} {live : Set Region}

/-- Cells on both sides of a region's boundary. -/
theorem touching (h : Coloured free bound code fixed live) {r : Region} (hr : r ∈ live) {p q : Nat}
    (hp : r.Mem p) (hq : ¬ r.Mem q) (hnext : q = p + 1 ∨ p = q + 1) (hbound : q < bound) : code p ≠ code q := by
  obtain ⟨c, -, hall, hbefore, hbehind⟩ := h.colour r hr
  rw [hall p hp]
  unfold Region.Mem at hp hq
  intro he
  cases hnext with
  | inl hnext =>
    have hq' : q = r.first + r.size := by omega
    rw [hq'] at he hbound
    exact hbehind hbound he.symm
  | inr hnext =>
    have hq' : q = r.first - 1 := by omega
    rw [hq'] at he
    exact hbefore (by omega) he.symm

theorem runLen_eq [DecidableEq C] (h : Coloured free bound code fixed live) {r : Region} (hr : r ∈ live) :
    runLen (fun q => code q == code r.first) (bound - r.first) r.first = r.size := by
  obtain ⟨c, -, hall, -, hbehind⟩ := h.colour r hr
  have hbelow := h.below r hr
  have hpos := r.pos
  rw [hall r.first r.first_mem]
  refine Nat.le_antisymm ?_ ?_
  · by_contra hgt
    have hlt : r.first + r.size < bound := by
      have := runLen_le (P := fun q => code q == c) (bound - r.first) r.first
      omega
    have hend := of_lt_runLen (P := fun q => code q == c) (n := bound - r.first) (p := r.first)
      (q := r.first + r.size) (by omega) (by omega)
    exact hbehind hlt (beq_iff_eq.mp hend)
  · exact le_runLen_iff.mpr ⟨by omega, fun q h1 h2 => beq_iff_eq.mpr (hall q ⟨h1, h2⟩)⟩

theorem not_mem_of_free (h : Coloured free bound code fixed live) {r' : Region} (hr' : r' ∈ live) {p : Nat}
    (hfree : code p = free) : ¬ r'.Mem p := by
  intro hmem
  obtain ⟨c, hc, hall, -⟩ := h.colour r' hr'
  exact hc ((hall p hmem).symm.trans hfree)

/-- A new region of free cells. -/
theorem paint (h : Coloured free bound code fixed live) {r : Region} (hbelow : r.first + r.size ≤ bound)
    (hfree : ∀ p, r.Mem p → code p = free) {c : C} (hc : c ≠ free)
    (hbefore : 0 < r.first → code (r.first - 1) ≠ c)
    (hbehind : r.first + r.size < bound → code (r.first + r.size) ≠ c) :
    Coloured free bound (CpuScheduler.paint code r c) fixed (insert r live) where
  used p hp := by
    by_cases hmem : r.Mem p
    · rw [paint_mem c hmem]
      exact iff_of_true hc (.inr ⟨r, Set.mem_insert _ _, hmem⟩)
    · rw [paint_other c hmem, h.used p hp]
      simp [hmem]
  below r' hr' := by
    cases hr' with
    | inl he => exact he ▸ hbelow
    | inr hr' => exact h.below r' hr'
  disjoint r1 h1 r2 h2 hne p hp hp' := by
    cases h1 with
    | inl he1 =>
      subst he1
      cases h2 with
      | inl he2 => exact hne he2.symm
      | inr h2 => exact h.not_mem_of_free h2 (hfree p hp) hp'
    | inr h1 =>
      cases h2 with
      | inl he2 =>
        subst he2
        exact h.not_mem_of_free h1 (hfree p hp') hp
      | inr h2 => exact h.disjoint r1 h1 r2 h2 hne p hp hp'
  unfixed r' hr' p hp hfixed := by
    cases hr' with
    | inl he =>
      subst he
      have hlt : p < bound := Nat.lt_of_lt_of_le hp.2 hbelow
      exact (h.used p hlt).mpr (.inl hfixed) (hfree p hp)
    | inr hr' => exact h.unfixed r' hr' p hp hfixed
  colour r' hr' := by
    cases hr' with
    | inl he =>
      subst he
      have hpos := r'.pos
      refine ⟨c, hc, fun p hp => paint_mem c hp, fun hlow => ?_, fun hlow => ?_⟩
      · rw [paint_other c (by unfold Region.Mem; omega)]
        exact hbefore hlow
      · rw [paint_other c (by unfold Region.Mem; omega)]
        exact hbehind hlow
    | inr hr' =>
      obtain ⟨c', hc', hall, hbefore', hbehind'⟩ := h.colour r' hr'
      have hother : ∀ p, r'.Mem p → ¬ r.Mem p := by
        intro p hp hpr
        exact h.not_mem_of_free hr' (hfree p hpr) hp
      have hpos := r.pos
      have hpos' := r'.pos
      refine ⟨c', hc', fun p hp => ?_, fun hlow => ?_, fun hlow => ?_⟩
      · rw [paint_other c (hother p hp)]
        exact hall p hp
      · by_cases hmem : r.Mem (r'.first - 1)
        · -- the new region ends where the old one begins
          have hfirst := hother r'.first r'.first_mem
          unfold Region.Mem at hmem hfirst
          have he : r.first + r.size = r'.first := by omega
          have hbelow' := h.below r' hr'
          rw [paint_mem c hmem]
          intro hcc
          apply hbehind (by omega)
          rw [he, hall r'.first r'.first_mem]
          exact hcc.symm
        · rw [paint_other c hmem]
          exact hbefore' hlow
      · by_cases hmem : r.Mem (r'.first + r'.size)
        · -- the new region begins where the old one ends
          have hlast : r'.Mem (r'.first + r'.size - 1) := by
            unfold Region.Mem
            omega
          have hnot := hother _ hlast
          unfold Region.Mem at hmem hnot
          have he : r.first - 1 = r'.first + r'.size - 1 := by omega
          rw [paint_mem c hmem]
          intro hcc
          apply hbefore (by omega)
          rw [he, hall _ hlast]
          exact hcc.symm
        · rw [paint_other c hmem]
          exact hbehind' hlow

/-- A region is given back. -/
theorem erase (h : Coloured free bound code fixed live) {r : Region} (hr : r ∈ live) :
    Coloured free bound (CpuScheduler.paint code r free) fixed (live \ {r}) where
  used p hp := by
    by_cases hmem : r.Mem p
    · rw [paint_mem free hmem]
      refine iff_of_false (not_not_intro rfl) fun hused => ?_
      obtain hfixed | ⟨r', hr', hp'⟩ := hused
      · exact h.unfixed r hr p hmem hfixed
      · exact h.disjoint r' hr'.1 r hr hr'.2 p hp' hmem
    · rw [paint_other free hmem, h.used p hp]
      refine or_congr_right ⟨fun hused => ?_, fun hused => ?_⟩
      · obtain ⟨r', hr', hp'⟩ := hused
        refine ⟨r', ⟨hr', fun he => hmem ?_⟩, hp'⟩
        exact Set.mem_singleton_iff.mp he ▸ hp'
      · obtain ⟨r', hr', hp'⟩ := hused
        exact ⟨r', hr'.1, hp'⟩
  below r' hr' := h.below r' hr'.1
  disjoint r1 h1 r2 h2 := h.disjoint r1 h1.1 r2 h2.1
  unfixed r' hr' := h.unfixed r' hr'.1
  colour r' hr' := by
    obtain ⟨c, hc, hall, hbefore, hbehind⟩ := h.colour r' hr'.1
    refine ⟨c, hc, fun p hp => ?_, fun hlow => ?_, fun hlow => ?_⟩
    · rw [paint_other free (h.disjoint r' hr'.1 r hr hr'.2 p hp)]
      exact hall p hp
    · unfold CpuScheduler.paint
      split
      · exact hc.symm
      · exact hbefore hlow
    · unfold CpuScheduler.paint
      split
      · exact hc.symm
      · exact hbehind hlow

end Coloured

end CpuScheduler
