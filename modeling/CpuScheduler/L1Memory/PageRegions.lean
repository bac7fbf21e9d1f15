import CpuScheduler.Core.Colouring
import CpuScheduler.L1Memory.PageSearch

/-!
# Live regions of the page allocator

The user of the allocator reserves page ranges, then allocates regions and
frees those that are live. `Client` keeps what the calls returned beside the
allocator's words. In every run the page codes are a colouring of the live
regions (`Coloured`, Core), so a free finds the end of its region although no
size is stored.
-/
namespace CpuScheduler.L1

namespace PageAllocator

/-! ## Calls of a client -/

/-- The arguments of `allocatePageRange`: managed pages. -/
structure PageRange where
  first : Nat
  last : Nat
  le : first ≤ last
  managed : last < 1023 * 1024

def PageRange.Mem (r : PageRange) (p : Nat) : Prop := r.first ≤ p ∧ p ≤ r.last

/-- The calls of `allocatePageRange` at the beginning. -/
def reserveAll (s : PageAllocator) (ranges : List PageRange) : Option PageAllocator :=
  ranges.foldlM (fun s r => s.allocatePageRange r.first r.last) s

/-- An allocator, the pages reserved in it and the regions allocated and not
freed since. -/
structure Client where
  allocator : PageAllocator
  reserved : Set Nat
  live : Set Region

inductive ClientCall where
  | allocateContiguousPages (behind : Nat → UInt32) (numPages : UInt32)
  | freeContiguousPages (region : Region)

/-- Reservations, then allocations that fail or return managed pages, and
frees of live regions by their address. -/
def clientLTS (s0 : PageAllocator) : LTS Client ClientCall where
  init c := ∃ ranges, reserveAll s0.construct ranges = some c.allocator ∧
    c.reserved = {p | ∃ r ∈ ranges, r.Mem p} ∧ c.live = ∅
  step c call d := d.reserved = c.reserved ∧ match call with
    | .allocateContiguousPages behind numPages =>
      c.allocator.allocateContiguousPages behind numPages = some (FAILURE, d.allocator) ∧ d.live = c.live ∨
      ∃ r : Region, r.size = numPages.toNat ∧ r.first + r.size ≤ 1023 * 1024 ∧
        c.allocator.allocateContiguousPages behind numPages = some (0x1000 * r.first, d.allocator) ∧
        d.live = insert r c.live
    | .freeContiguousPages r =>
      r ∈ c.live ∧ d.allocator = c.allocator.freeContiguousPages (0x1000 * r.first) ∧ d.live = c.live \ {r}

/-! ## Codes as a colouring -/

theorem codeOf_mark {tables : Nat → PageTable} {code : UInt32} (hc : code < 4) (r : Region)
    (hfree : ∀ p, r.Mem p → codeOf tables p = 0) :
    codeOf (mark code r.first (r.first + r.size) tables) = paint (codeOf tables) r code := by
  funext p
  rw [mark, codeOf_mapPages, paint]
  refine ite_congr rfl (fun hp => ?_) fun _ => rfl
  have hzero : pageCode (tables (p / 1024) (p % 1024)) = 0 := hfree p hp
  rw [pageCode_orCode _ hc, hzero, UInt32.zero_or]

theorem codeOf_clear (tables : Nat → PageTable) (r : Region) :
    codeOf (mapPages clearCode r.first (r.first + r.size) tables) = paint (codeOf tables) r 0 := by
  funext p
  rw [codeOf_mapPages, paint]
  exact ite_congr rfl (fun _ => pageCode_clearCode _) fun _ => rfl

/-- What holds in every run: the directory sums up the tables, and the codes
colour the live regions. -/
structure Refines (c : Client) : Prop where
  summarised : c.allocator.Summarised
  coloured : Coloured 0 (1023 * 1024) (codeOf c.allocator.pageTables) c.reserved c.live

/-- Freeing a live region clears its pages. -/
theorem Refines.free_eq {c : Client} (h : Refines c) {r : Region} (hr : r ∈ c.live) :
    c.allocator.freeContiguousPages (0x1000 * r.first) = c.allocator.withTables
      (mapPages clearCode r.first (r.first + r.size) c.allocator.pageTables) := by
  have hbelow := h.coloured.below r hr
  have hpos := r.pos
  have hpage : 0x1000 * r.first / 4096 = r.first := by omega
  rw [freeContiguousPages_eq h.summarised (by omega), hpage, freedEnd, runOf, h.coloured.runLen_eq hr]

theorem Refines.allocate {c : Client} (h : Refines c) {behind : Nat → UInt32} {numPages : UInt32} {r : Region}
    {t : PageAllocator} (hsize : r.size = numPages.toNat) (hbelow : r.first + r.size ≤ 1023 * 1024)
    (hcall : c.allocator.allocateContiguousPages behind numPages = some (0x1000 * r.first, t)) :
    Refines ⟨t, c.reserved, insert r c.live⟩ := by
  have hpos := r.pos
  obtain ⟨hfits, rfl⟩ := allocateContiguousPages_fits h.summarised (by omega) hcall (by omega)
  rw [← hsize] at hfits ⊢
  obtain ⟨hc, h0, hbefore, hbehind⟩ := colour_spec c.allocator.pageTables r.first (r.first + r.size)
  have hfree : ∀ p, r.Mem p → codeOf c.allocator.pageTables p = 0 := fun p hp => hfits.free p hp.1 hp.2
  refine ⟨summarised_withTables _ _, ?_⟩
  rw [withTables_pageTables, codeOf_mark hc r hfree]
  refine h.coloured.paint hbelow hfree h0 (fun hlow he => ?_) (fun hlow he => ?_)
  · apply hbefore
    rw [codeBefore, if_pos hlow]
    exact he.symm
  · apply hbehind
    rw [codeBehind, if_pos hlow]
    exact he.symm

theorem Refines.free {c : Client} (h : Refines c) {r : Region} (hr : r ∈ c.live) :
    Refines ⟨c.allocator.freeContiguousPages (0x1000 * r.first), c.reserved, c.live \ {r}⟩ := by
  rw [h.free_eq hr]
  refine ⟨summarised_withTables _ _, ?_⟩
  rw [withTables_pageTables, codeOf_clear]
  exact h.coloured.erase hr

theorem allocate_failure {s t : PageAllocator} (h : s.Summarised) {behind : Nat → UInt32} {numPages : UInt32}
    (hcall : s.allocateContiguousPages behind numPages = some (FAILURE, t)) : t = s := by
  cases allocateContiguousPages_cases h hcall (.inl rfl) with
  | inl he => exact he
  | inr hfound =>
    obtain ⟨a, hpos, hle, haddress, -⟩ := hfound
    unfold FAILURE LAST_POSSIBLE_PDE_INDEX at haddress
    omega

theorem client_step {s0 : PageAllocator} {c d : Client} {call : ClientCall} (h : Refines c)
    (hstep : (clientLTS s0).step c call d) : Refines d := by
  obtain ⟨allocator, reserved, live⟩ := d
  obtain ⟨rfl, hcall⟩ := hstep
  cases call with
  | allocateContiguousPages behind numPages =>
    cases hcall with
    | inl hfail =>
      obtain ⟨hfail, rfl⟩ := hfail
      cases allocate_failure h.summarised hfail
      exact h
    | inr hfound =>
      obtain ⟨r, hsize, hbelow, hfound, rfl⟩ := hfound
      exact h.allocate hsize hbelow hfound
  | freeContiguousPages r =>
    obtain ⟨hr, rfl, rfl⟩ := hcall
    exact h.free hr

/-! ## Reservations -/

theorem codeOf_mark_ne_zero_iff (tables : Nat → PageTable) {code : UInt32} (hc : code < 4) (h0 : code ≠ 0)
    (a b p : Nat) : codeOf (mark code a b tables) p ≠ 0 ↔ codeOf tables p ≠ 0 ∨ a ≤ p ∧ p < b := by
  rw [mark, codeOf_mapPages]
  split
  · rename_i hp
    exact iff_of_true (pageCode_orCode_ne_zero _ hc h0) (.inr hp)
  · rename_i hp
    exact (or_iff_left hp).symm

theorem reserveAll_spec {s t : PageAllocator} (h : s.Summarised) {ranges : List PageRange}
    (hall : reserveAll s ranges = some t) :
    t.Summarised ∧ ∀ p, codeOf t.pageTables p ≠ 0 ↔ codeOf s.pageTables p ≠ 0 ∨ ∃ r ∈ ranges, r.Mem p := by
  induction ranges generalizing s with
  | nil =>
    cases hall
    exact ⟨h, fun p => by simp⟩
  | cons r ranges ih =>
    unfold reserveAll at hall
    rw [List.foldlM_cons, allocatePageRange_eq h r.le r.managed, Option.bind_eq_bind, Option.bind_some] at hall
    obtain ⟨hsum, hcodes⟩ := ih (summarised_withTables _ _) hall
    refine ⟨hsum, fun p => ?_⟩
    rw [hcodes p, withTables_pageTables, codeOf_mark_ne_zero_iff _ (by decide) (by decide), Nat.lt_succ_iff]
    simp only [List.mem_cons, exists_eq_or_imp, PageRange.Mem, or_assoc]

theorem refines_init {s0 : PageAllocator} {c : Client} (h : (clientLTS s0).init c) : Refines c := by
  obtain ⟨allocator, reserved, live⟩ := c
  obtain ⟨ranges, hall, rfl, rfl⟩ := h
  obtain ⟨hsum, hcodes⟩ := reserveAll_spec (summarised_construct s0) hall
  refine ⟨hsum, fun p hp => ?_, ?_, ?_, ?_, ?_⟩
  · rw [hcodes p, codeOf_construct s0 hp]
    simp
  all_goals
    intro r hr
    exact absurd hr (Set.notMem_empty r)

theorem client_inductive (s0 : PageAllocator) : (clientLTS s0).Inductive Refines where
  init _ := refines_init
  step _ _ _ := client_step

/-! ## Allocating, then freeing -/

/-- Clearing pages that were free before they were marked. -/
theorem clear_mark {tables : Nat → PageTable} {code : UInt32} (hc : code < 4) {n a : Nat}
    (hfits : Fits tables n a) : mapPages clearCode a (a + n) (mark code a (a + n) tables) = tables := by
  funext i j
  unfold mark mapPages
  split
  · rename_i hin
    have hfree := hfits.free (1024 * i + j) hin.2.1 hin.2.2
    rw [codeOf_at tables hin.1] at hfree
    rw [clearCode_orCode _ hc, clearCode_of_free hfree]
  · rfl

theorem Refines.allocate_free {c : Client} (h : Refines c) {behind : Nat → UInt32} {numPages : UInt32} {a : Nat}
    {t : PageAllocator} (hn : 0 < numPages.toNat) (hbelow : a + numPages.toNat ≤ 1023 * 1024)
    (hcall : c.allocator.allocateContiguousPages behind numPages = some (0x1000 * a, t)) :
    t.freeContiguousPages (0x1000 * a) = c.allocator := by
  have hnew := h.allocate (r := ⟨a, numPages.toNat, hn⟩) rfl hbelow hcall
  have hfree := hnew.free_eq (Set.mem_insert _ _)
  obtain ⟨hfits, ht⟩ := allocateContiguousPages_fits h.summarised hn hcall hbelow
  have hc := (colour_spec c.allocator.pageTables a (a + numPages.toNat)).1
  refine hfree.trans ?_
  simp only [ht, withTables_pageTables, clear_mark hc hfits, withTables_withTables, h.summarised.withTables_self]

/-- In every run the allocated pages are the reserved ones and those of the
disjoint live regions, pages on the two sides of a live region's boundary have
different codes, freeing a live region clears exactly its pages, and freeing
directly after allocating gives back the words as they were. -/
theorem allocator_refines_regions (s0 : PageAllocator) (c : Client) (hc : (clientLTS s0).Reachable c) :
    (∀ p, p < 1023 * 1024 →
      (codeOf c.allocator.pageTables p ≠ 0 ↔ p ∈ c.reserved ∨ ∃ r ∈ c.live, r.Mem p)) ∧
    (∀ r ∈ c.live, ∀ r' ∈ c.live, r ≠ r' → ∀ p, r.Mem p → ¬ r'.Mem p) ∧
    (∀ r ∈ c.live, ∀ p, r.Mem p → p ∉ c.reserved) ∧
    (∀ r ∈ c.live, ∀ p q, r.Mem p → ¬ r.Mem q → q = p + 1 ∨ p = q + 1 → q < 1023 * 1024 →
      codeOf c.allocator.pageTables p ≠ codeOf c.allocator.pageTables q) ∧
    (∀ r ∈ c.live, ∀ p, codeOf (c.allocator.freeContiguousPages (0x1000 * r.first)).pageTables p =
      if r.Mem p then 0 else codeOf c.allocator.pageTables p) ∧
    ∀ behind numPages a t, 0 < numPages.toNat → a + numPages.toNat ≤ 1023 * 1024 →
      c.allocator.allocateContiguousPages behind numPages = some (0x1000 * a, t) →
      t.freeContiguousPages (0x1000 * a) = c.allocator := by
  have h := (client_inductive s0).reachable c hc
  refine ⟨h.coloured.used, h.coloured.disjoint, h.coloured.unfixed, ?_, ?_, ?_⟩
  · intro r hr p q hp hq hnext hbound
    exact h.coloured.touching hr hp hq hnext hbound
  · intro r hr p
    rw [h.free_eq hr, withTables_pageTables, codeOf_clear]
    rfl
  · intro behind numPages a t hn hbelow hcall
    exact h.allocate_free hn hbelow hcall

/-- If everything from page `b` on is free, an allocation succeeds, and
everything behind `numPages` more pages stays free. -/
theorem allocate_behind {s : PageAllocator} (h : s.Summarised) (behind : Nat → UInt32) {numPages : UInt32} {b : Nat}
    (hn : 0 < numPages.toNat) (hb : b + numPages.toNat ≤ 1023 * 1024)
    (hfree : ∀ p, b ≤ p → codeOf s.pageTables p = 0) :
    ∃ a t, s.allocateContiguousPages behind numPages = some (0x1000 * a, t) ∧ a + numPages.toNat ≤ 1023 * 1024 ∧
      ∀ p, b + numPages.toNat ≤ p → codeOf t.pageTables p = 0 := by
  have hfits : Fits s.pageTables numPages.toNat b := ⟨hb, fun p hp _ => hfree p hp⟩
  have hno : ¬ Overruns s.pageTables numPages.toNat := fun hover => hover.noRun b hfits
  cases allocateContiguousPages_eq h behind hn hno with
  | inl hfound =>
    obtain ⟨a, hlowest, hcall⟩ := hfound
    have hle := hlowest.lowest b (Nat.zero_le _) hfits
    rw [Nat.mul_comm] at hcall
    refine ⟨a, _, hcall, hlowest.fits.inRange, fun p hp => ?_⟩
    rw [hlowest.fits.allocates.others p (by omega)]
    exact hfree p (by omega)
  | inr hnone => exact absurd hfits (hnone.1 b)

theorem reserved_fits {last n : Nat} (h : last + 1 + n ≤ 1023 * 1024) : Fits (reserved last).pageTables n (last + 1) := by
  refine ⟨h, fun q h1 _ => ?_⟩
  rw [codeOf_reserved, if_neg (by omega)]

/-- The first allocation is right behind the reserved pages. -/
theorem reserved_allocates (last : Nat) (numPages : UInt32) (hn : 0 < numPages.toNat)
    (h : last + 1 + numPages.toNat ≤ 1023 * 1024) (behind : Nat → UInt32) :
    ∃ t, (reserved last).allocateContiguousPages behind numPages = some (0x1000 * (last + 1), t) := by
  have hfits := reserved_fits h
  have hno : ¬ Overruns (reserved last).pageTables numPages.toNat := fun hover => hover.noRun _ hfits
  cases allocateContiguousPages_eq (summarised_reserved last) behind hn hno with
  | inl hfound =>
    obtain ⟨a, hlowest, hcall⟩ := hfound
    have hle := hlowest.lowest _ (Nat.zero_le _) hfits
    have hge : last + 1 ≤ a := by
      by_contra hlt
      have hfree := hlowest.fits.free a (Nat.le_refl a) (by omega)
      rw [codeOf_reserved, if_pos (by omega)] at hfree
      exact absurd hfree (by decide)
    rw [Nat.le_antisymm hle hge, Nat.mul_comm] at hcall
    exact ⟨_, hcall⟩
  | inr hnone => exact absurd hfits (hnone.1 _)

/-- 5000 pages behind 1025 reserved ones. -/
theorem refines_regions_5000 :
    ∃ t, (reserved 1024).allocateContiguousPages (fun _ => 0) 5000 = some (0x1000 * 1025, t) ∧
      codeOf t.pageTables 1025 ≠ codeOf t.pageTables 1024 ∧
      t.freeContiguousPages (0x1000 * 1025) = reserved 1024 := by
  obtain ⟨t, ht⟩ := reserved_allocates 1024 5000 (by decide) (by decide) fun _ => 0
  let range : PageRange := ⟨0, 1024, by decide, by decide⟩
  let region : Region := ⟨1025, 5000, by decide⟩
  have hinit : (clientLTS blank).init ⟨reserved 1024, {p | ∃ r ∈ [range], r.Mem p}, ∅⟩ := by
    refine ⟨[range], ?_, rfl, rfl⟩
    rw [reserveAll, List.foldlM_cons, allocatePageRange_eq (summarised_construct _) range.le range.managed]
    rfl
  have h0 := allocator_refines_regions blank _ ⟨_, [], hinit, .nil _⟩
  have hstep : (clientLTS blank).step ⟨reserved 1024, {p | ∃ r ∈ [range], r.Mem p}, ∅⟩
      (.allocateContiguousPages (fun _ => 0) 5000) ⟨t, {p | ∃ r ∈ [range], r.Mem p}, insert region ∅⟩ :=
    ⟨rfl, .inr ⟨region, rfl, by decide, ht, rfl⟩⟩
  have h1 := allocator_refines_regions blank _ ⟨_, _, hinit, .cons hstep (.nil _)⟩
  refine ⟨t, ht, ?_, h0.2.2.2.2.2 _ _ _ _ (by decide) (by decide) ht⟩
  exact h1.2.2.2.1 region (Set.mem_insert _ _) 1025 1024 (by decide) (by decide) (.inr rfl) (by decide)

end PageAllocator

end CpuScheduler.L1
