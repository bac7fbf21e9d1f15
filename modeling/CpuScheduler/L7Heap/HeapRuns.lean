import CpuScheduler.L7Heap.Allocate

/-!
# Runs of the heap

`heapLTS`: regions are added, requests are served, pointers are given back, and
the owners write to their bytes. `live` are the allocations that have not been
given back, each with the block it was served from; `regions` is what was
added.

`HeapInv`: the free blocks and the blocks in use have no byte in common, and
together they are the regions. As the free list is separated, it is then
determined by the blocks in use.

All of it depends on `PaddingFits`: `allocate` subtracts the padding from the
size of a block in 32 bits, and takes a block that is smaller than the padding
for a very large one (`regions_joined_and_padding_wraps`).
-/
namespace CpuScheduler.L7

open L3 L4 MemoryManager

structure Heap where
  manager : MemoryManager
  live : List Allocation
  regions : List (Extent Nat)

inductive HeapStep where
  | addContiguousMemoryRegion (pRegion regionSize : UInt32)
  | allocate (alignment numBytes : UInt32)
  | free (a : Allocation)
  | write (mem : Mem)

theorem region_lt {p n : UInt32} (h : p % 4 = 0 ∧ n % 4 = 0 ∧ HEADER_SIZE < n) : p.toNat < p.toNat + n.toNat := by
  have hn := UInt32.lt_iff_toNat_lt.mp h.2.2
  omega

/-- The region, if it is one that is accepted. -/
def regionOf (pRegion regionSize : UInt32) : Option (Extent Nat) :=
  if h : pRegion % 4 = 0 ∧ regionSize % 4 = 0 ∧ HEADER_SIZE < regionSize then
    some ⟨pRegion.toNat, pRegion.toNat + regionSize.toNat, region_lt h⟩
  else none

/-- The allocation that a call of `allocate` has made. -/
def newAllocation (s : MemoryManager) (alignment numBytes pointer : UInt32) (t : MemoryManager) : List Allocation :=
  match s.findBlock alignment numBytes with
  | some (_, pCurrentBlock) => if pointer = 0 then [] else [⟨blockAt t.mem pCurrentBlock, pointer, numBytes⟩]
  | none => []

/-- Regions are not at null, end in memory, and do not overlap. -/
def heapStep (s : Heap) : HeapStep → Heap → Prop
  | .addContiguousMemoryRegion pRegion regionSize, t =>
    (∀ r ∈ regionOf pRegion regionSize, 0 < r.lo ∧ r.hi ≤ 2 ^ 32 ∧ ∀ r' ∈ s.regions, r'.Disjoint r) ∧
      s.manager.addContiguousMemoryRegion pRegion regionSize = some t.manager ∧ t.live = s.live ∧
      t.regions = s.regions ++ (regionOf pRegion regionSize).toList
  | .allocate alignment numBytes, t => ∃ pointer, s.manager.allocate alignment numBytes = some (pointer, t.manager) ∧
      t.live = s.live ++ newAllocation s.manager alignment numBytes pointer t.manager ∧ t.regions = s.regions
  | .free a, t => a ∈ s.live ∧ s.manager.free a.pointer = some t.manager ∧ t.live = s.live.erase a ∧
      t.regions = s.regions
  | .write mem, t =>
    (∀ x : UInt32, Covers s.regions x.toNat → (∀ a ∈ s.live, ¬ a.Owns x.toNat) → mem x = s.manager.mem x) ∧
      t = { s with manager := { s.manager with mem := mem } }

def heapLTS : LTS Heap HeapStep where
  init s := s.manager.freeList = 0 ∧ s.live = [] ∧ s.regions = []
  step := heapStep

/-- The padding of the request fits into the block it is served from. -/
def PaddingFits (s : Heap) : HeapStep → Prop
  | .allocate alignment numBytes => validRequest alignment numBytes = true →
      ∀ pPreviousBlock pCurrentBlock, s.manager.findBlock alignment numBytes = some (pPreviousBlock, pCurrentBlock) →
        pCurrentBlock ≠ 0 → padding alignment pCurrentBlock ≤ size s.manager.mem pCurrentBlock
  | _ => True

/-! ## The invariant -/

structure HeapInv (s : Heap) (l : List (Extent Nat)) : Prop where
  free : FreeBlocks s.manager l
  live : ∀ a ∈ s.live, Allocated s.manager.mem a
  apart : s.live.Pairwise fun a b => a.block.Disjoint b.block
  free_apart : ∀ a ∈ s.live, ∀ x ∈ a.block, ¬ Covers l x
  covers : ∀ x, Covers s.regions x ↔ (∃ a ∈ s.live, x ∈ a.block) ∨ Covers l x
  regions : s.regions.Pairwise Extent.Disjoint

theorem heapInv_init {s : Heap} (h : heapLTS.init s) : HeapInv s [] := by
  obtain ⟨hfree, hlive, hregions⟩ := h
  refine ⟨⟨hfree, by simp, List.Pairwise.nil⟩, ?_, ?_, ?_, ?_, ?_⟩
  · simp [hlive]
  · simp [hlive]
  · simp [hlive]
  · simp [hlive, hregions]
  · simp [hregions]

/-- Memory outside the free blocks and blocks that come to them is as before. -/
theorem HeapInv.allocated_of_frame {s : Heap} {l : List (Extent Nat)} (h : HeapInv s l) {mem : Mem} {a : Allocation}
    (ha : a ∈ s.live) (hframe : ∀ x : UInt32, x.toNat ∈ a.block → mem x = s.manager.mem x) : Allocated mem a :=
  (h.live a ha).congr fun x hx _ => hframe x hx

theorem HeapInv.disjoint {s : Heap} {l : List (Extent Nat)} (h : HeapInv s l) {a b : Allocation} (ha : a ∈ s.live)
    (hb : b ∈ s.live) (hab : a ≠ b) : a.block.Disjoint b.block := by
  have hsymm : Std.Symm fun a b : Allocation => a.block.Disjoint b.block := ⟨fun _ _ h => h.symm⟩
  exact h.apart.forall ha hb hab

theorem heapInv_write {s : Heap} {l : List (Extent Nat)} (h : HeapInv s l) {mem : Mem}
    (hmem : ∀ x : UInt32, Covers s.regions x.toNat → (∀ a ∈ s.live, ¬ a.Owns x.toNat) → mem x = s.manager.mem x) :
    HeapInv { s with manager := { s.manager with mem := mem } } l := by
  refine ⟨FreeBlocks.congr h.free fun i hi x hx => ?_, fun a ha => ?_, h.apart, h.free_apart, h.covers, h.regions⟩
  · have hcovers := covers_of_mem hi ((h.free.isBlock i hi).mem_of_inHeader hx)
    refine hmem x ((h.covers _).mpr (.inr hcovers)) fun a ha hown => ?_
    exact h.free_apart a ha _ ((h.live a ha).mem_of_owns hown) hcovers
  · refine (h.live a ha).congr fun x hx hnot => hmem x ((h.covers _).mpr (.inl ⟨a, ha, hx⟩)) fun b hb hown => ?_
    by_cases hab : a = b
    · exact hnot (hab ▸ hown)
    · exact h.disjoint ha hb hab _ hx ((h.live b hb).mem_of_owns hown)

/-! ## Regions -/

theorem regionOf_some {p n : UInt32} {r : Extent Nat} (h : regionOf p n = some r) :
    (p % 4 = 0 ∧ n % 4 = 0 ∧ HEADER_SIZE < n) ∧ r.lo = p.toNat ∧ r.hi = p.toNat + n.toNat := by
  unfold regionOf at h
  split at h
  · rename_i hr
    cases h
    exact ⟨hr, rfl, rfl⟩
  · cases h

theorem isBlock_region {p n : UInt32} {r : Extent Nat} (h : regionOf p n = some r) (hpos : 0 < r.lo)
    (hend : r.hi ≤ 2 ^ 32) : IsBlock r := by
  obtain ⟨⟨hp, hn, hlt⟩, hlo, hhi⟩ := regionOf_some h
  have hp' : p.toNat % 4 = 0 := congrArg UInt32.toNat hp
  have hn' : n.toNat % 4 = 0 := congrArg UInt32.toNat hn
  have hlt' : 8 < n.toNat := UInt32.lt_iff_toNat_lt.mp hlt
  exact ⟨hpos, by omega, by omega, by omega, hend⟩

/-- A region that is not accepted changes nothing. -/
theorem addContiguousMemoryRegion_none {p n : UInt32} (h : regionOf p n = none) (s : MemoryManager) :
    s.addContiguousMemoryRegion p n = some s := by
  unfold regionOf at h
  split at h
  · cases h
  · rename_i hr
    unfold addContiguousMemoryRegion
    split
    · rfl
    · rename_i haligned
      push Not at haligned
      rw [if_pos]
      by_contra hlt
      exact hr ⟨haligned.1, haligned.2, UInt32.not_le.mp hlt⟩

theorem addContiguousMemoryRegion_some {p n : UInt32} {r : Extent Nat} (h : regionOf p n = some r) (s : MemoryManager) :
    s.addContiguousMemoryRegion p n =
      insertBlock { s with mem := setSize s.mem (address r) (n - HEADER_SIZE) } (address r) := by
  obtain ⟨⟨hp, hn, hlt⟩, hlo, _⟩ := regionOf_some h
  have haddress : address r = p := by
    rw [address, hlo]
    exact UInt32.ofNat_toNat
  unfold addContiguousMemoryRegion
  rw [if_neg (by simp [hp, hn]), if_neg (UInt32.not_le.mpr hlt), haddress]

theorem blockAt_region {p n : UInt32} {r : Extent Nat} (h : regionOf p n = some r) (hr : IsBlock r) (mem : Mem) :
    blockAt (setSize mem (address r) (n - HEADER_SIZE)) (address r) = r := by
  obtain ⟨⟨_, _, hlt⟩, hlo, hhi⟩ := regionOf_some h
  have hlt' : 8 < n.toNat := UInt32.lt_iff_toNat_lt.mp hlt
  refine Extent.ext hr.toNat_address ?_
  show (address r).toNat + 8 + (size _ _).toNat = r.hi
  rw [size_setSize, hr.toNat_address, UInt32.toNat_sub_of_le _ _ (UInt32.le_of_lt hlt)]
  show r.lo + 8 + (n.toNat - 8) = r.hi
  omega

theorem heapInv_addContiguousMemoryRegion {s : Heap} {l : List (Extent Nat)} (h : HeapInv s l) {p n : UInt32}
    (hnew : ∀ r ∈ regionOf p n, 0 < r.lo ∧ r.hi ≤ 2 ^ 32 ∧ ∀ r' ∈ s.regions, r'.Disjoint r) :
    ∃ t l', s.manager.addContiguousMemoryRegion p n = some t ∧
      HeapInv ⟨t, s.live, s.regions ++ (regionOf p n).toList⟩ l' := by
  cases hregion : regionOf p n with
  | none =>
    refine ⟨s.manager, l, addContiguousMemoryRegion_none hregion s.manager, ?_⟩
    rw [Option.toList_none, List.append_nil]
    exact h
  | some r =>
    obtain ⟨hpos, hend, hdisjoint⟩ := hnew r hregion
    have hr := isBlock_region hregion hpos hend
    have hn := hr.toNat_address
    have hheader := hr.header
    -- no byte of the region is in a block
    have hfresh {x : Nat} (hx : x ∈ r) : ¬ Covers s.regions x := by
      intro hc
      obtain ⟨r', hr', hx'⟩ := hc
      exact hdisjoint r' hr' x hx' hx
    have hout {x : UInt32} (hx : x.toNat ∉ r) :
        setSize s.manager.mem (address r) (n - HEADER_SIZE) x = s.manager.mem x := by
      rw [Extent.mem_def] at hx
      exact setSize_outside (by omega) (by omega)
    have hfree : FreeBlocks { s.manager with mem := setSize s.manager.mem (address r) (n - HEADER_SIZE) } l := by
      refine FreeBlocks.congr h.free fun i hi x hx => hout fun hxr => hfresh hxr ?_
      exact (h.covers _).mpr (.inr (covers_of_mem hi ((h.free.isBlock i hi).mem_of_inHeader hx)))
    obtain ⟨t, l', hinsert, hfree', hcovers, hframe⟩ :=
      insertBlock_spec hfree hr (blockAt_region hregion hr s.manager.mem) fun i hi x hx hxr =>
        hfresh hxr ((h.covers x).mpr (.inr (covers_of_mem hi hx)))
    rw [addContiguousMemoryRegion_some hregion]
    refine ⟨t, l', hinsert, hfree', fun a ha => ?_, h.apart, fun a ha x hx hc => ?_, fun x => ?_, ?_⟩
    · refine h.allocated_of_frame ha fun x hx => ?_
      have hxr : x.toNat ∉ r := fun hxr => hfresh hxr ((h.covers _).mpr (.inl ⟨a, ha, hx⟩))
      refine (hframe x fun i hi hxi => ?_).trans (hout hxr)
      rcases List.mem_cons.mp hi with rfl | hi
      · exact hxr (hr.mem_of_inHeader hxi)
      · exact h.free_apart a ha _ hx (covers_of_mem hi ((h.free.isBlock i hi).mem_of_inHeader hxi))
    · rcases (hcovers x).mp hc with hxr | hc
      · exact hfresh hxr ((h.covers x).mpr (.inl ⟨a, ha, hx⟩))
      · exact h.free_apart a ha x hx hc
    · rw [covers_append, h.covers, hcovers, Option.toList_some, covers_cons]
      simp only [covers_nil, or_false]
      exact or_assoc.trans (or_congr_right or_comm)
    · rw [Option.toList_some]
      refine List.pairwise_append.mpr ⟨h.regions, List.pairwise_singleton _ _, fun r' hr' r'' hr'' => ?_⟩
      cases List.mem_singleton.mp hr''
      exact hdisjoint r' hr'

/-! ## Pointers that are given back -/

theorem heapInv_free {s : Heap} {l : List (Extent Nat)} (h : HeapInv s l) {a : Allocation} (ha : a ∈ s.live) :
    ∃ t l', s.manager.free a.pointer = some t ∧ (∀ x, Covers l' x ↔ x ∈ a.block ∨ Covers l x) ∧
      HeapInv ⟨t, s.live.erase a, s.regions⟩ l' := by
  have halloc := h.live a ha
  have hne : a.pointer ≠ 0 := by
    intro h0
    have hstart := halloc.start
    rw [h0] at hstart
    exact absurd hstart (by simp)
  obtain ⟨t, l', hinsert, hfree, hcovers, hframe⟩ :=
    insertBlock_spec h.free halloc.isBlock halloc.header fun i hi x hx hxa =>
      h.free_apart a ha x hxa (covers_of_mem hi hx)
  have hperm := List.perm_cons_erase ha
  have hpair := (hperm.pairwise_iff fun hab => Extent.Disjoint.symm hab).mp h.apart
  obtain ⟨hothers, hrest⟩ := List.pairwise_cons.mp hpair
  have hmem {b : Allocation} (hb : b ∈ s.live.erase a) : b ∈ s.live := List.mem_of_mem_erase hb
  refine ⟨t, l', ?_, hcovers, hfree, fun b hb => ?_, hrest, fun b hb x hx hc => ?_, fun x => ?_, h.regions⟩
  · unfold MemoryManager.free
    rw [if_neg hne, headerOf_spec halloc]
    exact hinsert
  · refine h.allocated_of_frame (hmem hb) fun x hx => hframe x fun i hi hxi => ?_
    rcases List.mem_cons.mp hi with rfl | hi
    · exact hothers b hb _ (halloc.isBlock.mem_of_inHeader hxi) hx
    · exact h.free_apart b (hmem hb) _ hx (covers_of_mem hi ((h.free.isBlock i hi).mem_of_inHeader hxi))
  · rcases (hcovers x).mp hc with hxa | hc
    · exact hothers b hb x hxa hx
    · exact h.free_apart b (hmem hb) x hx hc
  · have hlive : (∃ b ∈ s.live, x ∈ b.block) ↔ x ∈ a.block ∨ ∃ b ∈ s.live.erase a, x ∈ b.block := by
      simp only [hperm.mem_iff, List.mem_cons, exists_eq_or_imp]
    rw [h.covers, hcovers, hlive, or_assoc]
    exact or_left_comm

/-! ## Requests -/

theorem validRequest_iff {alignment numBytes : UInt32} :
    validRequest alignment numBytes = true ↔ 0 < numBytes.toNat ∧ ∃ k, alignment.toNat = 2 ^ k := by
  constructor
  · exact isPowerOfTwo_of_validRequest
  · intro h
    obtain ⟨hn, k, hk⟩ := h
    have hpos : 0 < alignment.toNat := hk ▸ Nat.two_pow_pos k
    have hand : alignment &&& (alignment - 1) = 0 := by
      apply UInt32.toNat_inj.mp
      rw [UInt32.toNat_and, UInt32.toNat_sub_of_le _ _ (by rw [UInt32.le_iff_toNat_le]; exact hpos)]
      exact (Nat.and_sub_one_eq_zero_iff_isPowerOfTwo hpos.ne').mpr ⟨k, hk⟩
    have hbytes : numBytes ≠ 0 := fun h0 => absurd (h0 ▸ hn) (by decide)
    have halign : alignment ≠ 0 := fun h0 => absurd (h0 ▸ hpos) (by decide)
    simp [validRequest, hbytes, halign, hand]

/-- A call of `allocate` that serves a request, or one that changes nothing. -/
structure Allocates (s : Heap) (l : List (Extent Nat)) (alignment numBytes pointer : UInt32) (t : Heap)
    (l' : List (Extent Nat)) : Prop where
  allocate : s.manager.allocate alignment numBytes = some (pointer, t.manager)
  step : heapStep s (.allocate alignment numBytes) t
  inv : HeapInv t l'
  served : pointer ≠ 0 → alignment.toNat ∣ pointer.toNat ∧ ∃ a, t.live = s.live ++ [a] ∧ a.pointer = pointer ∧
    a.numBytes = numBytes ∧ ∀ x, Covers l x ↔ x ∈ a.block ∨ Covers l' x
  refused : pointer = 0 → validRequest alignment numBytes = true → ∀ i ∈ l, ¬ HasRoom alignment numBytes i
  frame : ∀ a ∈ s.live, ∀ x : UInt32, x.toNat ∈ a.block → t.manager.mem x = s.manager.mem x

theorem allocates_served {s : Heap} {l : List (Extent Nat)} (h : HeapInv s l) {alignment numBytes : UInt32}
    (hvalid : validRequest alignment numBytes = true) {prev cur : UInt32}
    (hfind : s.manager.findBlock alignment numBytes = some (prev, cur)) (hcur : cur ≠ 0)
    (hpad : padding alignment cur ≤ size s.manager.mem cur) :
    ∃ pointer t l', Allocates s l alignment numBytes pointer t l' := by
  obtain ⟨t, l', b, haddress, hat, hs⟩ := allocate_served h.free hvalid hfind hcur hpad
  have hptr : alignedAddr alignment cur ≠ 0 := by
    intro h0
    have hstart := hs.allocated.start
    rw [h0] at hstart
    exact absurd hstart (by simp)
  have hframe (a : Allocation) (ha : a ∈ s.live) (x : UInt32) (hx : x.toNat ∈ a.block) : t.mem x = s.manager.mem x :=
    hs.frame x fun hc => h.free_apart a ha _ hx hc
  have hnew : newAllocation s.manager alignment numBytes (alignedAddr alignment cur) t =
      [⟨b, alignedAddr alignment cur, numBytes⟩] := by
    unfold newAllocation
    rw [hfind]
    dsimp only
    rw [if_neg hptr, hat]
  refine ⟨alignedAddr alignment cur, ⟨t, s.live ++ [⟨b, alignedAddr alignment cur, numBytes⟩], s.regions⟩, l', hs.allocate,
    ⟨_, hs.allocate, by rw [hnew], rfl⟩, ?_, fun _ => ⟨hs.aligned, _, rfl, rfl, rfl, hs.covers⟩,
    fun h0 => absurd h0 hptr, hframe⟩
  refine ⟨hs.free, fun a ha => ?_, ?_, fun a ha x hx hc => ?_, fun x => ?_, h.regions⟩
  · rcases List.mem_append.mp ha with ha | ha
    · exact h.allocated_of_frame ha fun x hx => hframe a ha x hx
    · cases List.mem_singleton.mp ha
      exact hs.allocated
  · refine List.pairwise_append.mpr ⟨h.apart, List.pairwise_singleton _ _, fun a ha c hc x hx hxc => ?_⟩
    cases List.mem_singleton.mp hc
    exact h.free_apart a ha x hx ((hs.covers x).mpr (.inl hxc))
  · rcases List.mem_append.mp ha with ha | ha
    · exact h.free_apart a ha x hx ((hs.covers x).mpr (.inr hc))
    · cases List.mem_singleton.mp ha
      exact hs.apart x hx hc
  · have hlive : (∃ a ∈ s.live ++ [⟨b, alignedAddr alignment cur, numBytes⟩], x ∈ a.block) ↔
        (∃ a ∈ s.live, x ∈ a.block) ∨ x ∈ b := by
      simp only [List.mem_append, List.mem_singleton, or_and_right, exists_or, exists_eq_left]
    rw [h.covers, hs.covers, hlive]
    exact or_assoc.symm

/-- Every call of `allocate` returns. -/
theorem exists_allocates {s : Heap} {l : List (Extent Nat)} (h : HeapInv s l) {alignment numBytes : UInt32}
    (hfits : PaddingFits s (.allocate alignment numBytes)) : ∃ pointer t l', Allocates s l alignment numBytes pointer t l' := by
  -- the state is the same, with no new allocation
  have hsame (hallocate : s.manager.allocate alignment numBytes = some (0, s.manager))
      (hrefused : validRequest alignment numBytes = true → ∀ i ∈ l, ¬ HasRoom alignment numBytes i) :
      ∃ pointer t l', Allocates s l alignment numBytes pointer t l' := by
    refine ⟨0, s, l, hallocate, ⟨0, hallocate, ?_, rfl⟩, h, fun h0 => absurd rfl h0, fun _ => hrefused, fun _ _ _ _ => rfl⟩
    unfold newAllocation
    split
    · rw [if_pos rfl, List.append_nil]
    · rw [List.append_nil]
  by_cases hvalid : validRequest alignment numBytes = true
  · obtain ⟨before, after, cur, _, hfind, _⟩ := findBlock_spec h.free alignment numBytes
    by_cases hcur : cur = 0
    · subst hcur
      obtain ⟨hallocate, hrefused⟩ := allocate_refused h.free hvalid hfind
      exact hsame hallocate fun _ => hrefused
    · exact allocates_served h hvalid hfind hcur (hfits hvalid _ _ hfind hcur)
  · refine hsame ?_ fun hv => absurd hv hvalid
    unfold MemoryManager.allocate
    rw [if_neg hvalid]

/-! ## Runs -/

theorem heapInv_step {s t : Heap} {l : List (Extent Nat)} {c : HeapStep} (h : HeapInv s l) (hfits : PaddingFits s c)
    (hstep : heapStep s c t) : ∃ l', HeapInv t l' := by
  cases c with
  | addContiguousMemoryRegion pRegion regionSize =>
    obtain ⟨hnew, hadd, hlive, hregions⟩ := hstep
    obtain ⟨m, l', hadd', hinv⟩ := heapInv_addContiguousMemoryRegion h hnew
    cases hadd'.symm.trans hadd
    rw [← hlive, ← hregions] at hinv
    exact ⟨l', hinv⟩
  | allocate alignment numBytes =>
    obtain ⟨pointer, hallocate, hlive, hregions⟩ := hstep
    obtain ⟨pointer', t', l', ha⟩ := exists_allocates h hfits
    obtain ⟨pointer'', hallocate'', hlive', hregions'⟩ := ha.step
    have h1 := Option.some.inj (hallocate''.symm.trans hallocate)
    have hm : t'.manager = t.manager := congrArg Prod.snd h1
    have hp : pointer'' = pointer := congrArg Prod.fst h1
    have ht : t' = t := by
      cases t
      cases t'
      simp only at hlive hregions hlive' hregions' hm
      rw [hlive, hregions, hlive', hregions', hm, hp]
    exact ⟨l', ht ▸ ha.inv⟩
  | free a =>
    obtain ⟨ha, hfree, hlive, hregions⟩ := hstep
    obtain ⟨m, l', hfree', _, hinv⟩ := heapInv_free h ha
    cases hfree'.symm.trans hfree
    rw [← hlive, ← hregions] at hinv
    exact ⟨l', hinv⟩
  | write mem =>
    obtain ⟨hmem, rfl⟩ := hstep
    exact ⟨l, heapInv_write h hmem⟩

theorem heapInv_reachable {s : Heap} (h : (heapLTS.Guarded PaddingFits).Reachable s) : ∃ l, HeapInv s l := by
  refine LTS.Inductive.reachable (I := fun s => ∃ l, HeapInv s l) ⟨?_, ?_⟩ s h
  · intro s hs
    exact ⟨[], heapInv_init hs⟩
  · intro s c t hs hst
    obtain ⟨l, hl⟩ := hs
    exact heapInv_step hl hst.1 hst.2

/-! ## The heap is sound -/

/-- The bytes of the allocations: in the regions, and apart from each other, from
the headers of the blocks in use and from the free blocks. -/
structure Sound (s : Heap) (l : List (Extent Nat)) : Prop where
  inside : ∀ a ∈ s.live, ∃ r ∈ coalesced s.regions,
    r.lo ≤ a.pointer.toNat ∧ a.pointer.toNat + a.numBytes.toNat ≤ r.hi
  free : ∀ a ∈ s.live, ∀ x, a.Owns x → ¬ Covers l x
  headers : ∀ a ∈ s.live, ∀ b ∈ s.live, ∀ x : UInt32, a.Owns x.toNat → ¬ InHeader b.block x
  others : ∀ a ∈ s.live, ∀ b ∈ s.live, a ≠ b → ∀ x, a.Owns x → ¬ b.Owns x

theorem HeapInv.sound {s : Heap} {l : List (Extent Nat)} (h : HeapInv s l) : Sound s l := by
  refine ⟨fun a ha => ?_, fun a ha x hx => ?_, fun a ha b hb x hx hxb => ?_, fun a ha b hb hab x hx hxb => ?_⟩
  · have hcovered (x : Nat) (hx : x ∈ a.block) : Covers (coalesced s.regions) x :=
      (covers_coalesced s.regions).mpr ((h.covers x).mpr (.inl ⟨a, ha, hx⟩))
    obtain ⟨r, hr, h1, h2⟩ := (separated_coalesced h.regions).exists_le hcovered
    have hstart := (h.live a ha).start
    exact ⟨r, hr, by omega, (h.live a ha).fits.trans h2⟩
  · exact h.free_apart a ha x ((h.live a ha).mem_of_owns hx)
  · by_cases hab : a = b
    · subst hab
      have hstart := (h.live a ha).start
      have h1 := hx.1
      have h2 := hxb.2
      omega
    · exact h.disjoint ha hb hab _ ((h.live a ha).mem_of_owns hx) ((h.live b hb).isBlock.mem_of_inHeader hxb)
  · exact h.disjoint ha hb hab x ((h.live a ha).mem_of_owns hx) ((h.live b hb).mem_of_owns hxb)

/-- In a run in which the padding of every request fits into the block it is
served from, the allocations are sound; `allocate` returns, with a pointer that
is aligned or with null, changes no byte of an allocation, and returns null for
a request that makes sense only if no free block has room. -/
theorem heap_sound (s : Heap) (h : (heapLTS.Guarded PaddingFits).Reachable s) : ∃ l, FreeBlocks s.manager l ∧ Sound s l ∧
    ∀ alignment numBytes, PaddingFits s (.allocate alignment numBytes) →
      ∃ pointer t l', s.manager.allocate alignment numBytes = some (pointer, t.manager) ∧
        heapStep s (.allocate alignment numBytes) t ∧ FreeBlocks t.manager l' ∧ Sound t l' ∧
        (pointer ≠ 0 → alignment.toNat ∣ pointer.toNat ∧
          ∃ a, t.live = s.live ++ [a] ∧ a.pointer = pointer ∧ a.numBytes = numBytes) ∧
        (∀ a ∈ s.live, ∀ x : UInt32, a.Owns x.toNat → t.manager.mem x = s.manager.mem x) ∧
        (pointer = 0 → 0 < numBytes.toNat → (∃ k, alignment.toNat = 2 ^ k) →
          ∀ i ∈ l, ¬ HasRoom alignment numBytes i) := by
  obtain ⟨l, hinv⟩ := heapInv_reachable h
  refine ⟨l, hinv.free, hinv.sound, fun alignment numBytes hfits => ?_⟩
  obtain ⟨pointer, t, l', ha⟩ := exists_allocates hinv hfits
  refine ⟨pointer, t, l', ha.allocate, ha.step, ha.inv.free, ha.inv.sound, fun hne => ?_, fun a hlive x hx => ?_,
    fun h0 hn hk => ha.refused h0 (validRequest_iff.mpr ⟨hn, hk⟩)⟩
  · obtain ⟨haligned, a, hlive, hpointer, hbytes, _⟩ := ha.served hne
    exact ⟨haligned, a, hlive, hpointer, hbytes⟩
  · exact ha.frame a hlive x ((hinv.live a hlive).mem_of_owns hx)

/-! ## The heap loses nothing -/

/-- In a run in which the padding of every request fits into the block it is
served from: the free list goes upwards with gaps, `free` finds the headers of
the blocks, and when everything is given back the free list is the regions. A
request and giving its pointer back leave the free list as it was. -/
theorem heap_loses_nothing (s : Heap) (h : (heapLTS.Guarded PaddingFits).Reachable s) : ∃ l, FreeBlocks s.manager l ∧
    (∀ a ∈ s.live, s.manager.headerOf a.pointer = some (address a.block)) ∧
    (s.live = [] → l = coalesced s.regions) ∧
    ∀ alignment numBytes pointer t, PaddingFits s (.allocate alignment numBytes) →
      s.manager.allocate alignment numBytes = some (pointer, t) → pointer ≠ 0 →
        ∃ u, t.free pointer = some u ∧ FreeBlocks u l := by
  obtain ⟨l, hinv⟩ := heapInv_reachable h
  refine ⟨l, hinv.free, fun a ha => headerOf_spec (hinv.live a ha), fun hlive => ?_, ?_⟩
  · refine hinv.free.separated.ext (separated_coalesced hinv.regions) fun x => ?_
    rw [covers_coalesced, hinv.covers, hlive]
    simp
  · intro alignment numBytes pointer t hfits hallocate hne
    obtain ⟨pointer', t', l', ha⟩ := exists_allocates hinv hfits
    cases ha.allocate.symm.trans hallocate
    obtain ⟨_, a, hlive, hpointer, _, hcovers⟩ := ha.served hne
    obtain ⟨u, l'', hfree, hcovers', hinv'⟩ := heapInv_free ha.inv (a := a) (by rw [hlive]; simp)
    rw [hpointer] at hfree
    have hl : l'' = l := hinv'.free.separated.ext hinv.free.separated fun x => by rw [hcovers', hcovers]
    exact ⟨u, hfree, hl ▸ hinv'.free⟩

/-! ## Small heaps -/

def emptyHeap : Heap := ⟨⟨0, fun _ => 0⟩, [], []⟩

/-- The heap after a region was added. -/
def added (s : Heap) (pRegion regionSize : UInt32) : Heap :=
  ⟨(s.manager.addContiguousMemoryRegion pRegion regionSize).getD s.manager, s.live,
    s.regions ++ (regionOf pRegion regionSize).toList⟩

/-- The heap after a call of `allocate`. -/
def allocated (s : Heap) (alignment numBytes : UInt32) : Heap :=
  let r := (s.manager.allocate alignment numBytes).getD (0, s.manager)
  ⟨r.2, s.live ++ newAllocation s.manager alignment numBytes r.1 r.2, s.regions⟩

theorem eq_some_getD {α : Type} {o : Option α} (h : o.isSome = true) (d : α) : o = some (o.getD d) := by
  cases o with
  | none => cases h
  | some a => rfl

theorem step_added {s : Heap} {p n : UInt32}
    (hnew : ∀ r ∈ regionOf p n, 0 < r.lo ∧ r.hi ≤ 2 ^ 32 ∧ ∀ r' ∈ s.regions, r'.Disjoint r)
    (h : (s.manager.addContiguousMemoryRegion p n).isSome = true) :
    heapLTS.step s (.addContiguousMemoryRegion p n) (added s p n) :=
  ⟨hnew, eq_some_getD h s.manager, rfl, rfl⟩

theorem step_allocated {s : Heap} {alignment numBytes : UInt32}
    (h : (s.manager.allocate alignment numBytes).isSome = true) :
    heapLTS.step s (.allocate alignment numBytes) (allocated s alignment numBytes) :=
  ⟨_, eq_some_getD h (0, s.manager), rfl, rfl⟩

theorem region_1000 : regionOf 0x1000 0x10 = some ⟨0x1000, 0x1010, by decide⟩ := by decide

theorem region_1010 : regionOf 0x1010 0x10 = some ⟨0x1010, 0x1020, by decide⟩ := by decide

/-- A heap with one small region. -/
def smallHeap : Heap := added emptyHeap 0x1000 0x10

theorem step_smallHeap : heapLTS.step emptyHeap (.addContiguousMemoryRegion 0x1000 0x10) smallHeap := by
  refine step_added (fun r hr => ?_) (by decide +kernel)
  rw [region_1000] at hr
  cases hr
  exact ⟨by decide, by decide, by simp [emptyHeap]⟩

/-- A second region begins where the first one ends. -/
def twoRegions : Heap := added smallHeap 0x1010 0x10

theorem step_twoRegions : heapLTS.step smallHeap (.addContiguousMemoryRegion 0x1010 0x10) twoRegions := by
  refine step_added (fun r hr => ?_) (by decide +kernel)
  rw [region_1010] at hr
  cases hr
  refine ⟨by decide, by decide, fun r' hr' => Extent.disjoint_of_hi_le ?_⟩
  revert r'
  decide +kernel

/-- Blocks of regions that touch are joined, and an allocation may lie in both.
A request with a padding larger than a block gets a pointer outside every
region. -/
theorem regions_joined_and_padding_wraps :
    (∃ s t a, heapLTS.Reachable s ∧ heapLTS.step s (.allocate 4 0x18) t ∧ t.live = [a] ∧ a.pointer = 0x1008 ∧
      a.numBytes = 0x18 ∧ ∀ r ∈ t.regions, ¬ (r.lo ≤ 0x1008 ∧ 0x1008 + 0x18 ≤ r.hi)) ∧
    (∃ s t a, heapLTS.Reachable s ∧ heapLTS.step s (.allocate 0x1000 1) t ∧ t.live = [a] ∧ a.pointer = 0x2000 ∧
      a.numBytes = 1 ∧ ¬ Covers t.regions 0x2000) := by
  refine ⟨⟨twoRegions, allocated twoRegions 4 0x18, ⟨⟨0x1000, 0x1020, by decide⟩, 0x1008, 0x18⟩,
      ⟨emptyHeap, [_, _], ⟨rfl, rfl, rfl⟩, .cons step_smallHeap (.cons step_twoRegions (.nil _))⟩,
      step_allocated (by decide +kernel), by decide +kernel, rfl, rfl, by decide +kernel⟩,
    ⟨smallHeap, allocated smallHeap 0x1000 1, ⟨⟨0x1000, 0x1010, by decide⟩, 0x2000, 1⟩,
      ⟨emptyHeap, [_], ⟨rfl, rfl, rfl⟩, .cons step_smallHeap (.nil _)⟩,
      step_allocated (by decide +kernel), by decide +kernel, rfl, rfl, ?_⟩⟩
  intro hc
  obtain ⟨r, hr, hx⟩ := hc
  revert r
  decide +kernel

/-- Four bytes of the small heap are in use. -/
theorem reachable_allocated : (heapLTS.Guarded PaddingFits).Reachable (allocated smallHeap 4 4) := by
  have hfind : smallHeap.manager.findBlock 4 4 = some (0, 0x1000) := by decide +kernel
  have hfits : PaddingFits smallHeap (.allocate 4 4) := by
    intro _ prev cur hcur _
    cases hfind.symm.trans hcur
    decide +kernel
  exact ⟨emptyHeap, [.addContiguousMemoryRegion 0x1000 0x10, .allocate 4 4], ⟨rfl, rfl, rfl⟩,
    .cons ⟨trivial, step_smallHeap⟩ (.cons ⟨hfits, step_allocated (by decide +kernel)⟩ (.nil _))⟩

theorem live_allocated : (allocated smallHeap 4 4).live = [⟨⟨0x1000, 0x1010, by decide⟩, 0x1008, 4⟩] := by
  decide +kernel

theorem heap_sound_allocated : (allocated smallHeap 4 4).live = [⟨⟨0x1000, 0x1010, by decide⟩, 0x1008, 4⟩] ∧
    ∃ l, FreeBlocks (allocated smallHeap 4 4).manager l ∧ Sound (allocated smallHeap 4 4) l := by
  obtain ⟨l, hfree, hsound, _⟩ := heap_sound _ reachable_allocated
  exact ⟨live_allocated, l, hfree, hsound⟩

theorem heap_loses_nothing_allocated : (allocated smallHeap 4 4).manager.headerOf 0x1008 = some 0x1000 := by
  obtain ⟨_, _, hheader, _⟩ := heap_loses_nothing _ reachable_allocated
  exact hheader ⟨⟨0x1000, 0x1010, by decide⟩, 0x1008, 4⟩ (by rw [live_allocated]; simp)

end CpuScheduler.L7
