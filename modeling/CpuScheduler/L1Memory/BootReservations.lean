import CpuScheduler.L1Memory.PageRegions

/-!
# Reservations at boot

`main` reserves the kernel's pages and the pages of the regions of the BIOS
memory map that may not be used. The regions are 64-bit ranges of bytes. An
entry becomes a range of managed pages or is passed over (`reserveEntry_eq`),
so the boot is a list of reservations, and the pages stay reserved whatever is
allocated and freed afterwards (`boot_reservations_hold`).

`allocatePageRange` itself takes any pages of the 32-bit space, for the
registers of the network card. Its loop runs one table too far: `getPageTable`
has no table 1023 (`allocatePageRange_clips_iff`).
-/
namespace CpuScheduler.L1

namespace PageAllocator

/-! ## The memory map -/

def NUM_PAGE_TABLES_FOR_KERNEL : Nat := 8

def LAST_ACCESSIBLE_ADDRESS : UInt64 := (1024 * 1023) * 4096 - 1

/-- mirrors bios_map.h:5-10 -/
structure BIOSMapEntry where
  regionAddr : UInt64
  regionLength : UInt64
  regionType : UInt32
  extendedAttributes : UInt32

/-- One round of the loop. mirrors main.cpp:73-91 -/
def reserveEntry (s : PageAllocator) (e : BIOSMapEntry) : Option PageAllocator :=
  if e.extendedAttributes &&& 0x1 = 0 then some s
  else if e.regionType = 1 ∨ e.regionType = 3 then some s
  else if e.regionLength = 0 then some s
  else if e.regionAddr > LAST_ACCESSIBLE_ADDRESS then some s
  else
    let firstPageIndex := e.regionAddr.toUInt32.toNat / 4096
    let lastPageIndex := if e.regionAddr + e.regionLength - 1 > LAST_ACCESSIBLE_ADDRESS then 1024 * 1023 - 1
      else (e.regionAddr + e.regionLength - 1).toUInt32.toNat / 4096
    s.allocatePageRange firstPageIndex lastPageIndex

/-- mirrors main.cpp:65-92 -/
def boot (s : PageAllocator) (biosMap : List BIOSMapEntry) : Option PageAllocator := do
  let s ← s.construct.allocatePageRange 0 (NUM_PAGE_TABLES_FOR_KERNEL * 1024 - 1)
  biosMap.foldlM reserveEntry s

namespace BIOSMapEntry

/-- The region may not be used. -/
def Reserved (e : BIOSMapEntry) : Prop :=
  e.extendedAttributes &&& 0x1 ≠ 0 ∧ e.regionType ≠ 1 ∧ e.regionType ≠ 3 ∧ e.regionLength ≠ 0

/-- A byte of the region is on page `p`. -/
def Touches (e : BIOSMapEntry) (p : Nat) : Prop :=
  ∃ x, x / 4096 = p ∧ e.regionAddr.toNat ≤ x ∧ x < e.regionAddr.toNat + e.regionLength.toNat

/-- The region does not go past the end of the 64-bit space. -/
def Fits (e : BIOSMapEntry) : Prop := e.regionAddr.toNat + e.regionLength.toNat ≤ 2 ^ 64

theorem touches_iff {e : BIOSMapEntry} (hlen : e.regionLength ≠ 0) (p : Nat) : e.Touches p ↔
    e.regionAddr.toNat / 4096 ≤ p ∧ p ≤ (e.regionAddr.toNat + e.regionLength.toNat - 1) / 4096 := by
  have hpos : 0 < e.regionLength.toNat := by
    rw [← UInt64.toNat_zero, ← UInt64.lt_iff_toNat_lt]
    exact UInt64.pos_iff_ne_zero.mpr hlen
  constructor
  · rintro ⟨x, rfl, hfirst, hlast⟩
    exact ⟨Nat.div_le_div_right hfirst, Nat.div_le_div_right (by omega)⟩
  · intro ⟨hfirst, hlast⟩
    refine ⟨max e.regionAddr.toNat (4096 * p), ?_, Nat.le_max_left _ _, ?_⟩
    · omega
    · omega

/-- The pages that an entry reserves. -/
theorem reserveEntry_cases (e : BIOSMapEntry) (he : e.Fits) :
    (∀ s : PageAllocator, reserveEntry s e = some s) ∧ (∀ p, p < 1023 * 1024 → ¬ (e.Reserved ∧ e.Touches p)) ∨
    ∃ r : PageRange, (∀ s : PageAllocator, reserveEntry s e = s.allocatePageRange r.first r.last) ∧
      ∀ p, p < 1023 * 1024 → (r.Mem p ↔ e.Reserved ∧ e.Touches p) := by
  have hlimit : LAST_ACCESSIBLE_ADDRESS.toNat = 1023 * 1024 * 4096 - 1 := by decide
  by_cases hattr : e.extendedAttributes &&& 0x1 = 0
  · exact .inl ⟨fun s => if_pos hattr, fun p _ h => h.1.1 hattr⟩
  by_cases htype : e.regionType = 1 ∨ e.regionType = 3
  · refine .inl ⟨fun s => ?_, fun p _ h => ?_⟩
    · rw [reserveEntry, if_neg hattr, if_pos htype]
    · exact htype.elim h.1.2.1 h.1.2.2.1
  by_cases hlen : e.regionLength = 0
  · refine .inl ⟨fun s => ?_, fun p _ h => h.1.2.2.2 hlen⟩
    rw [reserveEntry, if_neg hattr, if_neg htype, if_pos hlen]
  have hreserved : e.Reserved := ⟨hattr, fun h1 => htype (.inl h1), fun h3 => htype (.inr h3), hlen⟩
  by_cases haddr : e.regionAddr > LAST_ACCESSIBLE_ADDRESS
  · refine .inl ⟨fun s => ?_, fun p hp h => ?_⟩
    · rw [reserveEntry, if_neg hattr, if_neg htype, if_neg hlen, if_pos haddr]
    · have hfirst := ((touches_iff hlen p).mp h.2).1
      have hlow : LAST_ACCESSIBLE_ADDRESS.toNat < e.regionAddr.toNat := UInt64.lt_iff_toNat_lt.mp haddr
      omega
  -- the region begins in the accessible space; its end is cut off there
  have hpos : 0 < e.regionLength.toNat := by
    rw [← UInt64.toNat_zero, ← UInt64.lt_iff_toNat_lt]
    exact UInt64.pos_iff_ne_zero.mpr hlen
  have hlow : e.regionAddr.toNat ≤ LAST_ACCESSIBLE_ADDRESS.toNat := by
    rw [← UInt64.le_iff_toNat_le]
    exact UInt64.not_lt.mp haddr
  have hend : (e.regionAddr + e.regionLength - 1).toNat = e.regionAddr.toNat + e.regionLength.toNat - 1 := by
    have hsum : e.regionAddr.toNat + e.regionLength.toNat ≤ 2 ^ 64 := he
    rw [UInt64.toNat_sub, UInt64.toNat_add, UInt64.toNat_one]
    omega
  have hfirst : e.regionAddr.toUInt32.toNat / 4096 = e.regionAddr.toNat / 4096 := by
    rw [UInt64.toNat_toUInt32, Nat.mod_eq_of_lt (by omega)]
  have hlast : (if e.regionAddr + e.regionLength - 1 > LAST_ACCESSIBLE_ADDRESS then 1024 * 1023 - 1
      else (e.regionAddr + e.regionLength - 1).toUInt32.toNat / 4096) =
      min ((e.regionAddr.toNat + e.regionLength.toNat - 1) / 4096) (1023 * 1024 - 1) := by
    have hpast : e.regionAddr + e.regionLength - 1 > LAST_ACCESSIBLE_ADDRESS ↔
        1023 * 1024 * 4096 ≤ e.regionAddr.toNat + e.regionLength.toNat - 1 := by
      rw [gt_iff_lt, UInt64.lt_iff_toNat_lt, hend, hlimit]
      omega
    rw [UInt64.toNat_toUInt32, hend]
    by_cases hcut : e.regionAddr + e.regionLength - 1 > LAST_ACCESSIBLE_ADDRESS
    · have hpast := hpast.mp hcut
      rw [if_pos hcut]
      omega
    · have hbelow : ¬ 1023 * 1024 * 4096 ≤ e.regionAddr.toNat + e.regionLength.toNat - 1 := fun hle => hcut (hpast.mpr hle)
      rw [if_neg hcut]
      omega
  refine .inr ⟨⟨e.regionAddr.toNat / 4096, min ((e.regionAddr.toNat + e.regionLength.toNat - 1) / 4096) (1023 * 1024 - 1),
    by omega, by omega⟩, fun s => ?_, fun p hp => ?_⟩
  · rw [reserveEntry, if_neg hattr, if_neg htype, if_neg hlen, if_neg haddr, hfirst, hlast]
  · rw [touches_iff hlen, and_iff_right hreserved, PageRange.Mem]
    dsimp only
    omega

end BIOSMapEntry

/-! ## What stays reserved -/

/-- The pages of the kernel and of the regions that may not be used. -/
def bootPages (biosMap : List BIOSMapEntry) : Set Nat :=
  {p | p ≤ 8191 ∨ ∃ e ∈ biosMap, e.Reserved ∧ e.Touches p}

/-- The entries are reservations of managed pages. -/
theorem foldlM_reserveEntry {biosMap : List BIOSMapEntry} (hfits : ∀ e ∈ biosMap, e.Fits) :
    ∃ ranges : List PageRange, (∀ s, biosMap.foldlM reserveEntry s = reserveAll s ranges) ∧
      ∀ p, p < 1023 * 1024 → ((∃ r ∈ ranges, r.Mem p) ↔ ∃ e ∈ biosMap, e.Reserved ∧ e.Touches p) := by
  induction biosMap with
  | nil => exact ⟨[], fun s => rfl, fun p _ => by simp⟩
  | cons e biosMap ih =>
    obtain ⟨ranges, hall, hpages⟩ := ih fun e' he' => hfits e' (List.mem_cons_of_mem e he')
    rcases e.reserveEntry_cases (hfits e List.mem_cons_self) with ⟨hskip, hnone⟩ | ⟨r, hround, hmem⟩
    · refine ⟨ranges, fun s => ?_, fun p hp => ?_⟩
      · rw [List.foldlM_cons, hskip, Option.bind_eq_bind, Option.bind_some]
        exact hall s
      · rw [hpages p hp, List.exists_mem_cons_iff]
        exact (or_iff_right (hnone p hp)).symm
    · refine ⟨r :: ranges, fun s => ?_, fun p hp => ?_⟩
      · rw [List.foldlM_cons, reserveAll, List.foldlM_cons, hround]
        exact congrArg _ (funext hall)
      · rw [List.exists_mem_cons_iff, List.exists_mem_cons_iff, hmem p hp, hpages p hp]

/-- The kernel's pages. -/
def kernelRange : PageRange := ⟨0, NUM_PAGE_TABLES_FOR_KERNEL * 1024 - 1, Nat.zero_le _, by decide⟩

theorem boot_eq {biosMap : List BIOSMapEntry} (hfits : ∀ e ∈ biosMap, e.Fits) :
    ∃ ranges : List PageRange, (∀ s : PageAllocator, s.boot biosMap = reserveAll s.construct ranges) ∧
      ∀ p, p < 1023 * 1024 → ((∃ r ∈ ranges, r.Mem p) ↔ p ∈ bootPages biosMap) := by
  obtain ⟨ranges, hall, hpages⟩ := foldlM_reserveEntry hfits
  refine ⟨kernelRange :: ranges, fun s => ?_, fun p hp => ?_⟩
  · rw [reserveAll, List.foldlM_cons]
    exact congrArg _ (funext hall)
  · rw [List.exists_mem_cons_iff, hpages p hp]
    refine or_congr_left ⟨fun h => h.2, fun h => ⟨Nat.zero_le p, h⟩⟩

theorem reserveAll_isSome {s : PageAllocator} (h : s.Summarised) (ranges : List PageRange) :
    ∃ t, reserveAll s ranges = some t := by
  induction ranges generalizing s with
  | nil => exact ⟨s, rfl⟩
  | cons r ranges ih =>
    rw [reserveAll, List.foldlM_cons, allocatePageRange_eq h r.le r.managed]
    exact ih (summarised_withTables _ _)

/-- The boot comes to its end, exactly the kernel's pages and those of the
reserved regions are allocated, and they stay so in every run of allocations
and frees: no region that is handed out has one of them. -/
theorem boot_reservations_hold (s0 : PageAllocator) (biosMap : List BIOSMapEntry) (hfits : ∀ e ∈ biosMap, e.Fits) :
    ∃ s, s0.boot biosMap = some s ∧
      (∀ p, p < 1023 * 1024 → (codeOf s.pageTables p ≠ 0 ↔ p ∈ bootPages biosMap)) ∧
      ∀ calls c, (clientLTS s0).Run ⟨s, {p | p < 1023 * 1024 ∧ p ∈ bootPages biosMap}, ∅⟩ calls c →
        ∀ p, p < 1023 * 1024 → p ∈ bootPages biosMap →
          codeOf c.allocator.pageTables p ≠ 0 ∧ ∀ r ∈ c.live, ¬ r.Mem p := by
  obtain ⟨ranges, hboot, hpages⟩ := boot_eq hfits
  obtain ⟨s, hall⟩ := reserveAll_isSome (summarised_construct s0) ranges
  obtain ⟨hsum, hcodes⟩ := reserveAll_spec (summarised_construct s0) hall
  have hused : ∀ p, p < 1023 * 1024 → (codeOf s.pageTables p ≠ 0 ↔ p ∈ bootPages biosMap) := by
    intro p hp
    rw [hcodes p, codeOf_construct s0 hp, ← hpages p hp]
    simp
  have hreserved : {p | p < 1023 * 1024 ∧ p ∈ bootPages biosMap} = {p | ∃ r ∈ ranges, r.Mem p} := by
    ext p
    constructor
    · exact fun h => (hpages p h.1).mpr h.2
    · intro h
      obtain ⟨r, hr, hp⟩ := h
      have hlt : p < 1023 * 1024 := Nat.lt_of_le_of_lt hp.2 r.managed
      exact ⟨hlt, (hpages p hlt).mp ⟨r, hr, hp⟩⟩
  refine ⟨s, (hboot s0).trans hall, hused, fun calls c hrun p hp hmem => ?_⟩
  have hinit : (clientLTS s0).init ⟨s, {p | p < 1023 * 1024 ∧ p ∈ bootPages biosMap}, ∅⟩ := ⟨ranges, hall, hreserved, rfl⟩
  have hsame : c.reserved = {p | p < 1023 * 1024 ∧ p ∈ bootPages biosMap} := by
    refine hrun.keeps (I := fun c => c.reserved = {p | p < 1023 * 1024 ∧ p ∈ bootPages biosMap}) ?_ rfl
    intro c call d hc hstep
    obtain ⟨hkept, _⟩ := hstep
    exact hkept.trans hc
  have hrefines := (client_inductive s0).reachable c ⟨_, calls, hinit, hrun⟩
  have hin : p ∈ c.reserved := hsame ▸ ⟨hp, hmem⟩
  exact ⟨(hrefines.coloured.used p hp).mpr (.inl hin), fun r hr hpr => hrefines.coloured.unfixed r hr p hpr hin⟩

/-- A region of 5000 bytes that begins in the middle of page 9000 and one past
the end of the accessible space. -/
def sampleMap : List BIOSMapEntry :=
  [⟨9000 * 4096 + 2048, 5000, 2, 1⟩, ⟨0xFFFFFFFFFFFF0000, 0x10000, 2, 1⟩, ⟨0, 0x100000000, 1, 1⟩]

theorem boot_reservations_hold_sample : ∃ s, blank.boot sampleMap = some s ∧ codeOf s.pageTables 9001 ≠ 0 ∧
    codeOf s.pageTables 9002 = 0 := by
  have hfits : ∀ e ∈ sampleMap, e.Fits := by
    simp only [sampleMap, List.forall_mem_cons, BIOSMapEntry.Fits]
    decide
  obtain ⟨s, hboot, hused, _⟩ := boot_reservations_hold blank sampleMap hfits
  refine ⟨s, hboot, (hused 9001 (by decide)).mpr ?_, ?_⟩
  · refine .inr ⟨_, List.mem_cons_self, by unfold BIOSMapEntry.Reserved; decide, ?_⟩
    exact ⟨9001 * 4096, by decide, by decide, by decide⟩
  · by_contra hne
    rcases (hused 9002 (by decide)).mp hne with hlow | ⟨e, he, hreserved, x, hx, hfirst, hlast⟩
    · omega
    · simp only [sampleMap, List.mem_cons, List.not_mem_nil, or_false] at he
      rcases he with rfl | rfl | rfl
      · simp at hfirst hlast
        omega
      · simp at hfirst hlast
        omega
      · exact hreserved.2.1 rfl

/-! ## Any pages of the 32-bit space -/

/-- The page table has a page of the range, and is there. -/
def Touched (first last i : Nat) : Prop := i < 1023 ∧ first / 1024 ≤ i ∧ i ≤ last / 1024

/-- The managed pages of the range are allocated, the codes of the others are
as before, and the directory's entries of the touched tables sum them up. -/
structure Clipped (first last : Nat) (s t : PageAllocator) : Prop where
  marked : ∀ p, p < 1023 * 1024 → first ≤ p → p ≤ last → codeOf t.pageTables p ≠ 0
  others : ∀ p, p < first ∨ last < p ∨ 1023 * 1024 ≤ p → codeOf t.pageTables p = codeOf s.pageTables p
  summaries : ∀ i, Touched first last i → pageCode (t.pageDirectory.pageDirectoryEntries i) = summaryCode (t.pageTables i)
  untouched : ∀ i, ¬ Touched first last i →
    t.pageDirectory.pageDirectoryEntries i = s.pageDirectory.pageDirectoryEntries i

/-- No null pointer is dereferenced, and the range is cut off. -/
def ClipsSafely (s : PageAllocator) (first last : Nat) : Prop :=
  ∃ t, s.allocatePageRange first last = some t ∧ Clipped first last s t

/-- Rounds over tables that exist, whatever the directory says. -/
theorem foldlM_tableRound_any {F : Nat → PageTable → PageTable} {G : Nat → PageTable → UInt32} {is : List Nat}
    (hnodup : is.Nodup) (his : ∀ i ∈ is, i < 1023) (s : PageAllocator) : ∃ t, is.foldlM (tableRound F G) s = some t ∧
    t.pageTables = (fun i => if i ∈ is then F i (s.pageTables i) else s.pageTables i) ∧
    ∀ i, t.pageDirectory.pageDirectoryEntries i = if i ∈ is then
      orCode (clearCode (s.pageDirectory.pageDirectoryEntries i)) (G i (F i (s.pageTables i)))
      else s.pageDirectory.pageDirectoryEntries i := by
  induction is generalizing s with
  | nil => exact ⟨s, rfl, by simp, by simp⟩
  | cons i is ih =>
    obtain ⟨hnot, hnodup⟩ := List.nodup_cons.mp hnodup
    obtain ⟨t, hrest, htables, hentries⟩ := ih hnodup (fun k hk => his k (List.mem_cons_of_mem i hk))
      ((s.setTable i (F i (s.pageTables i))).setSummary i (G i (F i (s.pageTables i))))
    have hround : tableRound F G s i = some ((s.setTable i (F i (s.pageTables i))).setSummary i (G i (F i (s.pageTables i)))) := by
      rw [tableRound, getPageTable, if_pos (his i List.mem_cons_self), Option.map_some]
    refine ⟨t, by rw [List.foldlM_cons, hround]; exact hrest, ?_, fun k => ?_⟩
    · rw [htables]
      funext k
      by_cases hk : k = i
      · subst hk
        simp [hnot, setTable, setSummary]
      · simp [hk, setTable, setSummary]
    · rw [hentries k]
      by_cases hk : k = i
      · subst hk
        simp [hnot, setTable, setSummary]
      · simp [hk, setTable, setSummary]

/-- A round over a table that does not exist. -/
theorem foldlM_tableRound_none {F : Nat → PageTable → PageTable} {G : Nat → PageTable → UInt32} {is : List Nat} {i : Nat}
    (hi : i ∈ is) (hout : 1023 ≤ i) (s : PageAllocator) : is.foldlM (tableRound F G) s = none := by
  induction is generalizing s with
  | nil => cases hi
  | cons k is ih =>
    rw [List.foldlM_cons]
    cases hround : tableRound F G s k with
    | none => rfl
    | some t =>
      have hk : k < 1023 := by
        by_contra hge
        rw [tableRound, getPageTable, if_neg hge] at hround
        cases hround
      rcases List.mem_cons.mp hi with rfl | hi
      · omega
      · exact ih hi t

theorem clipsSafely_of_lt (s : PageAllocator) {first last : Nat} (hle : first ≤ last) (hlt : last < 1023 * 1024) :
    ClipsSafely s first last := by
  have hmin : min (last / 1024) LAST_POSSIBLE_PDE_INDEX = last / 1024 := by
    unfold LAST_POSSIBLE_PDE_INDEX
    omega
  have hdiv : first / 1024 ≤ last / 1024 := Nat.div_le_div_right hle
  have hmem (i : Nat) : i ∈ List.range' (first / 1024) (last / 1024 + 1 - first / 1024) ↔ Touched first last i := by
    rw [List.mem_range'_1, Touched]
    omega
  obtain ⟨t, hcall, htables, hentries⟩ := foldlM_tableRound_any (F := fun i => orLoop 1 (entries first last i))
    (G := fun _ t => if checkPageTableFullyAllocated t then PAGE_TABLE_FULLY_ALLOCATED_CODE
      else PAGE_TABLE_PARTLY_ALLOCATED_CODE) List.nodup_range' (fun i hi => ((hmem i).mp hi).1) s
  rw [mark_eq 1 hle] at htables
  refine ⟨t, by rw [allocatePageRange, hmin]; exact hcall, ?_, ?_, ?_, ?_⟩
  · intro p _ hfirst hlast
    rw [htables]
    exact (codeOf_mark_ne_zero_iff _ (by decide) (by decide) _ _ p).mpr (.inr ⟨hfirst, Nat.lt_succ_of_le hlast⟩)
  · intro p hp
    rw [htables, mark, codeOf_mapPages, if_neg (by omega)]
  · intro i hi
    have hone : (1 : UInt32) < 4 ∧ (1 : UInt32) ≠ 0 := by decide
    obtain ⟨j, hj, hne⟩ := exists_allocated hone.1 hone.2 hle hi.2.1 hi.2.2 (s.pageTables i)
    have htable : t.pageTables i = orLoop 1 (entries first last i) (s.pageTables i) := by
      rw [htables, ← mark_eq 1 hle]
      exact if_pos ((hmem i).mpr hi)
    rw [hentries i, if_pos ((hmem i).mpr hi), ← summaryCode_of_allocated hj hne, pageCode_summary, htable]
  · intro i hi
    rw [hentries i, if_neg fun hin => hi ((hmem i).mp hin)]

theorem allocatePageRange_none (s : PageAllocator) {first last : Nat} (hlt : first < 2 ^ 20) (hge : 1023 * 1024 ≤ last) :
    s.allocatePageRange first last = none := by
  have hmem : 1023 ∈ List.range' (first / 1024) (min (last / 1024) LAST_POSSIBLE_PDE_INDEX + 1 - first / 1024) := by
    rw [List.mem_range'_1, LAST_POSSIBLE_PDE_INDEX]
    omega
  unfold allocatePageRange
  exact foldlM_tableRound_none (F := fun i => orLoop 1 (entries first last i)) (G := fun _ t =>
    if checkPageTableFullyAllocated t then PAGE_TABLE_FULLY_ALLOCATED_CODE
    else PAGE_TABLE_PARTLY_ALLOCATED_CODE) hmem (Nat.le_refl _) s

/-- A range is cut off safely if and only if there is nothing to cut off: one
that reaches the last 1024 pages of the 32-bit space goes to a table that does
not exist. -/
theorem allocatePageRange_clips_iff (s : PageAllocator) (first last : Nat) (hle : first ≤ last) (hlt : last < 2 ^ 20) :
    ClipsSafely s first last ↔ last < 1023 * 1024 := by
  refine ⟨fun h => ?_, clipsSafely_of_lt s hle⟩
  obtain ⟨t, hcall, _⟩ := h
  by_contra hge
  rw [allocatePageRange_none s (by omega) (by omega)] at hcall
  cases hcall

theorem allocatePageRange_clips_last : ClipsSafely blank 8192 (1023 * 1024 - 1) :=
  (allocatePageRange_clips_iff blank 8192 (1023 * 1024 - 1) (by decide) (by decide)).mpr (by decide)

/-- Registers at address 0xFFC00000. -/
theorem not_clipsSafely_0xFFC00 : blank.allocatePageRange 0xFFC00 0xFFC00 = none ∧ ¬ ClipsSafely blank 0xFFC00 0xFFC00 := by
  have hnone := @allocatePageRange_none blank 0xFFC00 0xFFC00 (by decide) (by decide)
  refine ⟨hnone, fun h => ?_⟩
  obtain ⟨t, hcall, _⟩ := h
  rw [hnone] at hcall
  cases hcall

end PageAllocator

end CpuScheduler.L1
