import CpuScheduler.Core.LTS
import CpuScheduler.Core.Runs
import CpuScheduler.L1Memory.PageAllocator

/-!
# What the allocator's operations write

The code of a page table in the page directory is a function of the table
(`summaryCode`). A state whose directory agrees with it is `Summarised`. On
such a state each operation replaces the page tables and sums them up again
(`withTables`), whatever shortcut it takes to find the new code:

* `allocatePageRange_eq`, `allocatePagesStartingAtIndex_eq`: the pages of a
  range get a code (`mark`);
* `freeContiguousPages_eq`: the pages of the same code from the given page on
  are cleared (`unmark`).
-/
namespace CpuScheduler.L1

namespace PageAllocator

/-! ## Summaries -/

theorem fullyNotAllocated_iff (t : PageTable) :
    checkPageTableFullyNotAllocated t = true ↔ ∀ j, j < 1024 → pageCode (t j) = 0 := by
  unfold checkPageTableFullyNotAllocated
  simp only [List.all_eq_true, List.mem_range, isFree_iff]

theorem fullyAllocated_iff (t : PageTable) :
    checkPageTableFullyAllocated t = true ↔ ∀ j, j < 1024 → pageCode (t j) ≠ 0 := by
  unfold checkPageTableFullyAllocated
  simp only [List.all_eq_true, List.mem_range, Bool.not_eq_true', ← Bool.not_eq_true, isFree_iff, ne_eq]

/-- The code that sums up a page table. -/
def summaryCode (t : PageTable) : UInt32 :=
  if checkPageTableFullyNotAllocated t then PAGE_TABLE_FULLY_NOT_ALLOCATED_CODE
  else if checkPageTableFullyAllocated t then PAGE_TABLE_FULLY_ALLOCATED_CODE
  else PAGE_TABLE_PARTLY_ALLOCATED_CODE

theorem summaryCode_lt (t : PageTable) : summaryCode t < 4 := by
  unfold summaryCode
  split
  · decide
  split <;> decide

theorem summaryCode_eq_zero_iff (t : PageTable) :
    summaryCode t = 0 ↔ ∀ j, j < 1024 → pageCode (t j) = 0 := by
  rw [← fullyNotAllocated_iff]
  unfold summaryCode
  split
  · exact iff_of_true rfl ‹_›
  · refine iff_of_false ?_ ‹_›
    split <;> decide

theorem summaryCode_eq_two_iff (t : PageTable) :
    summaryCode t = 2 ↔ ∀ j, j < 1024 → pageCode (t j) ≠ 0 := by
  rw [← fullyAllocated_iff]
  unfold summaryCode
  split
  · rename_i h
    refine iff_of_false (by decide) ?_
    rw [fullyNotAllocated_iff] at h
    rw [fullyAllocated_iff]
    intro h2
    exact h2 0 (by decide) (h 0 (by decide))
  split
  · exact iff_of_true rfl ‹_›
  · exact iff_of_false (by decide) ‹_›

/-- The state with other page tables, the directory summed up again. -/
def withTables (s : PageAllocator) (tables : Nat → PageTable) : PageAllocator where
  pageDirectory := { s.pageDirectory with
    pageDirectoryEntries := fun i =>
      if i < 1023 then orCode (clearCode (s.pageDirectory.pageDirectoryEntries i)) (summaryCode (tables i))
      else s.pageDirectory.pageDirectoryEntries i }
  pageTables := tables

/-- Every code in the directory sums up its table. -/
def Summarised (s : PageAllocator) : Prop :=
  ∀ i, i < 1023 → pageCode (s.pageDirectory.pageDirectoryEntries i) = summaryCode (s.pageTables i)

@[simp] theorem withTables_pageTables (s : PageAllocator) (tables : Nat → PageTable) :
    (s.withTables tables).pageTables = tables := rfl

theorem pageCode_summary (w : UInt32) (t : PageTable) :
    pageCode (orCode (clearCode w) (summaryCode t)) = summaryCode t := by
  rw [pageCode_orCode _ (summaryCode_lt t), pageCode_clearCode, UInt32.zero_or]

theorem summarised_withTables (s : PageAllocator) (tables : Nat → PageTable) :
    (s.withTables tables).Summarised := by
  intro i hi
  simp only [withTables, hi, if_true]
  exact pageCode_summary _ _

theorem withTables_withTables (s : PageAllocator) (tables tables' : Nat → PageTable) :
    (s.withTables tables).withTables tables' = s.withTables tables' := by
  have hclear (w : UInt32) (t : PageTable) : clearCode (orCode (clearCode w) (summaryCode t)) = clearCode w := by
    rw [clearCode_orCode _ (summaryCode_lt t), clearCode_clearCode]
  simp only [withTables, mk.injEq, PageDirectory.mk.injEq, and_true]
  funext i
  split
  · rw [hclear]
  · rfl

/-- A summarised state is determined by its tables and its other bits. -/
theorem Summarised.withTables_self {s : PageAllocator} (h : s.Summarised) :
    s.withTables s.pageTables = s := by
  obtain ⟨⟨entries, helper⟩, tables⟩ := s
  simp only [withTables, mk.injEq, PageDirectory.mk.injEq, and_true]
  funext i
  split
  · rename_i hi
    rw [← h i hi]
    exact orCode_clearCode _
  · rfl

/-- Replacing one table and its code by the code that sums it up. -/
theorem Summarised.set_eq {s : PageAllocator} (h : s.Summarised) {i : Nat} (hi : i < 1023) (t : PageTable) :
    (s.setTable i t).setSummary i (summaryCode t) =
      s.withTables (Function.update s.pageTables i t) := by
  obtain ⟨⟨entries, helper⟩, tables⟩ := s
  simp only [withTables, setTable, setSummary, mk.injEq, PageDirectory.mk.injEq, and_true]
  funext k
  by_cases hk : k = i
  · subst hk
    simp only [Function.update_self, hi, if_true]
  · rw [Function.update_of_ne hk, Function.update_of_ne hk]
    split
    · rename_i hlt
      rw [← h k hlt]
      exact (orCode_clearCode _).symm
    · rfl

/-! ## Rounds over the tables -/

/-- One round: table `i` is replaced and summed up. -/
def tableRound (F : Nat → PageTable → PageTable) (G : Nat → PageTable → UInt32) (s : PageAllocator)
    (i : Nat) : Option PageAllocator :=
  (s.getPageTable i).map fun t => (s.setTable i (F i t)).setSummary i (G i (F i t))

/-- A loop of rounds over different tables. -/
theorem foldlM_tableRound {F : Nat → PageTable → PageTable} {G : Nat → PageTable → UInt32}
    {is : List Nat} (hnodup : is.Nodup) {s : PageAllocator} (h : s.Summarised)
    (hG : ∀ i ∈ is, i < 1023 ∧ G i (F i (s.pageTables i)) = summaryCode (F i (s.pageTables i))) :
    is.foldlM (tableRound F G) s =
      some (s.withTables fun i => if i ∈ is then F i (s.pageTables i) else s.pageTables i) := by
  induction is generalizing s with
  | nil => simp only [List.foldlM_nil, List.not_mem_nil, if_false, h.withTables_self]; rfl
  | cons i is ih =>
    obtain ⟨hi, hsum⟩ := hG i List.mem_cons_self
    obtain ⟨hnot, hnodup⟩ := List.nodup_cons.mp hnodup
    have hround : tableRound F G s i =
        some (s.withTables (Function.update s.pageTables i (F i (s.pageTables i)))) := by
      unfold tableRound getPageTable
      rw [if_pos hi, Option.map_some, hsum, h.set_eq hi]
    rw [List.foldlM_cons, hround, Option.bind_eq_bind, Option.bind_some]
    have hother : ∀ k ∈ is, Function.update s.pageTables i (F i (s.pageTables i)) k = s.pageTables k := by
      intro k hk
      have hne : k ≠ i := by
        intro he
        exact hnot (he ▸ hk)
      exact Function.update_of_ne hne _ _
    rw [ih hnodup (summarised_withTables _ _)]
    · rw [withTables_withTables]
      refine congrArg (fun tables => some (s.withTables tables)) ?_
      funext k
      by_cases hk : k ∈ is
      · simp only [hk, if_true, List.mem_cons, or_true, withTables_pageTables, hother k hk]
      · by_cases hki : k = i
        · subst hki
          simp only [hk, if_false, withTables_pageTables, Function.update_self, List.mem_cons_self, if_true]
        · simp only [hk, if_false, withTables_pageTables, Function.update_of_ne hki, List.mem_cons, hki,
            or_self]
    · intro k hk
      rw [withTables_pageTables, hother k hk]
      exact hG k (List.mem_cons_of_mem _ hk)

/-! ## Pages -/

/-- The code of page `p`. -/
def codeOf (tables : Nat → PageTable) (p : Nat) : UInt32 := pageCode (tables (p / 1024) (p % 1024))

/-- The entries of pages `a` to `b - 1` go through `f`. -/
def mapPages (f : UInt32 → UInt32) (a b : Nat) (tables : Nat → PageTable) : Nat → PageTable :=
  fun i j => if j < 1024 ∧ a ≤ 1024 * i + j ∧ 1024 * i + j < b then f (tables i j) else tables i j

theorem mapPages_page (f : UInt32 → UInt32) (a b : Nat) (tables : Nat → PageTable) (p : Nat) :
    mapPages f a b tables (p / 1024) (p % 1024) =
      if a ≤ p ∧ p < b then f (tables (p / 1024) (p % 1024)) else tables (p / 1024) (p % 1024) := by
  unfold mapPages
  rw [Nat.div_add_mod]
  simp only [Nat.mod_lt p (by decide : 0 < 1024), true_and]

theorem codeOf_mapPages (f : UInt32 → UInt32) (a b : Nat) (tables : Nat → PageTable) (p : Nat) :
    codeOf (mapPages f a b tables) p =
      if a ≤ p ∧ p < b then pageCode (f (tables (p / 1024) (p % 1024))) else codeOf tables p := by
  unfold codeOf
  rw [mapPages_page]
  split <;> rfl

theorem codeOf_at (tables : Nat → PageTable) {i j : Nat} (hj : j < 1024) :
    codeOf tables (1024 * i + j) = pageCode (tables i j) := by
  unfold codeOf
  rw [show (1024 * i + j) / 1024 = i by omega, show (1024 * i + j) % 1024 = j by omega]

theorem orLoop_apply (code : UInt32) {js : List Nat} (hnodup : js.Nodup) (t : PageTable) (j : Nat) :
    orLoop code js t j = if j ∈ js then orCode (t j) code else t j := by
  induction js generalizing t with
  | nil => simp [orLoop]
  | cons k js ih =>
    obtain ⟨hnot, hnodup⟩ := List.nodup_cons.mp hnodup
    rw [orLoop, ih hnodup]
    by_cases hk : j = k
    · subst hk
      simp [hnot]
    · simp [hk]

theorem entries_nodup (first last i : Nat) : (entries first last i).Nodup := List.nodup_range'

theorem mem_entries {first last i j : Nat} (hi : first / 1024 ≤ i) (hi' : i ≤ last / 1024) :
    j ∈ entries first last i ↔ j < 1024 ∧ first ≤ 1024 * i + j ∧ 1024 * i + j < last + 1 := by
  unfold entries
  simp only [List.mem_range'_1]
  split <;> split <;> omega

/-- The pages of a range get a code. -/
def mark (code : UInt32) (a b : Nat) (tables : Nat → PageTable) : Nat → PageTable :=
  mapPages (orCode · code) a b tables

/-- What the loops over a range leave, table by table. -/
theorem mark_eq (code : UInt32) {first last : Nat} (hle : first ≤ last) (tables : Nat → PageTable) :
    (fun i => if i ∈ List.range' (first / 1024) (last / 1024 + 1 - first / 1024) then
        orLoop code (entries first last i) (tables i) else tables i) =
      mark code first (last + 1) tables := by
  funext i j
  have hdiv : first / 1024 ≤ last / 1024 := Nat.div_le_div_right hle
  unfold mark mapPages
  by_cases hi : first / 1024 ≤ i ∧ i ≤ last / 1024
  · have hmem : i ∈ List.range' (first / 1024) (last / 1024 + 1 - first / 1024) := by
      rw [List.mem_range'_1]
      omega
    simp only [hmem, if_true, orLoop_apply code (entries_nodup first last i), mem_entries hi.1 hi.2]
  · have hmem : i ∉ List.range' (first / 1024) (last / 1024 + 1 - first / 1024) := by
      rw [List.mem_range'_1]
      omega
    rw [if_neg hmem, if_neg]
    omega

theorem summaryCode_of_allocated {t : PageTable} {j : Nat} (hj : j < 1024) (h : pageCode (t j) ≠ 0) :
    summaryCode t = if checkPageTableFullyAllocated t then PAGE_TABLE_FULLY_ALLOCATED_CODE
      else PAGE_TABLE_PARTLY_ALLOCATED_CODE := by
  have hnot : ¬ checkPageTableFullyNotAllocated t = true := by
    intro hall
    exact h ((fullyNotAllocated_iff t).mp hall j hj)
  unfold summaryCode
  rw [if_neg hnot]

theorem or_ne_zero {a c : UInt32} (hc : c < 4) (h0 : c ≠ 0) (ha : a < 4) : a ||| c ≠ 0 := by
  obtain rfl | rfl | rfl | rfl := code_cases hc <;> obtain rfl | rfl | rfl | rfl := code_cases ha <;>
    first
    | exact absurd rfl h0
    | decide

theorem pageCode_orCode_ne_zero (w : UInt32) {c : UInt32} (hc : c < 4) (h0 : c ≠ 0) :
    pageCode (orCode w c) ≠ 0 := by
  rw [pageCode_orCode w hc]
  exact or_ne_zero hc h0 (pageCode_lt w)

/-- A round of a loop over a range leaves a page allocated. -/
theorem exists_allocated {code : UInt32} (hc : code < 4) (h0 : code ≠ 0) {first last i : Nat}
    (hle : first ≤ last) (hi : first / 1024 ≤ i) (hi' : i ≤ last / 1024) (t : PageTable) :
    ∃ j, j < 1024 ∧ pageCode (orLoop code (entries first last i) t j) ≠ 0 := by
  have hj : ∃ j, j < 1024 ∧ first ≤ 1024 * i + j ∧ 1024 * i + j < last + 1 := by
    refine ⟨if i = first / 1024 then first % 1024 else 0, ?_⟩
    split <;> omega
  obtain ⟨j, hj⟩ := hj
  refine ⟨j, hj.1, ?_⟩
  rw [orLoop_apply code (entries_nodup first last i), if_pos ((mem_entries hi hi').mpr hj)]
  exact pageCode_orCode_ne_zero _ hc h0

theorem allocatePageRange_eq {s : PageAllocator} (h : s.Summarised) {first last : Nat}
    (hle : first ≤ last) (hlt : last < 1023 * 1024) :
    s.allocatePageRange first last = some (s.withTables (mark 1 first (last + 1) s.pageTables)) := by
  unfold allocatePageRange
  have hmin : min (last / 1024) LAST_POSSIBLE_PDE_INDEX = last / 1024 := by
    unfold LAST_POSSIBLE_PDE_INDEX
    omega
  rw [hmin, ← mark_eq 1 hle]
  refine foldlM_tableRound (F := fun i => orLoop 1 (entries first last i)) (G := fun _ t =>
    if checkPageTableFullyAllocated t then PAGE_TABLE_FULLY_ALLOCATED_CODE
    else PAGE_TABLE_PARTLY_ALLOCATED_CODE) List.nodup_range' h ?_
  intro i hi
  rw [List.mem_range'_1] at hi
  refine ⟨by omega, ?_⟩
  have hone : (1 : UInt32) < 4 ∧ (1 : UInt32) ≠ 0 := by decide
  obtain ⟨j, hj, hne⟩ := exists_allocated hone.1 hone.2 hle hi.1 (by omega) (s.pageTables i)
  exact (summaryCode_of_allocated hj hne).symm

/-- The rounds of `allocatePagesStartingAtIndex`, the whole-table shortcut
included. -/
theorem foldlM_pagesRound {s : PageAllocator} (h : s.Summarised) {code : UInt32} (hc : code < 4)
    (h0 : code ≠ 0) {first last : Nat} (hle : first ≤ last) (hlt : last < 1023 * 1024) :
    (List.range' (first / 1024) (last / 1024 + 1 - first / 1024)).foldlM (pagesRound code first last) s =
      some (s.withTables (mark code first (last + 1) s.pageTables)) := by
  rw [← mark_eq code hle]
  refine foldlM_tableRound (F := fun i => orLoop code (entries first last i)) (G := fun i t =>
    if (if i = first / 1024 then first % 1024 else 0) = 0 ∧
        (if i = last / 1024 then last % 1024 else 1023) = 1023 then PAGE_TABLE_FULLY_ALLOCATED_CODE
    else if checkPageTableFullyAllocated t then PAGE_TABLE_FULLY_ALLOCATED_CODE
    else PAGE_TABLE_PARTLY_ALLOCATED_CODE) List.nodup_range' h ?_
  intro i hi
  rw [List.mem_range'_1] at hi
  refine ⟨by omega, ?_⟩
  obtain ⟨j, hj, hne⟩ := exists_allocated hc h0 hle hi.1 (by omega) (s.pageTables i)
  rw [summaryCode_of_allocated hj hne]
  by_cases hfull : checkPageTableFullyAllocated (orLoop code (entries first last i) (s.pageTables i)) = true
  · simp only [hfull, if_true, ite_self]
  · -- the shortcut is not taken: a table that the range covers is fully allocated
    rw [if_neg]
    intro hwhole
    apply hfull
    rw [fullyAllocated_iff]
    intro j hj
    have hmem : j ∈ entries first last i := by
      unfold entries
      simp only [hwhole.1, hwhole.2, List.mem_range'_1]
      omega
    rw [orLoop_apply code (entries_nodup first last i), if_pos hmem]
    exact pageCode_orCode_ne_zero _ hc h0

/-! ## Colours -/

theorem newPageCode_spec {pre post : UInt32} (hpre : pre < 4) (hpost : post < 4) :
    newPageCode pre post < 4 ∧ newPageCode pre post ≠ 0 ∧ newPageCode pre post ≠ pre ∧
      newPageCode pre post ≠ post := by
  obtain rfl | rfl | rfl | rfl := code_cases hpre <;> obtain rfl | rfl | rfl | rfl := code_cases hpost <;>
    decide

theorem codeOf_lt (tables : Nat → PageTable) (p : Nat) : codeOf tables p < 4 := pageCode_lt _

/-- The code in front of page `a`; 1 at the beginning. -/
def codeBefore (tables : Nat → PageTable) (a : Nat) : UInt32 :=
  if a > 0 then codeOf tables (a - 1) else 1

/-- The code of page `b`; 1 at the end. -/
def codeBehind (tables : Nat → PageTable) (b : Nat) : UInt32 :=
  if b < 1023 * 1024 then codeOf tables b else 1

/-- The code that a new region of the pages `a` to `b - 1` gets. -/
def colour (tables : Nat → PageTable) (a b : Nat) : UInt32 :=
  newPageCode (codeBefore tables a) (codeBehind tables b)

theorem codeBefore_lt (tables : Nat → PageTable) (a : Nat) : codeBefore tables a < 4 := by
  unfold codeBefore
  split
  · exact codeOf_lt _ _
  · decide

theorem codeBehind_lt (tables : Nat → PageTable) (b : Nat) : codeBehind tables b < 4 := by
  unfold codeBehind
  split
  · exact codeOf_lt _ _
  · decide

theorem colour_spec (tables : Nat → PageTable) (a b : Nat) :
    colour tables a b < 4 ∧ colour tables a b ≠ 0 ∧ colour tables a b ≠ codeBefore tables a ∧
      colour tables a b ≠ codeBehind tables b :=
  newPageCode_spec (codeBefore_lt tables a) (codeBehind_lt tables b)

theorem codeAt_eq (s : PageAllocator) {p : Nat} (hp : p < 1023 * 1024) :
    s.codeAt p = some (codeOf s.pageTables p) := by
  unfold codeAt getPageTable
  rw [if_pos (by omega), Option.map_some]
  rfl

theorem allocatePagesStartingAtIndex_eq {s : PageAllocator} (h : s.Summarised) {a n : Nat}
    (hn : 0 < n) (hle : a + n ≤ 1023 * 1024) :
    s.allocatePagesStartingAtIndex a n =
      some (s.withTables (mark (colour s.pageTables a (a + n)) a (a + n) s.pageTables)) := by
  have hend : (a + n - 1) % 2 ^ 32 = a + n - 1 := Nat.mod_eq_of_lt (by omega)
  have hlast : a + n - 1 + 1 = a + n := by omega
  obtain ⟨hc, h0, -, -⟩ := colour_spec s.pageTables a (a + n)
  have hrounds := foldlM_pagesRound h hc h0 (by omega : a ≤ a + n - 1) (by omega)
  rw [hlast] at hrounds
  rw [← hrounds]
  unfold allocatePagesStartingAtIndex colour codeBefore codeBehind
  rw [if_neg (by omega), hend]
  have hbehind : a + n - 1 < 1023 * 1024 - 1 ↔ a + n < 1023 * 1024 := by omega
  simp only [hbehind, hlast, Option.bind_eq_bind]
  by_cases ha : a > 0
  · have hpre := codeAt_eq s (p := a - 1) (by omega)
    by_cases hb : a + n < 1023 * 1024
    · simp only [ha, hb, if_true, hpre, codeAt_eq s hb, Option.bind_some]
    · simp only [ha, hb, if_true, if_false, hpre, Option.bind_some]
  · by_cases hb : a + n < 1023 * 1024
    · simp only [ha, hb, if_true, if_false, codeAt_eq s hb, Option.bind_some]
    · simp only [ha, hb, if_false, Option.bind_some]

/-! ## Freeing -/

theorem clearCode_of_free {w : UInt32} (h : pageCode w = 0) : clearCode w = w :=
  entry_ext ((pageCode_clearCode w).trans h.symm) (clearCode_clearCode w)

/-- The table with `m` entries cleared, from entry `b` on. -/
def clearRun (t : PageTable) (b m : Nat) : PageTable :=
  fun j => if b ≤ j ∧ j < b + m then clearCode (t j) else t j

@[simp] theorem clearRun_zero (t : PageTable) (b : Nat) : clearRun t b 0 = t := by
  funext j
  exact if_neg (by omega)

theorem clearRun_succ (t : PageTable) (b m : Nat) :
    clearRun (Function.update t b (clearCode (t b))) (b + 1) m = clearRun t b (m + 1) := by
  funext j
  unfold clearRun
  by_cases hj : j = b
  · subst hj
    simp
  · rw [Function.update_of_ne hj]
    exact if_congr (by omega) rfl rfl

/-- How many entries from entry `b` on, at most `n`, have the code. -/
def runIn (code : UInt32) (t : PageTable) (n b : Nat) : Nat := runLen (fun j => pageCode (t j) == code) n b

/-- The inner loop clears the run of entries with the code. -/
theorem clearLoop_eq (code : UInt32) (n b : Nat) (t : PageTable) :
    clearLoop code (List.range' b n) t = (clearRun t b (runIn code t n b), runIn code t n b) := by
  induction n generalizing b t with
  | zero => simp [clearLoop, runIn, runLen]
  | succ n ih =>
    rw [List.range'_succ, clearLoop]
    by_cases hb : pageCode (t b) = code
    · have hrun : runIn code t (n + 1) b =
          runIn code (Function.update t b (clearCode (t b))) n (b + 1) + 1 := by
        unfold runIn
        rw [runLen, if_pos (beq_iff_eq.mpr hb), Nat.add_right_cancel_iff]
        refine runLen_congr fun q h1 _ => ?_
        rw [Function.update_of_ne (by omega)]
      rw [if_neg (not_not_intro hb), ih, hrun, clearRun_succ]
    · have hrun : runIn code t (n + 1) b = 0 := by
        unfold runIn
        rw [runLen, if_neg (by simpa using hb)]
      rw [if_pos hb, hrun, clearRun_zero]

/-- How many pages from page `p` on, at most `n`, have the code. -/
def runOf (code : UInt32) (tables : Nat → PageTable) (n p : Nat) : Nat :=
  runLen (fun q => codeOf tables q == code) n p

theorem runIn_eq (code : UInt32) (tables : Nat → PageTable) (i : Nat) {n b : Nat} (h : b + n ≤ 1024) :
    runIn code (tables i) n b = runOf code tables n (1024 * i + b) := by
  unfold runIn runOf
  rw [runLen_shift]
  refine runLen_congr fun q _ h2 => ?_
  rw [codeOf_at tables (by omega : q < 1024)]

theorem mapPages_empty (f : UInt32 → UInt32) (a : Nat) (tables : Nat → PageTable) :
    mapPages f a a tables = tables := by
  funext i j
  exact if_neg (by omega)

theorem mapPages_append (f : UInt32 → UInt32) {a b c : Nat} (hab : a ≤ b) (hbc : b ≤ c)
    (tables : Nat → PageTable) : mapPages f b c (mapPages f a b tables) = mapPages f a c tables := by
  funext i j
  unfold mapPages
  by_cases hlow : 1024 * i + j < b
  · rw [if_neg (by omega)]
    exact if_congr (by omega) rfl rfl
  · rw [if_neg (c := j < 1024 ∧ a ≤ 1024 * i + j ∧ 1024 * i + j < b) (by omega)]
    exact if_congr (by omega) rfl rfl

/-- The pages of one table. -/
theorem update_clearRun (tables : Nat → PageTable) (i : Nat) {b m : Nat} (h : b + m ≤ 1024) :
    Function.update tables i (clearRun (tables i) b m) =
      mapPages clearCode (1024 * i + b) (1024 * i + b + m) tables := by
  funext k j
  unfold mapPages
  by_cases hk : k = i
  · subst hk
    rw [Function.update_self]
    exact if_congr (by omega) rfl rfl
  · rw [Function.update_of_ne hk, if_neg (by omega)]

theorem summaryCode_of_free {t : PageTable} {j : Nat} (hj : j < 1024) (h : pageCode (t j) = 0) :
    summaryCode t = if checkPageTableFullyNotAllocated t then PAGE_TABLE_FULLY_NOT_ALLOCATED_CODE
      else PAGE_TABLE_PARTLY_ALLOCATED_CODE := by
  have hnot : ¬ checkPageTableFullyAllocated t = true := by
    intro hall
    exact (fullyAllocated_iff t).mp hall j hj h
  unfold summaryCode
  rw [if_neg hnot]

theorem pageCode_clearRun {t : PageTable} {b m j : Nat} (h1 : b ≤ j) (h2 : j < b + m) :
    pageCode (clearRun t b m j) = 0 := by
  unfold clearRun
  rw [if_pos ⟨h1, h2⟩, pageCode_clearCode]

theorem setTable_self (s : PageAllocator) (i : Nat) : s.setTable i (s.pageTables i) = s := by
  unfold setTable
  rw [Function.update_eq_self]

/-- One round of the outer loop, all three ways to sum up the table. -/
theorem freeRound_eq {s : PageAllocator} (h : s.Summarised) {i b m : Nat} (hi : i < 1023)
    (hm : b + m ≤ 1024) :
    (if b = 0 ∧ b + m = 1024 then
        (s.setTable i (clearRun (s.pageTables i) b m)).setSummary i PAGE_TABLE_FULLY_NOT_ALLOCATED_CODE
      else if b = b + m then s.setTable i (clearRun (s.pageTables i) b m)
      else if checkPageTableFullyNotAllocated (clearRun (s.pageTables i) b m) then
        (s.setTable i (clearRun (s.pageTables i) b m)).setSummary i PAGE_TABLE_FULLY_NOT_ALLOCATED_CODE
      else (s.setTable i (clearRun (s.pageTables i) b m)).setSummary i PAGE_TABLE_PARTLY_ALLOCATED_CODE) =
      s.withTables (mapPages clearCode (1024 * i + b) (1024 * i + b + m) s.pageTables) := by
  rw [← update_clearRun s.pageTables i hm, ← h.set_eq hi]
  by_cases hwhole : b = 0 ∧ b + m = 1024
  · have hzero : summaryCode (clearRun (s.pageTables i) b m) = 0 := by
      rw [summaryCode_eq_zero_iff]
      intro j hj
      exact pageCode_clearRun (by omega) (by omega)
    rw [if_pos hwhole, hzero]
    rfl
  rw [if_neg hwhole]
  by_cases hnone : b = b + m
  · have hm0 : m = 0 := by omega
    subst hm0
    rw [if_pos hnone, h.set_eq hi, clearRun_zero, setTable_self, Function.update_eq_self, h.withTables_self]
  · rw [if_neg hnone, summaryCode_of_free (j := b) (by omega) (pageCode_clearRun (by omega) (by omega))]
    split <;> rfl

/-- The outer loop clears the run of pages with the code. -/
theorem freeLoop_eq (code : UInt32) (n i b : Nat) {s : PageAllocator} (h : s.Summarised)
    (hi : i + n = 1023) (hb : b < 1024) :
    freeLoop code n i b s = s.withTables (mapPages clearCode (1024 * i + b)
      (1024 * i + b + runOf code s.pageTables (1024 * n - b) (1024 * i + b)) s.pageTables) := by
  induction n generalizing i b s with
  | zero =>
    rw [freeLoop, Nat.mul_zero, Nat.zero_sub, runOf, runLen, Nat.add_zero, mapPages_empty, h.withTables_self]
  | succ n ih =>
    have hrun := runIn_eq code s.pageTables i (n := 1024 - b) (b := b) (by omega)
    have hle : runIn code (s.pageTables i) (1024 - b) b ≤ 1024 - b := runLen_le _ _
    have hpage : 1024 * i + b + (1024 - b) = 1024 * (i + 1) := by omega
    have hadd : runOf code s.pageTables (1024 * (n + 1) - b) (1024 * i + b) =
        if runIn code (s.pageTables i) (1024 - b) b = 1024 - b then
          1024 - b + runOf code s.pageTables (1024 * n) (1024 * (i + 1))
        else runIn code (s.pageTables i) (1024 - b) b := by
      rw [hrun, ← hpage, show 1024 * (n + 1) - b = (1024 - b) + 1024 * n by omega]
      exact runLen_add _ _ _
    rw [freeLoop, clearLoop_eq, hadd]
    simp only [freeRound_eq h (by omega : i < 1023) (by omega : b + runIn code (s.pageTables i) (1024 - b) b ≤ 1024)]
    by_cases hfull : runIn code (s.pageTables i) (1024 - b) b = 1024 - b
    · -- the rest of the table had the code: the run goes on in the next one
      have hrest : runOf code (mapPages clearCode (1024 * i + b) (1024 * (i + 1)) s.pageTables) (1024 * n)
          (1024 * (i + 1)) = runOf code s.pageTables (1024 * n) (1024 * (i + 1)) := by
        refine runLen_congr fun q h1 _ => ?_
        rw [codeOf_mapPages, if_neg (by omega)]
      rw [hfull, if_neg (by omega), if_pos rfl, ← Nat.add_assoc, hpage,
        ih (i + 1) 0 (summarised_withTables _ _) (by omega) (by omega), withTables_withTables,
        withTables_pageTables, Nat.add_zero, Nat.sub_zero, hrest,
        mapPages_append clearCode (by omega) (Nat.le_add_right _ _)]
    · rw [if_pos (by omega), if_neg hfull]

/-- The pages of the same code from page `p` on. -/
def freedEnd (tables : Nat → PageTable) (p : Nat) : Nat :=
  p + runOf (codeOf tables p) tables (1023 * 1024 - p) p

theorem freeContiguousPages_eq {s : PageAllocator} (h : s.Summarised) {pointer : Nat}
    (hp : pointer / 4096 < 1023 * 1024) :
    s.freeContiguousPages pointer = s.withTables
      (mapPages clearCode (pointer / 4096) (freedEnd s.pageTables (pointer / 4096)) s.pageTables) := by
  unfold freeContiguousPages
  generalize pointer / 4096 = p at *
  have hpage : 1024 * (p / 1024) + p % 1024 = p := Nat.div_add_mod p 1024
  have hlen : 1024 * (1023 - p / 1024) - p % 1024 = 1023 * 1024 - p := by omega
  simp only [ge_iff_le, show ¬ 1023 ≤ p / 1024 by omega, if_false]
  rw [freeLoop_eq _ _ _ _ h (by omega) (by omega), hpage, hlen]
  rfl

theorem freeContiguousPages_out {s : PageAllocator} {pointer : Nat} (hp : 1023 * 1024 ≤ pointer / 4096) :
    s.freeContiguousPages pointer = s := by
  unfold freeContiguousPages
  generalize pointer / 4096 = p at *
  simp only [ge_iff_le, show 1023 ≤ p / 1024 by omega, if_true]

/-- Freeing a page that is free already changes nothing. -/
theorem freeContiguousPages_free {s : PageAllocator} (h : s.Summarised) {pointer : Nat}
    (hp : pointer / 4096 < 1023 * 1024) (hfree : codeOf s.pageTables (pointer / 4096) = 0) :
    s.freeContiguousPages pointer = s := by
  rw [freeContiguousPages_eq h hp]
  generalize pointer / 4096 = p at *
  have hsame : mapPages clearCode p (freedEnd s.pageTables p) s.pageTables = s.pageTables := by
    funext i j
    unfold mapPages
    split
    · rename_i hin
      obtain ⟨hj, h1, h2⟩ := hin
      apply clearCode_of_free
      have hrun := of_lt_runLen (P := fun q => codeOf s.pageTables q == codeOf s.pageTables p) h1 h2
      rw [beq_iff_eq, codeOf_at s.pageTables hj, hfree] at hrun
      exact hrun
    · rfl
  rw [hsame, h.withTables_self]

/-! ## Runs of the allocator -/

theorem foldlM_pagesRound_out (code : UInt32) (first last k : Nat) {s t : PageAllocator}
    (h : (List.range' 1023 k).foldlM (pagesRound code first last) s = some t) : t = s := by
  cases k with
  | zero =>
    rw [List.range'_zero, List.foldlM_nil] at h
    exact (Option.some.inj h).symm
  | succ k =>
    have hnull : pagesRound code first last s 1023 = none := rfl
    rw [List.range'_succ, List.foldlM_cons, hnull] at h
    cases h

theorem allocatePagesStartingAtIndex_out {s t : PageAllocator} {a n : Nat} (ha : a / 1024 = 1023)
    (h : s.allocatePagesStartingAtIndex a n = some t) : t = s := by
  unfold allocatePagesStartingAtIndex at h
  split at h
  · exact (Option.some.inj h).symm
  · rw [if_pos (by omega), ha] at h
    obtain ⟨pre, -, h⟩ := Option.bind_eq_some_iff.mp h
    split at h
    · obtain ⟨post, -, h⟩ := Option.bind_eq_some_iff.mp h
      exact foldlM_pagesRound_out _ _ _ _ h
    · obtain ⟨post, -, h⟩ := Option.bind_eq_some_iff.mp h
      exact foldlM_pagesRound_out _ _ _ _ h

/-- A call that succeeds in range, or fails. -/
theorem allocateContiguousPages_cases {s t : PageAllocator} (h : s.Summarised) {behind : Nat → UInt32}
    {numPages : UInt32} {address : Nat}
    (hcall : s.allocateContiguousPages behind numPages = some (address, t))
    (hrange : address = FAILURE ∨ address / 0x1000 + numPages.toNat ≤ 1023 * 1024) :
    t = s ∨ ∃ a, 0 < numPages.toNat ∧ a + numPages.toNat ≤ 1023 * 1024 ∧ address = a * 0x1000 ∧
      t = s.withTables (mark (colour s.pageTables a (a + numPages.toNat)) a (a + numPages.toNat) s.pageTables) := by
  unfold allocateContiguousPages at hcall
  split at hcall
  · cases hcall
    exact .inl rfl
  rename_i hne
  simp only at hcall
  split at hcall
  · cases hcall
    exact .inl rfl
  rw [Option.map_eq_some_iff] at hcall
  obtain ⟨u, hu, he⟩ := hcall
  cases he
  generalize locate s numPages.toNat (search s behind numPages.toNat 1023 0) = a at *
  have hpos : 0 < numPages.toNat := by
    refine Nat.pos_of_ne_zero fun h0 => hne ?_
    exact UInt32.toNat_inj.mp h0
  cases hrange with
  | inl hfail =>
    left
    unfold FAILURE LAST_POSSIBLE_PDE_INDEX at hfail
    exact allocatePagesStartingAtIndex_out (by omega) hu
  | inr hrange =>
    right
    rw [Nat.mul_div_cancel a (by decide)] at hrange
    rw [allocatePagesStartingAtIndex_eq h hpos hrange] at hu
    exact ⟨a, hpos, hrange, rfl, (Option.some.inj hu).symm⟩

/-- Calls of the allocator. What memory holds behind the page directory may
differ from call to call. -/
inductive AllocatorCall where
  | allocatePageRange (firstPageIndex lastPageIndex : Nat)
  | allocateContiguousPages (behind : Nat → UInt32) (numPages : UInt32)
  | freeContiguousPages (virtualMemoryPointer : UInt32)

/-- The allocator constructed over the words `s0`: any call of
`allocatePageRange` for managed pages, of `allocateContiguousPages` that
fails or returns managed pages, and of `freeContiguousPages`. -/
def allocatorLTS (s0 : PageAllocator) : LTS PageAllocator AllocatorCall where
  init s := s = s0.construct
  step s call t := match call with
    | .allocatePageRange first last =>
      first ≤ last ∧ last < 1023 * 1024 ∧ s.allocatePageRange first last = some t
    | .allocateContiguousPages behind numPages =>
      ∃ address, s.allocateContiguousPages behind numPages = some (address, t) ∧
        (address = FAILURE ∨ address / 0x1000 + numPages.toNat ≤ 1023 * 1024)
    | .freeContiguousPages pointer => t = s.freeContiguousPages pointer.toNat

/-- Two states differ in codes of managed entries only. -/
structure SameRest (s t : PageAllocator) : Prop where
  entries : ∀ i, clearCode (s.pageDirectory.pageDirectoryEntries i) = clearCode (t.pageDirectory.pageDirectoryEntries i)
  unmanaged : ∀ i, 1023 ≤ i → s.pageDirectory.pageDirectoryEntries i = t.pageDirectory.pageDirectoryEntries i
  helper : s.pageDirectory.helperTableEntries = t.pageDirectory.helperTableEntries
  pages : ∀ i j, clearCode (s.pageTables i j) = clearCode (t.pageTables i j)

theorem SameRest.trans {s t u : PageAllocator} (h1 : s.SameRest t) (h2 : t.SameRest u) : s.SameRest u where
  entries i := (h1.entries i).trans (h2.entries i)
  unmanaged i hi := (h1.unmanaged i hi).trans (h2.unmanaged i hi)
  helper := h1.helper.trans h2.helper
  pages i j := (h1.pages i j).trans (h2.pages i j)

theorem sameRest_refl (s : PageAllocator) : s.SameRest s := ⟨fun _ => rfl, fun _ _ => rfl, rfl, fun _ _ => rfl⟩

theorem sameRest_withTables {f : UInt32 → UInt32} (hf : ∀ w, clearCode (f w) = clearCode w)
    (s : PageAllocator) (a b : Nat) : s.SameRest (s.withTables (mapPages f a b s.pageTables)) where
  entries i := by
    simp only [withTables]
    split
    · rw [clearCode_orCode _ (summaryCode_lt _), clearCode_clearCode]
    · rfl
  unmanaged i hi := by simp only [withTables, if_neg (Nat.not_lt.mpr hi)]
  helper := rfl
  pages i j := by
    simp only [withTables, mapPages]
    split
    · exact (hf _).symm
    · rfl

theorem codeOf_construct (s : PageAllocator) {p : Nat} (hp : p < 1023 * 1024) :
    codeOf s.construct.pageTables p = 0 := by
  unfold codeOf
  simp only [construct, show p / 1024 < 1023 ∧ p % 1024 < 1024 by omega, and_self, if_true, pageCode_clearCode]

theorem summarised_construct (s : PageAllocator) : s.construct.Summarised := by
  intro i hi
  have hzero : summaryCode (s.construct.pageTables i) = 0 := by
    rw [summaryCode_eq_zero_iff]
    intro j hj
    rw [← codeOf_at _ hj]
    exact codeOf_construct s (by omega)
  rw [hzero]
  simp only [construct, hi, if_true, pageCode_clearCode]

theorem allocator_step {s0 s t : PageAllocator} {call : AllocatorCall} (h : s.Summarised)
    (hstep : (allocatorLTS s0).step s call t) : t.Summarised ∧ s.SameRest t := by
  cases call with
  | allocatePageRange first last =>
    obtain ⟨hle, hlt, hcall⟩ := hstep
    rw [allocatePageRange_eq h hle hlt] at hcall
    cases hcall
    exact ⟨summarised_withTables _ _, sameRest_withTables (fun w => clearCode_orCode w (by decide)) _ _ _⟩
  | allocateContiguousPages behind numPages =>
    obtain ⟨address, hcall, hrange⟩ := hstep
    cases allocateContiguousPages_cases h hcall hrange with
    | inl he =>
      subst he
      exact ⟨h, sameRest_refl _⟩
    | inr he =>
      obtain ⟨a, -, -, -, rfl⟩ := he
      exact ⟨summarised_withTables _ _,
        sameRest_withTables (fun w => clearCode_orCode w (colour_spec _ _ _).1) _ _ _⟩
  | freeContiguousPages pointer =>
    cases hstep
    by_cases hp : pointer.toNat / 4096 < 1023 * 1024
    · rw [freeContiguousPages_eq h hp]
      exact ⟨summarised_withTables _ _, sameRest_withTables clearCode_clearCode _ _ _⟩
    · rw [freeContiguousPages_out (Nat.not_lt.mp hp)]
      exact ⟨h, sameRest_refl s⟩

theorem allocator_inductive (s0 : PageAllocator) :
    (allocatorLTS s0).Inductive fun s => s.Summarised ∧ s0.construct.SameRest s where
  init s hs := by
    cases hs
    exact ⟨summarised_construct s0, sameRest_refl _⟩
  step s call t hI hstep := by
    obtain ⟨hsum, hrest⟩ := allocator_step hI.1 hstep
    exact ⟨hsum, hI.2.trans hrest⟩

theorem summaryCode_eq_one {t : PageTable} (h0 : ∃ j, j < 1024 ∧ pageCode (t j) = 0)
    (h1 : ∃ j, j < 1024 ∧ pageCode (t j) ≠ 0) : summaryCode t = 1 := by
  obtain ⟨j, hj, hfree⟩ := h0
  obtain ⟨k, hk, hallocated⟩ := h1
  rw [summaryCode_of_free hj hfree, if_neg]
  · rfl
  · intro hall
    exact hallocated ((fullyNotAllocated_iff t).mp hall k hk)

/-- The codes of the page directory sum up the page tables in every state
that is reached, all other bits are those of the construction, and freeing a
page that is not allocated changes nothing. -/
theorem summary_never_stale (s0 s : PageAllocator) (hs : (allocatorLTS s0).Reachable s) :
    (∀ i, i < 1023 →
      ((∀ j, j < 1024 → pageCode (s.pageTables i j) = 0) →
        pageCode (s.pageDirectory.pageDirectoryEntries i) = 0) ∧
      ((∀ j, j < 1024 → pageCode (s.pageTables i j) ≠ 0) →
        pageCode (s.pageDirectory.pageDirectoryEntries i) = 2) ∧
      ((∃ j, j < 1024 ∧ pageCode (s.pageTables i j) = 0) → (∃ j, j < 1024 ∧ pageCode (s.pageTables i j) ≠ 0) →
        pageCode (s.pageDirectory.pageDirectoryEntries i) = 1)) ∧
    s0.construct.SameRest s ∧
    ∀ pointer : UInt32, (pointer.toNat / 4096 < 1023 * 1024 → codeOf s.pageTables (pointer.toNat / 4096) = 0) →
      s.freeContiguousPages pointer.toNat = s := by
  obtain ⟨hsum, hrest⟩ := (allocator_inductive s0).reachable s hs
  refine ⟨fun i hi => ?_, hrest, fun pointer hfree => ?_⟩
  · rw [hsum i hi]
    exact ⟨(summaryCode_eq_zero_iff _).mpr, (summaryCode_eq_two_iff _).mpr, summaryCode_eq_one⟩
  · by_cases hp : pointer.toNat / 4096 < 1023 * 1024
    · exact freeContiguousPages_free hsum hp (hfree hp)
    · exact freeContiguousPages_out (Nat.not_lt.mp hp)

/-- All words 0. -/
def blank : PageAllocator where
  pageDirectory := ⟨fun _ => 0, fun _ => 0⟩
  pageTables := fun _ _ => 0

theorem codeOf_blank (p : Nat) : codeOf blank.construct.pageTables p = 0 := by
  unfold codeOf
  simp only [construct, blank]
  split <;> decide

/-- A new allocator with pages 0 to `last` reserved. -/
def reserved (last : Nat) : PageAllocator :=
  blank.construct.withTables (mark 1 0 (last + 1) blank.construct.pageTables)

theorem reserved_reachable (last : Nat) (h : last < 1023 * 1024) : (allocatorLTS blank).Reachable (reserved last) := by
  refine ⟨blank.construct, [.allocatePageRange 0 last], rfl, .cons ?_ (.nil _)⟩
  exact ⟨Nat.zero_le _, h, allocatePageRange_eq (summarised_construct _) (Nat.zero_le _) h⟩

theorem summarised_reserved (last : Nat) : (reserved last).Summarised := summarised_withTables _ _

theorem codeOf_reserved (last p : Nat) : codeOf (reserved last).pageTables p = if p < last + 1 then 1 else 0 := by
  rw [reserved, withTables_pageTables, mark, codeOf_mapPages, codeOf_blank]
  simp only [Nat.zero_le, true_and]
  split
  · rw [pageCode_orCode _ (by decide)]
    exact (congrArg (· ||| 1) (codeOf_blank _)).trans (by decide)
  · rfl

/-- The first table and one page more are reserved. -/
theorem summary_never_stale_reserved :
    pageCode ((reserved 1024).pageDirectory.pageDirectoryEntries 0) = 2 ∧
      pageCode ((reserved 1024).pageDirectory.pageDirectoryEntries 1) = 1 ∧
      pageCode ((reserved 1024).pageDirectory.pageDirectoryEntries 2) = 0 := by
  have h := (summary_never_stale blank _ (reserved_reachable 1024 (by decide))).1
  have hcode : ∀ i j, j < 1024 → pageCode ((reserved 1024).pageTables i j) =
      if 1024 * i + j < 1025 then 1 else 0 := by
    intro i j hj
    rw [← codeOf_at _ hj, codeOf_reserved]
  refine ⟨(h 0 (by decide)).2.1 ?_, (h 1 (by decide)).2.2 ⟨1, by decide, ?_⟩ ⟨0, by decide, ?_⟩,
    (h 2 (by decide)).1 ?_⟩
  · intro j hj
    rw [hcode 0 j hj, if_pos (by omega)]
    decide
  · rw [hcode 1 1 (by decide), if_neg (by decide)]
  · rw [hcode 1 0 (by decide), if_pos (by decide)]
    decide
  · intro j hj
    rw [hcode 2 j hj, if_neg (by omega)]

end PageAllocator

end CpuScheduler.L1
