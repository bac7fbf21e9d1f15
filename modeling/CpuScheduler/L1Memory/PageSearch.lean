import CpuScheduler.L1Memory.PageSummary

/-!
# The search for free pages

`allocateContiguousPages` looks for a run of free pages table by table. A
run of `n` pages that starts at page `a` is `Fits tables n a`. A round of the
search that goes on has skipped no run (`searchStep_skips`); a round that
breaks has found the lowest one of its table (`searchStep_found`), or it
overruns the last table (`Overruns`): for a size of `1024 * m + 1023` pages it
counts the words behind entry 1022 as free tables and does not need a free
page behind them.

* `allocate_first_fit`: if there is a run, the lowest is allocated.
* `sound_iff`: the call is sound unless it overruns.
-/
namespace CpuScheduler.L1

namespace PageAllocator

/-- Pages `a` to `a + n - 1` are managed and free. -/
structure Fits (tables : Nat → PageTable) (n a : Nat) : Prop where
  inRange : a + n ≤ 1023 * 1024
  free : ∀ q, a ≤ q → q < a + n → codeOf tables q = 0

/-! ## Counts -/

theorem countFree_range' (t : PageTable) (n b : Nat) : countFree t (List.range' b n) = runIn 0 t n b := by
  induction n generalizing b with
  | zero => rfl
  | succ n ih =>
    rw [List.range'_succ, countFree, ih]
    unfold runIn
    rw [runLen]
    refine if_congr ?_ rfl rfl
    rw [isFree_iff, beq_iff_eq]

/-- `m` free pages at the end of the first `n` entries. -/
theorem le_countFree_reverse (t : PageTable) {m n : Nat} :
    m ≤ countFree t (List.range n).reverse ↔
      m ≤ n ∧ ∀ q, n - m ≤ q → q < n → pageCode (t q) = 0 := by
  induction n generalizing m with
  | zero =>
    simp only [List.range_zero, List.reverse_nil, countFree]
    constructor
    · intro h
      exact ⟨h, fun q _ hq => by omega⟩
    · intro h
      exact h.1
  | succ n ih =>
    rw [List.range_succ, List.reverse_append, List.reverse_singleton, List.singleton_append, countFree]
    cases m with
    | zero =>
      simp only [Nat.zero_le, true_and, true_iff]
      intro q _ _
      omega
    | succ m =>
      by_cases hn : isFree (t n) = true
      · rw [if_pos hn, Nat.succ_le_succ_iff, ih, Nat.succ_le_succ_iff, Nat.add_sub_add_right]
        refine and_congr_right fun _ => ⟨fun h q h1 h2 => ?_, fun h q h1 h2 => h q h1 (by omega)⟩
        by_cases hq : q = n
        · rw [hq]
          exact (isFree_iff _).mp hn
        · exact h q h1 (by omega)
      · rw [if_neg hn]
        constructor
        · intro h
          omega
        · intro h
          exact absurd ((isFree_iff _).mpr (h.2 n (by omega) (by omega))) hn

theorem countFree_reverse_le (t : PageTable) (n : Nat) : countFree t (List.range n).reverse ≤ n :=
  ((le_countFree_reverse t).mp (Nat.le_refl _)).1

theorem le_numFreeAtBegin_iff (s : PageAllocator) {i m : Nat} (hm : 0 < m) :
    m ≤ numFreeAtBegin (s.getPageTable i) ↔ m ≤ 1024 ∧ Fits s.pageTables m (1024 * i) := by
  unfold getPageTable
  by_cases hi : i < 1023
  · rw [if_pos hi, numFreeAtBegin, List.range_eq_range', countFree_range',
      runIn_eq 0 s.pageTables i (by omega), Nat.add_zero, runOf, le_runLen_iff]
    simp only [beq_iff_eq]
    refine and_congr_right fun hle => ⟨fun h => ⟨by omega, h⟩, fun h => h.free⟩
  · rw [if_neg hi, numFreeAtBegin]
    constructor
    · intro h
      omega
    · intro h
      have := h.2.inRange
      omega

theorem numFreeAtBegin_le (s : PageAllocator) (i : Nat) : numFreeAtBegin (s.getPageTable i) ≤ 1024 := by
  cases Nat.eq_zero_or_pos (numFreeAtBegin (s.getPageTable i)) with
  | inl h => omega
  | inr h => exact ((le_numFreeAtBegin_iff s h).mp (Nat.le_refl _)).1

/-- The free pages at the beginning of table `i`, and those of the next table
if it is free. -/
def freeAhead (s : PageAllocator) (i : Nat) : Nat :=
  if numFreeAtBegin (s.getPageTable i) = 1024 then
    numFreeAtBegin (s.getPageTable i) + numFreeAtBegin (s.getPageTable (i + 1))
  else numFreeAtBegin (s.getPageTable i)

/-- Two runs that meet are one. -/
theorem Fits.append {tables : Nat → PageTable} {m n a b : Nat} (h1 : Fits tables m a)
    (h2 : Fits tables n b) (hb : b = a + m) : Fits tables (m + n) a where
  inRange := by
    have := h2.inRange
    omega
  free q hq hq' := by
    by_cases hmid : q < a + m
    · exact h1.free q hq hmid
    · exact h2.free q (by omega) (by omega)

/-- Part of a run. -/
theorem Fits.sub {tables : Nat → PageTable} {m n a b : Nat} (h : Fits tables n a) (hab : a ≤ b)
    (hend : b + m ≤ a + n) : Fits tables m b where
  inRange := by
    have := h.inRange
    omega
  free q hq hq' := h.free q (by omega) (by omega)

theorem le_freeAhead_iff (s : PageAllocator) {i m : Nat} (hm : 0 < m) :
    m ≤ freeAhead s i ↔ m ≤ 2048 ∧ Fits s.pageTables m (1024 * i) := by
  have hfirst := numFreeAtBegin_le s i
  have hsecond := numFreeAtBegin_le s (i + 1)
  unfold freeAhead
  by_cases hfull : numFreeAtBegin (s.getPageTable i) = 1024
  · rw [if_pos hfull, hfull]
    have htable := ((le_numFreeAtBegin_iff s (i := i) (m := 1024) (by decide)).mp (by omega)).2
    by_cases hle : m ≤ 1024
    · exact iff_of_true (by omega) ⟨by omega, htable.sub (Nat.le_refl _) (by omega)⟩
    · have hmore := le_numFreeAtBegin_iff s (i := i + 1) (m := m - 1024) (by omega)
      rw [← Nat.sub_le_iff_le_add', hmore]
      constructor
      · intro h
        have hrun := htable.append h.2 (by omega)
        rw [Nat.add_sub_cancel' (by omega)] at hrun
        exact ⟨by omega, hrun⟩
      · intro h
        exact ⟨by omega, h.2.sub (by omega) (by omega)⟩
  · rw [if_neg hfull, le_numFreeAtBegin_iff s hm]
    constructor
    · intro h
      exact ⟨by omega, h.2⟩
    · intro h
      refine ⟨?_, h.2⟩
      by_contra hgt
      have hall := (le_numFreeAtBegin_iff s (i := i) (m := 1024) (by decide)).mpr
        ⟨Nat.le_refl _, h.2.sub (Nat.le_refl _) (by omega)⟩
      omega

/-! ## Small sizes: at most three tables -/

theorem countFree_reverse_succ (t : PageTable) (n : Nat) :
    countFree t (List.range (n + 1)).reverse =
      if isFree (t n) then countFree t (List.range n).reverse + 1 else 0 := by
  rw [List.range_succ, List.reverse_append, List.reverse_singleton, List.singleton_append, countFree]

/-- `currentCounter` counts the free pages in front of the loop's position;
`retVal` has seen every run that an allocated page ended. -/
theorem maxLoop_spec (t : PageTable) (n p retVal : Nat) :
    (maxLoop t (List.range' p n) retVal (countFree t (List.range p).reverse)).2 =
        countFree t (List.range (p + n)).reverse ∧
      ∀ m, m ≤ (maxLoop t (List.range' p n) retVal (countFree t (List.range p).reverse)).1 ↔
        m ≤ retVal ∨ ∃ e, p ≤ e ∧ e < p + n ∧ pageCode (t e) ≠ 0 ∧ m ≤ countFree t (List.range e).reverse := by
  induction n generalizing p retVal with
  | zero =>
    refine ⟨rfl, fun m => ⟨.inl, fun h => ?_⟩⟩
    obtain h | ⟨e, h1, h2, -⟩ := h
    · exact h
    · omega
  | succ n ih =>
    rw [List.range'_succ, maxLoop]
    have hcount := countFree_reverse_succ t p
    by_cases hp : isFree (t p) = true
    · rw [if_pos hp] at hcount ⊢
      rw [← hcount]
      obtain ⟨hlast, hmax⟩ := ih (p + 1) retVal
      refine ⟨hlast.trans (by rw [Nat.add_right_comm, Nat.add_assoc]), fun m => (hmax m).trans ?_⟩
      refine or_congr_right ⟨?_, ?_⟩
      · intro h
        obtain ⟨e, h1, h2, h⟩ := h
        exact ⟨e, by omega, by omega, h⟩
      · intro h
        obtain ⟨e, h1, h2, hne, h⟩ := h
        have he : e ≠ p := by
          intro he
          rw [he] at hne
          exact hne ((isFree_iff _).mp hp)
        exact ⟨e, by omega, by omega, hne, h⟩
    · rw [if_neg hp] at hcount ⊢
      rw [← hcount]
      obtain ⟨hlast, hmax⟩ := ih (p + 1)
        (if countFree t (List.range p).reverse > retVal then countFree t (List.range p).reverse else retVal)
      have hhere : pageCode (t p) ≠ 0 := by
        intro h0
        exact hp ((isFree_iff _).mpr h0)
      refine ⟨hlast.trans (by rw [Nat.add_right_comm, Nat.add_assoc]), fun m => (hmax m).trans ?_⟩
      constructor
      · intro h
        obtain h | ⟨e, h1, h2, h⟩ := h
        · by_cases hgt : countFree t (List.range p).reverse > retVal
          · rw [if_pos hgt] at h
            exact .inr ⟨p, Nat.le_refl p, by omega, hhere, h⟩
          · rw [if_neg hgt] at h
            exact .inl h
        · exact .inr ⟨e, by omega, by omega, h⟩
      · intro h
        obtain h | ⟨e, h1, h2, hne, h⟩ := h
        · left
          split <;> omega
        · by_cases he : e = p
          · subst he
            left
            split <;> omega
          · exact .inr ⟨e, by omega, by omega, hne, h⟩

/-- The free pages at the end of table `i`. -/
def freeBehind (s : PageAllocator) (i : Nat) : Nat := countFree (s.pageTables i) (List.range 1024).reverse

theorem le_freeBehind_iff (s : PageAllocator) {i m : Nat} (hi : i < 1023) :
    m ≤ freeBehind s i ↔ m ≤ 1024 ∧ Fits s.pageTables m (1024 * (i + 1) - m) := by
  unfold freeBehind
  rw [le_countFree_reverse]
  refine and_congr_right fun hle => ⟨fun h => ⟨by omega, fun q h1 h2 => ?_⟩, fun h q h1 h2 => ?_⟩
  · have hq := h (q - 1024 * i) (by omega) (by omega)
    rw [← codeOf_at _ (by omega), Nat.add_sub_cancel' (by omega)] at hq
    exact hq
  · rw [← codeOf_at _ h2]
    exact h.free _ (by omega) (by omega)

theorem findMaxFreeSpace_eq (s : PageAllocator) {i : Nat} (hi : i < 1023) :
    ∃ retVal, findMaxFreeSpaceStartingFromTable s i =
        (if freeBehind s i = 0 then retVal
          else if freeBehind s i + freeAhead s (i + 1) > retVal then freeBehind s i + freeAhead s (i + 1)
          else retVal) ∧
      ∀ m, 0 < m → (m ≤ retVal ↔ ∃ e, e < 1024 ∧ pageCode (s.pageTables i e) ≠ 0 ∧
        m ≤ countFree (s.pageTables i) (List.range e).reverse) := by
  obtain ⟨hlast, hmax⟩ := maxLoop_spec (s.pageTables i) 1024 0 0
  rw [Nat.zero_add] at hlast
  have hzero : countFree (s.pageTables i) (List.range 0).reverse = 0 := rfl
  rw [hzero, ← List.range_eq_range'] at hlast hmax
  refine ⟨(maxLoop (s.pageTables i) (List.range 1024) 0 0).1, ?_, fun m hm => ?_⟩
  · unfold findMaxFreeSpaceStartingFromTable
    rw [if_neg (by omega)]
    simp only [hlast]
    unfold freeBehind freeAhead
    by_cases hfull : numFreeAtBegin (s.getPageTable (i + 1)) = 1024
    · simp only [hfull, if_true, Nat.add_assoc, Nat.reduceAdd]
    · simp only [hfull, if_false]
  · rw [hmax m]
    constructor
    · intro h
      obtain h | ⟨e, -, h2, h⟩ := h
      · omega
      · exact ⟨e, by omega, h⟩
    · intro h
      obtain ⟨e, he, h⟩ := h
      exact .inr ⟨e, Nat.zero_le _, by omega, h⟩

/-- A run that starts in table `i` and leaves it starts among the free pages at
its end. -/
theorem Fits.le_freeBehind {s : PageAllocator} {n i o : Nat} (hi : i < 1023) (ho : o ≤ 1024)
    (h : Fits s.pageTables n (1024 * i + o)) (hn : 1024 ≤ o + n) : 1024 - o ≤ freeBehind s i :=
  (le_freeBehind_iff s hi).mpr ⟨Nat.sub_le _ _, h.sub (by omega) (by omega)⟩

/-- A run that does not go on for `k` pages ends at an allocated page. -/
theorem Fits.exists_end {tables : Nat → PageTable} {n a k : Nat} (h : Fits tables n a)
    (hk : a + k ≤ 1023 * 1024) (hnot : ¬ Fits tables k a) :
    ∃ m, n ≤ m ∧ m < k ∧ Fits tables m a ∧ codeOf tables (a + m) ≠ 0 := by
  have hlt : runLen (fun q => codeOf tables q == 0) k a < k := by
    refine Nat.lt_of_le_of_ne (runLen_le _ _) fun he => hnot ⟨hk, fun q h1 h2 => ?_⟩
    exact beq_iff_eq.mp (runLen_eq_iff.mp he q h1 h2)
  refine ⟨_, ?_, hlt, ⟨by omega, fun q h1 h2 => beq_iff_eq.mp (of_lt_runLen h1 h2)⟩, ?_⟩
  · refine le_runLen_iff.mpr ⟨?_, fun q h1 h2 => beq_iff_eq.mpr (h.free q h1 h2)⟩
    by_contra hgt
    exact hnot (h.sub (Nat.le_refl _) (by omega))
  · simpa using runLen_stop hlt

/-- The largest free space that starts in table `i`, for the sizes that reach
into the next two tables at most. -/
theorem le_findMaxFreeSpace_iff (s : PageAllocator) {i n : Nat} (hi : i < 1023) (hn : 0 < n) (hn' : n ≤ 2046) :
    n ≤ findMaxFreeSpaceStartingFromTable s i ↔ ∃ o, o < 1024 ∧ Fits s.pageTables n (1024 * i + o) := by
  obtain ⟨retVal, hmax, hret⟩ := findMaxFreeSpace_eq s hi
  have hbehind := (le_freeBehind_iff s hi).mp (Nat.le_refl _)
  have hle : n ≤ findMaxFreeSpaceStartingFromTable s i ↔
      n ≤ retVal ∨ freeBehind s i ≠ 0 ∧ n ≤ freeBehind s i + freeAhead s (i + 1) := by
    rw [hmax]
    split
    · omega
    · split <;> omega
  rw [hle, hret n hn]
  constructor
  · intro h
    obtain ⟨e, he, -, hfree⟩ | ⟨hne, hfree⟩ := h
    · rw [le_countFree_reverse] at hfree
      refine ⟨e - n, by omega, by omega, fun q h1 h2 => ?_⟩
      have hq := hfree.2 (q - 1024 * i) (by omega) (by omega)
      rw [← codeOf_at _ (by omega), Nat.add_sub_cancel' (by omega)] at hq
      exact hq
    · refine ⟨1024 - freeBehind s i, by omega, ?_⟩
      rw [show 1024 * i + (1024 - freeBehind s i) = 1024 * (i + 1) - freeBehind s i by omega]
      by_cases hin : n ≤ freeBehind s i
      · exact hbehind.2.sub (Nat.le_refl _) (by omega)
      · have hahead := ((le_freeAhead_iff s (i := i + 1) (m := n - freeBehind s i) (by omega)).mp (by omega)).2
        have hrun := hbehind.2.append hahead (by omega)
        rw [Nat.add_sub_cancel' (by omega)] at hrun
        exact hrun
  · intro h
    obtain ⟨o, ho, hfits⟩ := h
    by_cases hall : Fits s.pageTables (1024 - o) (1024 * i + o)
    · -- the run reaches the end of the table
      right
      have hback := hall.le_freeBehind hi (by omega) (by omega)
      refine ⟨by omega, ?_⟩
      by_cases hin : o + n ≤ 1024
      · omega
      · have hahead := (le_freeAhead_iff s (i := i + 1) (m := o + n - 1024) (by omega)).mpr
          ⟨by omega, hfits.sub (by omega) (by omega)⟩
        omega
    · -- an allocated page of the table ends it
      left
      obtain ⟨m, hnm, hlt, hrun, hend⟩ := hfits.exists_end (by omega) hall
      refine ⟨o + m, by omega, ?_, ?_⟩
      · rw [← codeOf_at _ (by omega), ← Nat.add_assoc]
        exact hend
      · rw [le_countFree_reverse]
        refine ⟨by omega, fun q h1 h2 => ?_⟩
        rw [← codeOf_at _ (by omega)]
        exact hrun.free _ (by omega) (by omega)

/-- `o` may be the first of `n` free pages as far as its table shows. -/
def FreeFrom (t : PageTable) (n o : Nat) : Prop := ∀ q, o ≤ q → q < o + n → q < 1024 → pageCode (t q) = 0

/-- The loop returns the first entry from which enough pages are free: the
pages from `lastjValue` to its position are, and no entry in front of
`lastjValue` will do. -/
theorem locateLoop_spec (t : PageTable) {n : Nat} (k p lastjValue currentCounter : Nat) (hp : p + k = 1024)
    (hcount : lastjValue + currentCounter = p) (hlt : currentCounter < n)
    (hfree : ∀ q, lastjValue ≤ q → q < p → pageCode (t q) = 0)
    (hlow : ∀ o, o < lastjValue → ¬ FreeFrom t n o) :
    FreeFrom t n (locateLoop t n (List.range' p k) lastjValue currentCounter) ∧
      ∀ o, o < locateLoop t n (List.range' p k) lastjValue currentCounter → ¬ FreeFrom t n o := by
  induction k generalizing p lastjValue currentCounter with
  | zero =>
    rw [List.range'_zero, locateLoop]
    exact ⟨fun q h1 _ h3 => hfree q h1 (by omega), hlow⟩
  | succ k ih =>
    rw [List.range'_succ, locateLoop]
    by_cases hfirst : isFree (t p) = true
    · have hnext : ∀ q, lastjValue ≤ q → q < p + 1 → pageCode (t q) = 0 := by
        intro q h1 h2
        by_cases hq : q = p
        · rw [hq]
          exact (isFree_iff _).mp hfirst
        · exact hfree q h1 (by omega)
      rw [if_pos hfirst]
      by_cases henough : currentCounter + 1 ≥ n
      · rw [if_pos henough]
        exact ⟨fun q h1 h2 _ => hnext q h1 (by omega), hlow⟩
      · rw [if_neg henough]
        exact ih (p + 1) lastjValue (currentCounter + 1) (by omega) (by omega) (by omega) hnext hlow
    · rw [if_neg hfirst]
      refine ih (p + 1) (p + 1) 0 (by omega) (by omega) (by omega) (fun q _ _ => by omega) fun o ho => ?_
      by_cases hlo : o < lastjValue
      · exact hlow o hlo
      · intro hfrom
        exact hfirst ((isFree_iff _).mpr (hfrom p (by omega) (by omega) (by omega)))

/-- `a` is the lowest start of a run in table `i` or a later one. -/
structure LowestFrom (tables : Nat → PageTable) (n i a : Nat) : Prop where
  fits : Fits tables n a
  lowest : ∀ b, i ≤ b / 1024 → Fits tables n b → a ≤ b

theorem Fits.freeFrom {tables : Nat → PageTable} {n i o : Nat} (h : Fits tables n (1024 * i + o)) :
    FreeFrom (tables i) n o := by
  intro q h1 h2 h3
  rw [← codeOf_at _ h3]
  exact h.free _ (by omega) (by omega)

theorem locate_small {s : PageAllocator} {n i : Nat} (hn : 0 < n) (hM : MINNUMALLOCATEDPAGETABLES n = 0)
    (h : ∃ o, o < 1024 ∧ Fits s.pageTables n (1024 * i + o)) : LowestFrom s.pageTables n i (locate s n i) := by
  obtain ⟨o, ho, hfits⟩ := h
  have hR : MINNUMOTHERFREEPAGES n = n := by
    unfold MINNUMOTHERFREEPAGES
    rw [hM]
    omega
  unfold locate
  rw [if_pos hM, hR, List.range_eq_range', Nat.mul_comm]
  obtain ⟨hfrom, hlow⟩ := locateLoop_spec (s.pageTables i) (n := n) 1024 0 0 0 rfl rfl hn
    (fun q _ _ => by omega) (fun o ho => by omega)
  generalize locateLoop (s.pageTables i) n (List.range' 0 1024) 0 0 = l at *
  have hle : ∀ o, Fits s.pageTables n (1024 * i + o) → l ≤ o := by
    intro o hfits
    by_contra hlt
    exact hlow o (by omega) hfits.freeFrom
  have hlo := hle o hfits
  have hrange := hfits.inRange
  refine ⟨⟨by omega, fun q h1 h2 => ?_⟩, fun b hb hfits => ?_⟩
  · -- inside the table the loop has looked; behind it the other run is free
    by_cases hq : q < 1024 * i + 1024
    · have hcode := hfrom (q - 1024 * i) (by omega) (by omega) (by omega)
      rw [← codeOf_at _ (by omega), Nat.add_sub_cancel' (by omega)] at hcode
      exact hcode
    · exact hfits.free q (by omega) (by omega)
  · rw [← Nat.add_sub_cancel' (by omega : 1024 * i ≤ b)] at hfits ⊢
    exact Nat.add_le_add_left (hle _ hfits) _

/-! ## Rounds of the search -/

theorem lookAhead_eq (s : PageAllocator) (behind : Nat → UInt32) (i n j : Nat) :
    lookAhead s behind i n j = j + runLen (fun k => isFree (s.pdeWord behind k)) n (i + j + 1) := by
  induction n generalizing j with
  | zero => rfl
  | succ n ih =>
    rw [lookAhead, runLen]
    split
    · rw [ih (j + 1), Nat.add_assoc j 1, Nat.add_comm 1]
      rfl
    · rfl

/-- The directory's word shows whether a managed table is free. -/
theorem Summarised.isFree_iff {s : PageAllocator} (h : s.Summarised) (behind : Nat → UInt32) {k : Nat}
    (hk : k < 1023) : isFree (s.pdeWord behind k) = true ↔ Fits s.pageTables 1024 (1024 * k) := by
  rw [L1.isFree_iff, pdeWord, if_pos (by omega), h k hk, summaryCode_eq_zero_iff]
  constructor
  · intro hfree
    refine ⟨by omega, fun q h1 h2 => ?_⟩
    rw [← Nat.add_sub_cancel' h1, codeOf_at _ (by omega)]
    exact hfree _ (by omega)
  · intro hfits j hj
    rw [← codeOf_at _ hj]
    exact hfits.free _ (by omega) (by omega)

/-- Free tables in a row. -/
theorem fits_tables {tables : Nat → PageTable} {k m : Nat} (hkm : k + m ≤ 1023)
    (h : ∀ l, k ≤ l → l < k + m → Fits tables 1024 (1024 * l)) : Fits tables (1024 * m) (1024 * k) where
  inRange := by omega
  free q h1 h2 := (h (q / 1024) (by omega) (by omega)).free q (by omega) (by omega)

/-- The free tables that must follow table `i`. -/
def needed (s : PageAllocator) (behind : Nat → UInt32) (n i : Nat) : Nat :=
  if pageCode (s.pdeWord behind i) = 0 then MINNUMALLOCATEDPAGETABLES n - 1 else MINNUMALLOCATEDPAGETABLES n

/-- The free pages in front of and behind them. -/
def beside (s : PageAllocator) (behind : Nat → UInt32) (n i : Nat) : Nat :=
  (if pageCode (s.pdeWord behind i) = 0 then 0 else freeBehind s i) + freeAhead s (i + needed s behind n i + 1)

/-- The free words that follow word `i`, at most `needed`. -/
def found (s : PageAllocator) (behind : Nat → UInt32) (n i : Nat) : Nat :=
  runLen (fun k => isFree (s.pdeWord behind k)) (needed s behind n i) (i + 1)

/-- What a round of the search can do. -/
inductive Round (s : PageAllocator) (behind : Nat → UInt32) (n i : Nat) : Option Nat → Prop where
  | full : pageCode (s.pdeWord behind i) = 2 → Round s behind n i (some (i + 1))
  | small : MINNUMALLOCATEDPAGETABLES n = 0 → MINNUMOTHERFREEPAGES n ≤ findMaxFreeSpaceStartingFromTable s i →
      Round s behind n i none
  | smallNot : MINNUMALLOCATEDPAGETABLES n = 0 →
      findMaxFreeSpaceStartingFromTable s i < MINNUMOTHERFREEPAGES n → Round s behind n i (some (i + 1))
  | stopped : MINNUMALLOCATEDPAGETABLES n ≠ 0 → found s behind n i < needed s behind n i →
      Round s behind n i (some (i + found s behind n i + 1))
  | large : MINNUMALLOCATEDPAGETABLES n ≠ 0 → found s behind n i = needed s behind n i →
      MINNUMOTHERFREEPAGES n ≤ beside s behind n i → Round s behind n i none
  | largeNot : MINNUMALLOCATEDPAGETABLES n ≠ 0 → found s behind n i = needed s behind n i →
      beside s behind n i < MINNUMOTHERFREEPAGES n → Round s behind n i (some (i + needed s behind n i + 1))

theorem searchStep_round (s : PageAllocator) (behind : Nat → UInt32) (n : Nat) {i : Nat} (hi : i < 1023) :
    Round s behind n i (searchStep s behind n i) := by
  have hfound : lookAhead s behind i (needed s behind n i) 0 = found s behind n i := by
    rw [lookAhead_eq, Nat.zero_add, Nat.add_zero]
    rfl
  have hle : found s behind n i ≤ needed s behind n i := runLen_le _ _
  have hneeded : (if pageCode (s.pdeWord behind i) = 0 ∧ MINNUMALLOCATEDPAGETABLES n ≠ 0 then
      MINNUMALLOCATEDPAGETABLES n - 1 else MINNUMALLOCATEDPAGETABLES n) = needed s behind n i := by
    unfold needed
    by_cases hM : MINNUMALLOCATEDPAGETABLES n = 0
    · simp only [hM, ne_eq, not_true, and_false, Nat.zero_sub, ite_self]
    · simp only [ne_eq, hM, not_false_eq_true, and_true]
  unfold searchStep
  simp only [hneeded, hfound]
  by_cases hfull : pageCode (s.pdeWord behind i) = PAGE_TABLE_FULLY_ALLOCATED_CODE
  · rw [if_neg (not_not_intro hfull)]
    exact .full hfull
  rw [if_pos hfull]
  by_cases hM : MINNUMALLOCATEDPAGETABLES n = 0
  · have h0 : needed s behind n i = 0 := by
      unfold needed
      rw [hM, Nat.zero_sub, ite_self]
    rw [if_neg (by omega), if_pos hM]
    by_cases hmax : findMaxFreeSpaceStartingFromTable s i ≥ MINNUMOTHERFREEPAGES n
    · rw [if_pos hmax]
      exact .small hM hmax
    · rw [if_neg hmax]
      exact .smallNot hM (Nat.lt_of_not_le hmax)
  by_cases hstop : found s behind n i = needed s behind n i
  · have hbeside : (if numFreeAtBegin (s.getPageTable (i + needed s behind n i + 1)) = 1024 then
        (if pageCode (s.pdeWord behind i) ≠ 0 then numFreeAtEnd (s.getPageTable i) else 0) +
          numFreeAtBegin (s.getPageTable (i + needed s behind n i + 1)) +
          numFreeAtBegin (s.getPageTable (i + needed s behind n i + 2))
        else (if pageCode (s.pdeWord behind i) ≠ 0 then numFreeAtEnd (s.getPageTable i) else 0) +
          numFreeAtBegin (s.getPageTable (i + needed s behind n i + 1))) = beside s behind n i := by
      have hend : numFreeAtEnd (s.getPageTable i) = freeBehind s i := by
        unfold getPageTable
        rw [if_pos hi]
        rfl
      unfold beside freeAhead
      rw [hend, ite_not]
      by_cases hall : numFreeAtBegin (s.getPageTable (i + needed s behind n i + 1)) = 1024
      · rw [if_pos hall, if_pos hall, Nat.add_assoc]
      · rw [if_neg hall, if_neg hall]
    rw [if_neg (not_not_intro hstop), if_neg hM, hstop, hbeside]
    by_cases henough : beside s behind n i ≥ MINNUMOTHERFREEPAGES n
    · rw [if_pos henough]
      exact .large hM hstop henough
    · rw [if_neg henough]
      exact .largeNot hM hstop (Nat.lt_of_not_le henough)
  · rw [if_pos hstop]
    exact .stopped hM (by omega)

theorem sizes_small {n : Nat} (hM : MINNUMALLOCATEDPAGETABLES n = 0) :
    n ≤ 2046 ∧ MINNUMOTHERFREEPAGES n = n := by
  unfold MINNUMOTHERFREEPAGES
  rw [hM]
  unfold MINNUMALLOCATEDPAGETABLES at hM
  split at hM <;> omega

theorem sizes_large {n : Nat} (hM : MINNUMALLOCATEDPAGETABLES n ≠ 0) :
    n = 1024 * MINNUMALLOCATEDPAGETABLES n + MINNUMOTHERFREEPAGES n ∧
      1023 ≤ MINNUMOTHERFREEPAGES n ∧ MINNUMOTHERFREEPAGES n ≤ 2046 := by
  unfold MINNUMOTHERFREEPAGES
  unfold MINNUMALLOCATEDPAGETABLES at *
  split at hM
  · exact absurd rfl hM
  · rename_i hn
    rw [if_neg hn]
    omega

/-! ## What a round skips -/

theorem Summarised.pdeWord_code {s : PageAllocator} (h : s.Summarised) (behind : Nat → UInt32) {i : Nat}
    (hi : i < 1023) : pageCode (s.pdeWord behind i) = summaryCode (s.pageTables i) := by
  rw [pdeWord, if_pos (by omega), h i hi]

theorem Summarised.code_zero_iff {s : PageAllocator} (h : s.Summarised) (behind : Nat → UInt32) {i : Nat}
    (hi : i < 1023) : pageCode (s.pdeWord behind i) = 0 ↔ Fits s.pageTables 1024 (1024 * i) := by
  rw [← h.isFree_iff behind hi, L1.isFree_iff]

/-- A large run that starts in a table with an allocated page does not start
at its first page. -/
theorem Fits.not_first {s : PageAllocator} (h : s.Summarised) {behind : Nat → UInt32} {n i a : Nat}
    (hi : i < 1023) (hcode : pageCode (s.pdeWord behind i) ≠ 0) (hn : 1024 ≤ n) (hfits : Fits s.pageTables n a) :
    a ≠ 1024 * i := by
  intro ha
  rw [ha] at hfits
  exact hcode ((h.code_zero_iff behind hi).mpr (hfits.sub (Nat.le_refl _) (by omega)))

/-- A run that starts no later than the table behind the free ones needs that
table too. -/
theorem stopped_skips {s : PageAllocator} (h : s.Summarised) {behind : Nat → UInt32} {n i a : Nat} (hi : i < 1023)
    (hM : MINNUMALLOCATEDPAGETABLES n ≠ 0) (hlt : found s behind n i < needed s behind n i)
    (hfits : Fits s.pageTables n a) (ha : i ≤ a / 1024) : i + found s behind n i + 1 ≤ a / 1024 := by
  by_contra hnot
  obtain ⟨hn, hR, -⟩ := sizes_large hM
  have hrange := hfits.inRange
  have hstop : isFree (s.pdeWord behind (i + 1 + found s behind n i)) = false := runLen_stop hlt
  have hcover : 1024 * (i + 1 + found s behind n i) + 1024 ≤ a + n := by
    unfold needed at hlt
    by_cases hcode : pageCode (s.pdeWord behind i) = 0
    · rw [if_pos hcode] at hlt
      omega
    · rw [if_neg hcode] at hlt
      have hfirst := hfits.not_first h hi hcode (by omega)
      omega
  have htable := (h.isFree_iff behind (by omega)).mpr (hfits.sub (by omega) hcover)
  rw [hstop] at htable
  cases htable

/-- A run that starts no later than the needed tables ends among the pages
counted beside them. -/
theorem largeNot_skips {s : PageAllocator} {behind : Nat → UInt32} {n i a : Nat} (hi : i < 1023)
    (hM : MINNUMALLOCATEDPAGETABLES n ≠ 0) (hfew : beside s behind n i < MINNUMOTHERFREEPAGES n)
    (hfits : Fits s.pageTables n a) (ha : i ≤ a / 1024) : i + needed s behind n i + 1 ≤ a / 1024 := by
  by_contra hnot
  obtain ⟨hn, hR, hR'⟩ := sizes_large hM
  have hahead : ∀ m, 0 < m → m ≤ 2048 → 1024 * (i + needed s behind n i + 1) + m ≤ a + n →
      m ≤ freeAhead s (i + needed s behind n i + 1) := by
    intro m hm hm' hle
    exact (le_freeAhead_iff s hm).mpr ⟨hm', hfits.sub (by omega) hle⟩
  unfold beside at hfew
  by_cases hcode : pageCode (s.pdeWord behind i) = 0
  · have hneeded : needed s behind n i = MINNUMALLOCATEDPAGETABLES n - 1 := if_pos hcode
    rw [if_pos hcode] at hfew
    have := hahead (MINNUMOTHERFREEPAGES n) (by omega) (by omega) (by omega)
    omega
  · have hneeded : needed s behind n i = MINNUMALLOCATEDPAGETABLES n := if_neg hcode
    rw [if_neg hcode] at hfew
    by_cases hin : a / 1024 = i
    · have hback : 1024 - a % 1024 ≤ freeBehind s i := by
        refine Fits.le_freeBehind hi (by omega) (n := n) ?_ (by omega)
        rw [← hin, Nat.div_add_mod]
        exact hfits
      have := hahead (MINNUMOTHERFREEPAGES n - (1024 - a % 1024))
      omega
    · have := hahead (MINNUMOTHERFREEPAGES n) (by omega) (by omega) (by omega)
      omega

/-- A round that goes on has skipped no run. -/
theorem searchStep_skips {s : PageAllocator} (h : s.Summarised) {behind : Nat → UInt32} {n i i' a : Nat}
    (hn : 0 < n) (hi : i < 1023) (hstep : searchStep s behind n i = some i') (hfits : Fits s.pageTables n a)
    (ha : i ≤ a / 1024) : i' ≤ a / 1024 := by
  have hround := searchStep_round s behind n hi
  rw [hstep] at hround
  cases hround with
  | full hcode =>
    by_contra hnot
    have hin : a / 1024 = i := by omega
    rw [h.pdeWord_code behind hi, summaryCode_eq_two_iff] at hcode
    have hfree := hfits.free a (Nat.le_refl a) (by omega)
    unfold codeOf at hfree
    rw [hin] at hfree
    exact hcode (a % 1024) (by omega) hfree
  | smallNot hM hmax =>
    by_contra hnot
    obtain ⟨hle, hR⟩ := sizes_small hM
    rw [hR] at hmax
    refine Nat.not_le.mpr hmax ((le_findMaxFreeSpace_iff s hi hn hle).mpr ⟨a % 1024, by omega, ?_⟩)
    rw [show 1024 * i + a % 1024 = a by omega]
    exact hfits
  | stopped hM hlt => exact stopped_skips h hi hM hlt hfits ha
  | largeNot hM _ hfew => exact largeNot_skips hi hM hfew hfits ha

/-! ## What a round finds -/

/-- The last allocated page is the first page of table `i`, and the pages
behind it are too few for a size that leaves 1023 pages besides whole tables. -/
structure OverrunsAt (tables : Nat → PageTable) (n i : Nat) : Prop where
  size : n % 1024 = 1023 ∧ 2047 ≤ n
  managed : i < 1023
  allocated : codeOf tables (1024 * i) ≠ 0
  free : ∀ q, 1024 * i < q → q < 1023 * 1024 → codeOf tables q = 0
  tooFew : 1023 * 1024 < 1024 * i + 1 + n

theorem freeBehind_le (s : PageAllocator) (i : Nat) : freeBehind s i ≤ 1024 := countFree_reverse_le _ _

theorem locate_large (s : PageAllocator) {n : Nat} (i : Nat) (hM : MINNUMALLOCATEDPAGETABLES n ≠ 0) :
    locate s n i = 1024 * (i + 1) - freeBehind s i := by
  have := freeBehind_le s i
  unfold locate
  rw [if_neg hM]
  unfold freeBehind at *
  omega

/-- Every run from table `i` on starts at or behind the free pages at its end. -/
theorem Fits.locate_le {s : PageAllocator} {n i b : Nat} (hi : i < 1023) (hn : 1024 ≤ n)
    (hfits : Fits s.pageTables n b) (hb : i ≤ b / 1024) : 1024 * (i + 1) - freeBehind s i ≤ b := by
  by_cases hin : b / 1024 = i
  · have hback : 1024 - b % 1024 ≤ freeBehind s i := by
      refine Fits.le_freeBehind hi (by omega) (n := n) ?_ (by omega)
      rw [← hin, Nat.div_add_mod]
      exact hfits
    omega
  · omega

/-- The words counted as free are those of free tables, as far as they are
managed. -/
theorem fits_found {s : PageAllocator} (h : s.Summarised) {behind : Nat → UInt32} {n i : Nat}
    (hall : found s behind n i = needed s behind n i) {m : Nat} (hm : m ≤ needed s behind n i)
    (hrange : i + m < 1023) : Fits s.pageTables (1024 * m) (1024 * (i + 1)) := by
  refine fits_tables (by omega) fun l h1 h2 => ?_
  refine (h.isFree_iff behind (by omega)).mp ?_
  exact runLen_eq_iff.mp hall l h1 (by omega)

theorem large_found_free {s : PageAllocator} (h : s.Summarised) {behind : Nat → UInt32} {n i : Nat} (hi : i < 1023)
    (hM : MINNUMALLOCATEDPAGETABLES n ≠ 0) (hall : found s behind n i = needed s behind n i)
    (henough : MINNUMOTHERFREEPAGES n ≤ beside s behind n i) (hcode : pageCode (s.pdeWord behind i) = 0) :
    Fits s.pageTables n (1024 * (i + 1) - freeBehind s i) := by
  obtain ⟨hn, hR, hR'⟩ := sizes_large hM
  have hneeded : needed s behind n i = MINNUMALLOCATEDPAGETABLES n - 1 := if_pos hcode
  have htable := (h.code_zero_iff behind hi).mp hcode
  have hbehind : 1024 ≤ freeBehind s i :=
    (le_freeBehind_iff s hi).mpr ⟨Nat.le_refl _, htable.sub (by omega) (by omega)⟩
  have hle := freeBehind_le s i
  unfold beside at henough
  rw [if_pos hcode, Nat.zero_add] at henough
  have hahead := ((le_freeAhead_iff s (by omega)).mp henough).2
  have hrange := hahead.inRange
  have htables := htable.append (fits_found h hall (Nat.le_refl _) (by omega)) (by omega)
  have hrun := htables.append hahead (by omega)
  exact hrun.sub (by omega) (by omega)

theorem large_found_partly {s : PageAllocator} (h : s.Summarised) {behind : Nat → UInt32} {n i : Nat} (hi : i < 1023)
    (hM : MINNUMALLOCATEDPAGETABLES n ≠ 0) (hall : found s behind n i = needed s behind n i)
    (henough : MINNUMOTHERFREEPAGES n ≤ beside s behind n i) (hcode : pageCode (s.pdeWord behind i) ≠ 0) :
    Fits s.pageTables n (1024 * (i + 1) - freeBehind s i) ∨ OverrunsAt s.pageTables n i := by
  obtain ⟨hn, hR, hR'⟩ := sizes_large hM
  have hneeded : needed s behind n i = MINNUMALLOCATEDPAGETABLES n := if_neg hcode
  have hbehind := ((le_freeBehind_iff s hi).mp (Nat.le_refl _)).2
  have hlt : freeBehind s i < 1024 := by
    refine Nat.lt_of_le_of_ne (freeBehind_le s i) fun he => hcode ?_
    rw [he] at hbehind
    exact (h.code_zero_iff behind hi).mpr (hbehind.sub (by omega) (by omega))
  unfold beside at henough
  rw [if_neg hcode, hneeded] at henough
  by_cases hrange : i + MINNUMALLOCATEDPAGETABLES n < 1023
  · left
    have htables := hbehind.append (fits_found h hall (Nat.le_of_eq hneeded.symm) hrange) (by omega)
    by_cases hin : MINNUMOTHERFREEPAGES n ≤ freeBehind s i
    · exact htables.sub (Nat.le_refl _) (by omega)
    · have hahead := ((le_freeAhead_iff s (i := i + MINNUMALLOCATEDPAGETABLES n + 1)
        (m := MINNUMOTHERFREEPAGES n - freeBehind s i) (by omega)).mp (by omega)).2
      exact (htables.append hahead (by omega)).sub (Nat.le_refl _) (by omega)
  · right
    have hnone : freeAhead s (i + MINNUMALLOCATEDPAGETABLES n + 1) = 0 := by
      by_contra hne
      have hahead := ((le_freeAhead_iff s (Nat.pos_of_ne_zero hne)).mp (Nat.le_refl _)).2.inRange
      omega
    have hlast : freeBehind s i = 1023 := by omega
    have htables := fits_found h hall (m := 1022 - i) (by omega) (by omega)
    rw [hlast] at hbehind
    refine ⟨by omega, hi, fun hfirst => ?_, fun q h1 h2 => ?_, by omega⟩
    · -- were the first page free, all 1024 would be
      have hwhole : Fits s.pageTables 1024 (1024 * i) := by
        refine ⟨by omega, fun q h1 h2 => ?_⟩
        by_cases hq : q = 1024 * i
        · rw [hq]
          exact hfirst
        · exact hbehind.free q (by omega) (by omega)
      exact hcode ((h.code_zero_iff behind hi).mpr hwhole)
    · by_cases hq : q < 1024 * (i + 1)
      · exact hbehind.free q (by omega) (by omega)
      · exact htables.free q (by omega) (by omega)

/-- A round that breaks has found the lowest run from its table on, or
overruns the last table. -/
theorem searchStep_found {s : PageAllocator} (h : s.Summarised) {behind : Nat → UInt32} {n i : Nat}
    (hn : 0 < n) (hi : i < 1023) (hstep : searchStep s behind n i = none) :
    LowestFrom s.pageTables n i (locate s n i) ∨ OverrunsAt s.pageTables n i := by
  have hround := searchStep_round s behind n hi
  rw [hstep] at hround
  cases hround with
  | small hM hmax =>
    obtain ⟨hle, hR⟩ := sizes_small hM
    rw [hR, le_findMaxFreeSpace_iff s hi hn hle] at hmax
    exact .inl (locate_small hn hM hmax)
  | large hM hall henough =>
    obtain ⟨hsize, hR, -⟩ := sizes_large hM
    rw [locate_large s i hM]
    have hlowest : ∀ b, i ≤ b / 1024 → Fits s.pageTables n b → 1024 * (i + 1) - freeBehind s i ≤ b := by
      intro b hb hfits
      exact hfits.locate_le hi (by omega) hb
    by_cases hcode : pageCode (s.pdeWord behind i) = 0
    · exact .inl ⟨large_found_free h hi hM hall henough hcode, hlowest⟩
    · cases large_found_partly h hi hM hall henough hcode with
      | inl hfits => exact .inl ⟨hfits, hlowest⟩
      | inr hover => exact .inr hover

/-! ## The whole search -/

/-- No run of `n` free pages, and the last allocated page is the first page of
a table. -/
structure Overruns (tables : Nat → PageTable) (n : Nat) : Prop where
  size : n % 1024 = 1023 ∧ 2047 ≤ n
  noRun : ∀ a, ¬ Fits tables n a
  last : ∃ i, i < 1023 ∧ codeOf tables (1024 * i) ≠ 0 ∧
    ∀ q, 1024 * i < q → q < 1023 * 1024 → codeOf tables q = 0

theorem OverrunsAt.not_fits {tables : Nat → PageTable} {n i a : Nat} (h : OverrunsAt tables n i)
    (ha : i ≤ a / 1024) : ¬ Fits tables n a := by
  intro hfits
  have hrange := hfits.inRange
  have hfew := h.tooFew
  have hsize := h.size
  have hfirst : a = 1024 * i := by omega
  apply h.allocated
  rw [← hfirst]
  exact hfits.free a (Nat.le_refl a) (by omega)

theorem Overruns.at {tables : Nat → PageTable} {n : Nat} (h : Overruns tables n) :
    ∃ i, OverrunsAt tables n i := by
  obtain ⟨i, hi, hallocated, hfree⟩ := h.last
  refine ⟨i, h.size, hi, hallocated, hfree, ?_⟩
  by_contra hle
  exact h.noRun (1024 * i + 1) ⟨by omega, fun q h1 h2 => hfree q (by omega) (by omega)⟩

/-- What the search leads to: the lowest run, no run, or an overrun. -/
inductive Outcome (s : PageAllocator) (n k : Nat) : Prop where
  | lowest : k < 1023 → LowestFrom s.pageTables n 0 (locate s n k) → Outcome s n k
  | none : 1023 ≤ k → (∀ a, ¬ Fits s.pageTables n a) → Outcome s n k
  | overrun : k < 1023 → OverrunsAt s.pageTables n k → Overruns s.pageTables n → Outcome s n k

theorem search_outcome {s : PageAllocator} (h : s.Summarised) (behind : Nat → UInt32) {n : Nat} (hn : 0 < n)
    (rounds i : Nat) (hrounds : 1023 ≤ i + rounds) (hlow : ∀ a, Fits s.pageTables n a → i ≤ a / 1024) :
    Outcome s n (search s behind n rounds i) := by
  have hend : 1023 ≤ i → ∀ a, ¬ Fits s.pageTables n a := by
    intro hi a hfits
    have hrange := hfits.inRange
    have htable := hlow a hfits
    omega
  induction rounds generalizing i with
  | zero => exact .none hrounds (hend hrounds)
  | succ rounds ih =>
    rw [search]
    by_cases hi : i < 1023
    · rw [if_pos hi]
      cases hstep : searchStep s behind n i with
      | none =>
        cases searchStep_found h hn hi hstep with
        | inl hlowest =>
          exact .lowest hi ⟨hlowest.fits, fun b _ hfits => hlowest.lowest b (hlow b hfits) hfits⟩
        | inr hover =>
          have hnone : ∀ a, ¬ Fits s.pageTables n a := fun a hfits => hover.not_fits (hlow a hfits) hfits
          exact .overrun hi hover ⟨hover.size, hnone, i, hi, hover.allocated, hover.free⟩
      | some i' =>
        have hlt := lt_of_searchStep hstep
        refine ih i' (by omega) (fun a hfits => searchStep_skips h hn hi hstep hfits (hlow a hfits)) ?_
        intro hi' a hfits
        have hrange := hfits.inRange
        have htable := searchStep_skips h hn hi hstep hfits (hlow a hfits)
        omega
    · rw [if_neg hi]
      exact .none (Nat.not_lt.mp hi) (hend (Nat.not_lt.mp hi))

/-- What `allocateContiguousPages` does, if it does not overrun. -/
theorem allocateContiguousPages_eq {s : PageAllocator} (h : s.Summarised) (behind : Nat → UInt32)
    {numPages : UInt32} (hn : 0 < numPages.toNat) (hno : ¬ Overruns s.pageTables numPages.toNat) :
    (∃ a, LowestFrom s.pageTables numPages.toNat 0 a ∧
      s.allocateContiguousPages behind numPages = some (a * 0x1000, s.withTables
        (mark (colour s.pageTables a (a + numPages.toNat)) a (a + numPages.toNat) s.pageTables))) ∨
    (∀ a, ¬ Fits s.pageTables numPages.toNat a) ∧
      s.allocateContiguousPages behind numPages = some (FAILURE, s) := by
  have hne : ¬ numPages = 0 := by
    intro h0
    rw [h0] at hn
    exact absurd hn (by decide)
  unfold allocateContiguousPages
  rw [if_neg hne]
  cases search_outcome h behind hn 1023 0 (by omega) (fun _ _ => Nat.zero_le _) with
  | lowest hk hlowest =>
    left
    refine ⟨_, hlowest, ?_⟩
    simp only [ge_iff_le, Nat.not_le.mpr hk, if_false]
    rw [allocatePagesStartingAtIndex_eq h hn hlowest.fits.inRange, Option.map_some]
  | none hk hnone =>
    right
    refine ⟨hnone, ?_⟩
    simp only [ge_iff_le, hk, if_true]
  | overrun _ _ hover => exact absurd hover hno

/-- If some run of `numPages` free pages exists, the lowest one is allocated. -/
theorem allocate_first_fit (s0 s : PageAllocator) (hs : (allocatorLTS s0).Reachable s) (behind : Nat → UInt32)
    (numPages : UInt32) (hn : 1 ≤ numPages.toNat) (hrun : ∃ a, Fits s.pageTables numPages.toNat a) :
    ∃ a t, s.allocateContiguousPages behind numPages = some (0x1000 * a, t) ∧
      Fits s.pageTables numPages.toNat a ∧ ∀ b, Fits s.pageTables numPages.toNat b → a ≤ b := by
  obtain ⟨hsum, -⟩ := (allocator_inductive s0).reachable s hs
  obtain ⟨b, hb⟩ := hrun
  have hno : ¬ Overruns s.pageTables numPages.toNat := fun hover => hover.noRun b hb
  cases allocateContiguousPages_eq hsum behind hn hno with
  | inl h =>
    obtain ⟨a, hlowest, hcall⟩ := h
    rw [Nat.mul_comm] at hcall
    exact ⟨a, _, hcall, hlowest.fits, fun b hfits => hlowest.lowest b (Nat.zero_le _) hfits⟩
  | inr h => exact absurd hb (h.1 b)

/-- 5000 pages behind the 1025 reserved ones. -/
theorem allocate_first_fit_reserved :
    ∃ t, (reserved 1024).allocateContiguousPages (fun _ => 0) 5000 = some (0x1000 * 1025, t) := by
  have hfits : Fits (reserved 1024).pageTables (5000 : UInt32).toNat 1025 := by
    refine ⟨by decide, fun q h1 _ => ?_⟩
    rw [codeOf_reserved, if_neg (by omega)]
  obtain ⟨a, t, hcall, hrun, hlow⟩ := allocate_first_fit blank _ (reserved_reachable _ (by decide)) (fun _ => 0)
    5000 (by decide) ⟨1025, hfits⟩
  have hle := hlow 1025 hfits
  have hge : 1025 ≤ a := by
    by_contra hlt
    have hfree := hrun.free a (Nat.le_refl a) (Nat.lt_add_of_pos_right (by decide))
    rw [codeOf_reserved, if_pos (by omega)] at hfree
    exact absurd hfree (by decide)
  rw [Nat.le_antisymm hle hge] at hcall
  exact ⟨t, hcall⟩

/-! ## Soundness -/

/-- The states have the same page tables and managed directory entries. -/
structure SameManaged (s s' : PageAllocator) : Prop where
  tables : s'.pageTables = s.pageTables
  entries : ∀ i, i < 1023 →
    s'.pageDirectory.pageDirectoryEntries i = s.pageDirectory.pageDirectoryEntries i

/-- Exactly the pages `a` to `a + n - 1` become allocated, and they were free. -/
structure Allocates (s t : PageAllocator) (n a : Nat) : Prop where
  fits : Fits s.pageTables n a
  allocated : ∀ p, a ≤ p → p < a + n → codeOf t.pageTables p ≠ 0
  others : ∀ p, ¬ (a ≤ p ∧ p < a + n) → codeOf t.pageTables p = codeOf s.pageTables p

/-- The call fails and changes nothing, or it allocates managed pages; and no
word but the managed ones decides what it returns. -/
structure Sound (s : PageAllocator) (behind : Nat → UInt32) (numPages : UInt32) : Prop where
  outcome : s.allocateContiguousPages behind numPages = some (FAILURE, s) ∨
    ∃ a t, s.allocateContiguousPages behind numPages = some (0x1000 * a, t) ∧ Allocates s t numPages.toNat a
  managed : ∀ s' behind', SameManaged s s' →
    (s'.allocateContiguousPages behind' numPages).map Prod.fst =
      (s.allocateContiguousPages behind numPages).map Prod.fst

theorem SameManaged.summarised {s s' : PageAllocator} (hsame : SameManaged s s') (h : s.Summarised) :
    s'.Summarised := by
  intro i hi
  rw [hsame.entries i hi, hsame.tables]
  exact h i hi

theorem Fits.allocates {s : PageAllocator} {n a : Nat} (hfits : Fits s.pageTables n a) :
    Allocates s (s.withTables (mark (colour s.pageTables a (a + n)) a (a + n) s.pageTables)) n a where
  fits := hfits
  allocated p h1 h2 := by
    obtain ⟨hc, h0, -, -⟩ := colour_spec s.pageTables a (a + n)
    rw [withTables_pageTables, mark, codeOf_mapPages, if_pos ⟨h1, h2⟩]
    exact pageCode_orCode_ne_zero _ hc h0
  others p hp := by
    rw [withTables_pageTables, mark, codeOf_mapPages, if_neg hp]

/-- The lowest run depends on the tables only. -/
theorem LowestFrom.unique {tables : Nat → PageTable} {n i a b : Nat} (ha : LowestFrom tables n i a)
    (hb : LowestFrom tables n i b) (hia : i ≤ a / 1024) (hib : i ≤ b / 1024) : a = b :=
  Nat.le_antisymm (ha.lowest b hib hb.fits) (hb.lowest a hia ha.fits)

theorem sound_of_not_overruns {s : PageAllocator} (h : s.Summarised) (behind : Nat → UInt32) {numPages : UInt32}
    (hn : 0 < numPages.toNat) (hno : ¬ Overruns s.pageTables numPages.toNat) : Sound s behind numPages := by
  have hcases := allocateContiguousPages_eq h behind hn hno
  constructor
  · cases hcases with
    | inl hfound =>
      obtain ⟨a, hlowest, hcall⟩ := hfound
      rw [Nat.mul_comm] at hcall
      exact .inr ⟨a, _, hcall, hlowest.fits.allocates⟩
    | inr hnone => exact .inl hnone.2
  · intro s' behind' hsame
    have hcases' := allocateContiguousPages_eq (hsame.summarised h) behind' hn (hsame.tables.symm ▸ hno)
    rw [hsame.tables] at hcases'
    cases hcases with
    | inl hfound =>
      obtain ⟨a, hlowest, hcall⟩ := hfound
      cases hcases' with
      | inl hfound' =>
        obtain ⟨b, hlowest', hcall'⟩ := hfound'
        rw [hcall, hcall', hlowest.unique hlowest' (Nat.zero_le _) (Nat.zero_le _)]
        rfl
      | inr hnone' => exact absurd hlowest.fits (hnone'.1 a)
    | inr hnone =>
      cases hcases' with
      | inl hfound' =>
        obtain ⟨b, hlowest', -⟩ := hfound'
        exact absurd hlowest'.fits (hnone.1 b)
      | inr hnone' =>
        rw [hnone.2, hnone'.2]
        rfl

/-! ## The overrun -/

section Overrun

variable {s : PageAllocator} {behind : Nat → UInt32} {n i : Nat}

theorem OverrunsAt.large (h : OverrunsAt s.pageTables n i) :
    MINNUMALLOCATEDPAGETABLES n ≠ 0 ∧ MINNUMOTHERFREEPAGES n = 1023 := by
  have hsize := h.size
  unfold MINNUMOTHERFREEPAGES MINNUMALLOCATEDPAGETABLES
  rw [if_neg (by omega)]
  omega

theorem OverrunsAt.not_free (hover : OverrunsAt s.pageTables n i) : ¬ Fits s.pageTables 1024 (1024 * i) := by
  intro hfits
  exact hover.allocated (hfits.free _ (Nat.le_refl _) (by omega))

theorem OverrunsAt.locate_eq (hover : OverrunsAt s.pageTables n i) : locate s n i = 1024 * i + 1 := by
  have hi := hover.managed
  have hback : freeBehind s i = 1023 := by
    refine Nat.le_antisymm ?_ ?_
    · by_contra hgt
      have hall := ((le_freeBehind_iff s hi (m := 1024)).mp (by omega)).2
      exact hover.not_free (hall.sub (by omega) (by omega))
    · refine (le_freeBehind_iff s hi).mpr ⟨by decide, by omega, fun q h1 h2 => ?_⟩
      exact hover.free q (by omega) (by omega)
  rw [locate_large s i hover.large.1, hback]
  omega

/-- A search that comes from a table in front does not skip table `i`. -/
theorem OverrunsAt.not_skipped (hsum : s.Summarised) (hover : OverrunsAt s.pageTables n i) {k k' : Nat}
    (hk : k < i) (hstep : searchStep s behind n k = some k') : k' ≤ i := by
  have hi := hover.managed
  have hnot : ∀ m, m ≤ found s behind n k → ¬ k + 1 + m > i := by
    intro m hm hgt
    have hword : isFree (s.pdeWord behind i) = true :=
      of_lt_runLen (P := fun k => isFree (s.pdeWord behind k)) (n := needed s behind n k) (p := k + 1)
        (by omega) (Nat.lt_of_lt_of_le hgt (Nat.add_le_add_left hm _))
    exact hover.not_free ((hsum.isFree_iff behind hi).mp hword)
  have hround := searchStep_round s behind n (i := k) (by omega)
  rw [hstep] at hround
  cases hround with
  | full => omega
  | smallNot => omega
  | stopped =>
    have := hnot (found s behind n k) (Nat.le_refl _)
    omega
  | largeNot _ hall =>
    have := hnot (needed s behind n k) (Nat.le_of_eq hall.symm)
    omega

/-- With free words behind the last entry, the round at table `i` breaks. -/
theorem OverrunsAt.breaks (hsum : s.Summarised) (hover : OverrunsAt s.pageTables n i)
    (houter : ∀ k, 1023 ≤ k → isFree (s.pdeWord behind k) = true) : searchStep s behind n i = none := by
  have hi := hover.managed
  obtain ⟨hM, hR⟩ := hover.large
  have hcode : pageCode (s.pdeWord behind i) ≠ 0 := by
    intro h0
    exact hover.not_free ((hsum.code_zero_iff behind hi).mp h0)
  have hwords : ∀ k, i < k → isFree (s.pdeWord behind k) = true := by
    intro k hk
    by_cases hmanaged : k < 1023
    · refine (hsum.isFree_iff behind hmanaged).mpr ⟨by omega, fun q h1 h2 => ?_⟩
      exact hover.free q (by omega) (by omega)
    · exact houter k (Nat.not_lt.mp hmanaged)
  have hback : 1023 ≤ freeBehind s i := by
    refine (le_freeBehind_iff s hi).mpr ⟨by decide, by omega, fun q h1 h2 => ?_⟩
    exact hover.free q (by omega) (by omega)
  have hround := searchStep_round s behind n hi
  generalize searchStep s behind n i = r at hround ⊢
  cases hround with
  | full hfull =>
    rw [hsum.pdeWord_code behind hi, summaryCode_eq_two_iff] at hfull
    have hfree := hover.free (1024 * i + 1) (by omega) (by omega)
    rw [codeOf_at _ (by decide)] at hfree
    exact absurd hfree (hfull 1 (by decide))
  | small => rfl
  | smallNot h0 => exact absurd h0 hM
  | stopped _ hlt =>
    have hstop : isFree (s.pdeWord behind (i + 1 + found s behind n i)) = false := runLen_stop hlt
    rw [hwords _ (by omega)] at hstop
    cases hstop
  | large => rfl
  | largeNot _ _ hfew =>
    unfold beside at hfew
    rw [if_neg hcode] at hfew
    omega

theorem OverrunsAt.search_eq (hsum : s.Summarised) (hover : OverrunsAt s.pageTables n i)
    (hnone : ∀ a, ¬ Fits s.pageTables n a) (houter : ∀ k, 1023 ≤ k → isFree (s.pdeWord behind k) = true)
    (rounds k : Nat) (hrounds : 1023 ≤ k + rounds) (hk : k ≤ i) : search s behind n rounds k = i := by
  have hi := hover.managed
  have hn := hover.size
  induction rounds generalizing k with
  | zero => omega
  | succ rounds ih =>
    rw [search, if_pos (by omega)]
    by_cases hki : k = i
    · rw [hki, hover.breaks hsum houter]
    · cases hstep : searchStep s behind n k with
      | none =>
        cases searchStep_found hsum (by omega) (by omega) hstep with
        | inl hlowest => exact absurd hlowest.fits (hnone _)
        | inr hearlier => exact absurd (hearlier.free (1024 * i) (by omega) (by omega)) hover.allocated
      | some k' =>
        have hlt := lt_of_searchStep hstep
        exact ih k' (by omega) (hover.not_skipped hsum (by omega) hstep)

theorem foldlM_pagesRound_null (code : UInt32) (first last m k : Nat) (s : PageAllocator) (hk : k ≤ 1023)
    (hm : 1023 < k + m) : (List.range' k m).foldlM (pagesRound code first last) s = none := by
  induction m generalizing k s with
  | zero => omega
  | succ m ih =>
    rw [List.range'_succ, List.foldlM_cons]
    by_cases hlast : k = 1023
    · subst hlast
      rfl
    · rw [pagesRound, getPageTable, if_pos (by omega : k < 1023)]
      exact ih (k + 1) _ (by omega) (by omega)

/-- Marking a range that leaves the managed pages dereferences the null pointer
of table 1023. -/
theorem allocatePagesStartingAtIndex_null (s : PageAllocator) {a n : Nat} (ha : a < 1023 * 1024)
    (hn : 1023 * 1024 < a + n) (hword : a + n ≤ 2 ^ 32) : s.allocatePagesStartingAtIndex a n = none := by
  have hend : (a + n - 1) % 2 ^ 32 = a + n - 1 := Nat.mod_eq_of_lt (by omega)
  unfold allocatePagesStartingAtIndex
  rw [if_neg (by omega), hend]
  simp only [Option.bind_eq_bind, show ¬ a + n - 1 < 1023 * 1024 - 1 by omega, if_false, Option.bind_some]
  by_cases hpos : a > 0
  · simp only [hpos, if_true, codeAt_eq s (by omega : a - 1 < 1023 * 1024), Option.bind_some]
    exact foldlM_pagesRound_null _ _ _ _ _ _ (by omega) (by omega)
  · simp only [hpos, if_false]
    exact foldlM_pagesRound_null _ _ _ _ _ _ (by omega) (by omega)

/-- A call that returns managed pages has found them free. -/
theorem allocateContiguousPages_fits {s t : PageAllocator} (h : s.Summarised) {behind : Nat → UInt32}
    {numPages : UInt32} {a : Nat} (hn : 0 < numPages.toNat)
    (hcall : s.allocateContiguousPages behind numPages = some (0x1000 * a, t))
    (hrange : a + numPages.toNat ≤ 1023 * 1024) :
    Fits s.pageTables numPages.toNat a ∧
      t = s.withTables (mark (colour s.pageTables a (a + numPages.toNat)) a (a + numPages.toNat) s.pageTables) := by
  have hne : ¬ numPages = 0 := by
    intro h0
    rw [h0] at hn
    exact absurd hn (by decide)
  unfold allocateContiguousPages at hcall
  rw [if_neg hne] at hcall
  have houtcome := search_outcome h behind hn 1023 0 (by omega) (fun _ _ => Nat.zero_le _)
  generalize search s behind numPages.toNat 1023 0 = k at hcall houtcome
  have haddress : k < 1023 → locate s numPages.toNat k = a ∧
      s.allocatePagesStartingAtIndex a numPages.toNat = some t := by
    intro hk
    simp only [ge_iff_le, Nat.not_le.mpr hk, if_false, Option.map_eq_some_iff] at hcall
    obtain ⟨u, hu, he⟩ := hcall
    obtain ⟨he, rfl⟩ := Prod.mk.inj he
    have hloc : locate s numPages.toNat k = a := by omega
    exact ⟨hloc, hloc ▸ hu⟩
  cases houtcome with
  | lowest hk hlowest =>
    obtain ⟨rfl, hu⟩ := haddress hk
    rw [allocatePagesStartingAtIndex_eq h hn hrange] at hu
    exact ⟨hlowest.fits, (Option.some.inj hu).symm⟩
  | none hk =>
    simp only [ge_iff_le, hk, if_true, Option.some.injEq, Prod.mk.injEq] at hcall
    have hfail := hcall.1
    unfold FAILURE LAST_POSSIBLE_PDE_INDEX at hfail
    omega
  | overrun hk hat =>
    have hloc := (haddress hk).1
    have hfew := hat.tooFew
    rw [hat.locate_eq] at hloc
    omega

/-- The state with nothing but zeros behind the managed entries. -/
def zeroOuter (s : PageAllocator) : PageAllocator :=
  { s with pageDirectory :=
    ⟨fun i => if i < 1023 then s.pageDirectory.pageDirectoryEntries i else 0, fun _ => 0⟩ }

theorem sameManaged_zeroOuter (s : PageAllocator) : SameManaged s s.zeroOuter where
  tables := rfl
  entries _ hi := if_pos hi

theorem zeroOuter_isFree (s : PageAllocator) {k : Nat} (hk : 1023 ≤ k) :
    isFree (s.zeroOuter.pdeWord (fun _ => 0) k) = true := by
  have hzero : s.zeroOuter.pdeWord (fun _ => 0) k = 0 := by
    simp only [pdeWord, zeroOuter]
    rw [if_neg (Nat.not_lt.mpr hk), ite_self, ite_self]
  rw [hzero]
  decide

/-- Where it overruns, the call goes for page `1024 * i + 1`. -/
theorem Overruns.returns {s : PageAllocator} {behind : Nat → UInt32} {numPages : UInt32} (hsum : s.Summarised) (hover : Overruns s.pageTables numPages.toNat)
    (houter : ∀ k, 1023 ≤ k → isFree (s.pdeWord behind k) = true) :
    ∃ i, OverrunsAt s.pageTables numPages.toNat i ∧ s.allocateContiguousPages behind numPages =
      (s.allocatePagesStartingAtIndex (1024 * i + 1) numPages.toNat).map
        fun t => ((1024 * i + 1) * 0x1000, t) := by
  obtain ⟨i, hat⟩ := hover.at
  have hi := hat.managed
  have hne : ¬ numPages = 0 := by
    intro h0
    have hsize := hat.size.2
    rw [h0] at hsize
    exact absurd hsize (by decide)
  refine ⟨i, hat, ?_⟩
  unfold allocateContiguousPages
  rw [if_neg hne, hat.search_eq hsum hover.noRun houter 1023 0 (by omega) (by omega)]
  simp only [ge_iff_le, Nat.not_le.mpr hi, if_false, hat.locate_eq]

theorem not_sound_of_overruns {s : PageAllocator} (hsum : s.Summarised) (behind : Nat → UInt32) {numPages : UInt32}
    (hover : Overruns s.pageTables numPages.toNat) : ¬ Sound s behind numPages := by
  intro hsound
  have hsum' : s.zeroOuter.Summarised := (sameManaged_zeroOuter s).summarised hsum
  obtain ⟨i, hat, hcall⟩ := Overruns.returns hsum' hover (fun k hk => zeroOuter_isFree s hk)
  have hsame := hsound.managed s.zeroOuter (fun _ => 0) (sameManaged_zeroOuter s)
  have hfail : (s.allocateContiguousPages behind numPages).map Prod.fst = some FAILURE := by
    cases hsound.outcome with
    | inl hfail =>
      rw [hfail]
      rfl
    | inr hok =>
      obtain ⟨a, t, -, halloc⟩ := hok
      exact absurd halloc.fits (hover.noRun a)
  rw [hcall, hfail] at hsame
  generalize s.zeroOuter.allocatePagesStartingAtIndex (1024 * i + 1) numPages.toNat = r at hsame
  cases r with
  | none => cases hsame
  | some t =>
    have haddress : (1024 * i + 1) * 0x1000 = FAILURE := Option.some.inj hsame
    have hi := hat.managed
    unfold FAILURE LAST_POSSIBLE_PDE_INDEX at haddress
    omega

end Overrun

/-- In a reachable state the call is sound exactly if it does not overrun. -/
theorem sound_iff (s0 s : PageAllocator) (hs : (allocatorLTS s0).Reachable s) (behind : Nat → UInt32)
    (numPages : UInt32) (hn : 1 ≤ numPages.toNat) :
    Sound s behind numPages ↔ ¬ Overruns s.pageTables numPages.toNat := by
  obtain ⟨hsum, -⟩ := (allocator_inductive s0).reachable s hs
  constructor
  · intro hsound hover
    exact not_sound_of_overruns hsum behind hover hsound
  · intro hno
    exact sound_of_not_overruns hsum behind hn hno

theorem sound_reserved : Sound (reserved 1024) (fun _ => 0) 5000 := by
  refine (sound_iff blank _ (reserved_reachable _ (by decide)) (fun _ => 0) 5000 (by decide)).mpr ?_
  intro hover
  exact absurd hover.size (by decide)

theorem overruns_reserved : Overruns (reserved (1022 * 1024)).pageTables (2047 : UInt32).toNat where
  size := by decide
  noRun a hfits := by
    have hrange := hfits.inRange
    have hfirst := hfits.free a (Nat.le_refl a) (Nat.lt_add_of_pos_right (by decide))
    rw [codeOf_reserved, if_pos (by simp only [UInt32.reduceToNat] at hrange; omega)] at hfirst
    exact absurd hfirst (by decide)
  last := by
    refine ⟨1022, by decide, ?_, fun q h1 h2 => ?_⟩
    · rw [codeOf_reserved, if_pos (by decide)]
      decide
    · rw [codeOf_reserved, if_neg (by omega)]

/-- Pages 0 to 1022 * 1024 are reserved: 1023 pages are free, and the call for
2047 pages writes through the null pointer. -/
theorem overrun_2047 : (allocatorLTS blank).Reachable (reserved (1022 * 1024)) ∧
    (reserved (1022 * 1024)).allocateContiguousPages (fun _ => 0) 2047 = none ∧
    ¬ Sound (reserved (1022 * 1024)) (fun _ => 0) 2047 := by
  have hsum := summarised_reserved (1022 * 1024)
  refine ⟨reserved_reachable _ (by decide), ?_, not_sound_of_overruns hsum _ overruns_reserved⟩
  have houter : ∀ k, 1023 ≤ k → isFree ((reserved (1022 * 1024)).pdeWord (fun _ => 0) k) = true := by
    intro k hk
    have hzero : (reserved (1022 * 1024)).pdeWord (fun _ => 0) k = 0 := by
      simp only [pdeWord, reserved, withTables, construct, blank, Nat.not_lt.mpr hk, if_false, ite_self]
    rw [hzero]
    decide
  obtain ⟨i, hat, hcall⟩ := Overruns.returns hsum overruns_reserved houter
  have hi := hat.managed
  have hfew := hat.tooFew
  rw [hcall, allocatePagesStartingAtIndex_null _ (by omega) hfew, Option.map_none]
  simp only [UInt32.reduceToNat]
  omega

end PageAllocator

end CpuScheduler.L1
