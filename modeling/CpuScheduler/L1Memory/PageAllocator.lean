import CpuScheduler.L1Memory.Paging

/-!
# PageAllocator

`page_allocator.cpp`: bits 9 and 10 of an entry say who uses it. For a page
the code is 0 if the page is free; otherwise it is a colour, and a region
ends where the colour changes. For a page table the code in the page
directory sums up the pages: 0 none is allocated, 1 some are, 2 all are.

The allocator works on the kernel's page directory and 1023 page tables.
`getPageTable` gives a null pointer for any other index. A result `none`
means that a null pointer is dereferenced.

`pageDirectoryEntries` is indexed beyond its 1024 words while looking ahead.
The helper table follows it in the packed struct; what memory holds behind
the struct is a parameter (`behind`).
-/
namespace CpuScheduler.L1

def PAGE_TABLE_FULLY_NOT_ALLOCATED_CODE : UInt32 := 0
def PAGE_TABLE_PARTLY_ALLOCATED_CODE : UInt32 := 1
def PAGE_TABLE_FULLY_ALLOCATED_CODE : UInt32 := 2
def LAST_POSSIBLE_PDE_INDEX : Nat := 1023

/-! ## Codes -/

/-- `(bits >> 9) & 0x3` -/
def pageCode (bits : UInt32) : UInt32 := (bits >>> 9) &&& 0x3

/-- `bits & ~(0x3 << 9)` -/
def clearCode (bits : UInt32) : UInt32 := bits &&& ~~~((0x3 : UInt32) <<< 9)

/-- `bits | (code << 9)` -/
def orCode (bits code : UInt32) : UInt32 := bits ||| (code <<< 9)

/-- `(bits & (0x3 << 9)) == 0` -/
def isFree (bits : UInt32) : Bool := bits &&& ((0x3 : UInt32) <<< 9) == 0

theorem code_cases {c : UInt32} (hc : c < 4) : c = 0 ∨ c = 1 ∨ c = 2 ∨ c = 3 := by
  have h : c.toNat < 4 := hc
  rw [← UInt32.toNat_inj, ← UInt32.toNat_inj, ← UInt32.toNat_inj, ← UInt32.toNat_inj]
  simp only [UInt32.reduceToNat]
  omega

theorem pageCode_lt (w : UInt32) : pageCode w < 4 := by
  rw [UInt32.lt_iff_toNat_lt]
  unfold pageCode
  rw [UInt32.toNat_and, show (0x3 : UInt32).toNat = 2 ^ 2 - 1 from rfl, Nat.and_two_pow_sub_one_eq_mod]
  exact Nat.mod_lt _ (by decide)

@[simp] theorem pageCode_clearCode (w : UInt32) : pageCode (clearCode w) = 0 := by
  unfold pageCode clearCode
  apply UInt32.toBitVec_inj.mp
  apply BitVec.eq_of_getLsbD_eq
  intro i hi
  interval_cases i <;> simp

@[simp] theorem clearCode_clearCode (w : UInt32) : clearCode (clearCode w) = clearCode w := by
  unfold clearCode
  rw [UInt32.and_assoc, UInt32.and_self]

theorem pageCode_orCode (w : UInt32) {c : UInt32} (hc : c < 4) :
    pageCode (orCode w c) = pageCode w ||| c := by
  unfold pageCode orCode
  obtain rfl | rfl | rfl | rfl := code_cases hc
  all_goals
    apply UInt32.toBitVec_inj.mp
    apply BitVec.eq_of_getLsbD_eq
    intro i hi
    interval_cases i <;> simp

theorem clearCode_orCode (w : UInt32) {c : UInt32} (hc : c < 4) :
    clearCode (orCode w c) = clearCode w := by
  unfold clearCode orCode
  obtain rfl | rfl | rfl | rfl := code_cases hc
  all_goals
    apply UInt32.toBitVec_inj.mp
    apply BitVec.eq_of_getLsbD_eq
    intro i hi
    interval_cases i <;> simp

theorem orCode_clearCode (w : UInt32) : orCode (clearCode w) (pageCode w) = w := by
  unfold pageCode clearCode orCode
  apply UInt32.toBitVec_inj.mp
  apply BitVec.eq_of_getLsbD_eq
  intro i hi
  interval_cases i <;> simp

/-- An entry is its code and its other bits. -/
theorem entry_ext {v w : UInt32} (hcode : pageCode v = pageCode w) (hrest : clearCode v = clearCode w) :
    v = w := by
  rw [← orCode_clearCode v, ← orCode_clearCode w, hcode, hrest]

theorem isFree_iff (w : UInt32) : isFree w = true ↔ pageCode w = 0 := by
  have hand : w &&& ((0x3 : UInt32) <<< 9) = pageCode w <<< 9 := by
    unfold pageCode
    apply UInt32.toBitVec_inj.mp
    apply BitVec.eq_of_getLsbD_eq
    intro i hi
    interval_cases i <;> simp
  unfold isFree
  rw [hand]
  obtain h | h | h | h := code_cases (pageCode_lt w) <;> rw [h] <;> decide

/-! ## State -/

/-- The words that the allocator reads and writes. -/
structure PageAllocator where
  pageDirectory : PageDirectory
  pageTables : Nat → PageTable

namespace PageAllocator

/-- mirrors paging_structures.cpp:37-43 -/
def getPageTable (s : PageAllocator) (i : Nat) : Option PageTable :=
  if i < 1023 then some (s.pageTables i) else none

/-- `pageDirectoryEntries[i]` -/
def pdeWord (s : PageAllocator) (behind : Nat → UInt32) (i : Nat) : UInt32 :=
  if i < 1024 then s.pageDirectory.pageDirectoryEntries i
  else if i < 2048 then s.pageDirectory.helperTableEntries (i - 1024)
  else behind i

def setTable (s : PageAllocator) (i : Nat) (t : PageTable) : PageAllocator :=
  { s with pageTables := Function.update s.pageTables i t }

/-- The entry of table `i` in the directory gets the code `code`. -/
def setSummary (s : PageAllocator) (i : Nat) (code : UInt32) : PageAllocator :=
  { s with pageDirectory := { s.pageDirectory with
      pageDirectoryEntries := Function.update s.pageDirectory.pageDirectoryEntries i
        (orCode (clearCode (s.pageDirectory.pageDirectoryEntries i)) code) } }

/-- mirrors page_allocator.cpp:20-35 -/
def construct (s : PageAllocator) : PageAllocator where
  pageDirectory := { s.pageDirectory with
    pageDirectoryEntries := fun i =>
      if i < 1023 then clearCode (s.pageDirectory.pageDirectoryEntries i)
      else s.pageDirectory.pageDirectoryEntries i }
  pageTables := fun i j =>
    if i < 1023 ∧ j < 1024 then clearCode (s.pageTables i j) else s.pageTables i j

/-! ## Scanning a table -/

/-- mirrors page_allocator.cpp:73-79 -/
def checkPageTableFullyAllocated (t : PageTable) : Bool :=
  (List.range 1024).all fun i => !isFree (t i)

/-- mirrors page_allocator.cpp:81-87 -/
def checkPageTableFullyNotAllocated (t : PageTable) : Bool :=
  (List.range 1024).all fun i => isFree (t i)

/-- How many of the entries at `is` are free, up to the first that is not. -/
def countFree (t : PageTable) : List Nat → Nat
  | [] => 0
  | i :: is => if isFree (t i) then countFree t is + 1 else 0

/-- mirrors page_allocator.cpp:89-103 -/
def numFreeAtBegin : Option PageTable → Nat
  | none => 0
  | some t => countFree t (List.range 1024)

/-- mirrors page_allocator.cpp:105-120 -/
def numFreeAtEnd : Option PageTable → Nat
  | none => 0
  | some t => countFree t (List.range 1024).reverse

/-- The loop of `findMaxFreeSpaceStartingFromTable`: `retVal` and
`currentCounter` at its end. -/
def maxLoop (t : PageTable) : List Nat → Nat → Nat → Nat × Nat
  | [], retVal, currentCounter => (retVal, currentCounter)
  | i :: is, retVal, currentCounter =>
    if isFree (t i) then maxLoop t is retVal (currentCounter + 1)
    else maxLoop t is (if currentCounter > retVal then currentCounter else retVal) 0

/-- mirrors page_allocator.cpp:122-152 -/
def findMaxFreeSpaceStartingFromTable (s : PageAllocator) (startingPageTableIndex : Nat) : Nat :=
  if startingPageTableIndex ≥ 1023 then 0
  else
    let (retVal, currentCounter) := maxLoop (s.pageTables startingPageTableIndex) (List.range 1024) 0 0
    if currentCounter = 0 then retVal
    else
      let numFreeAtEnd := numFreeAtBegin (s.getPageTable (startingPageTableIndex + 1))
      let currentCounter := currentCounter + numFreeAtEnd
      let currentCounter := if numFreeAtEnd = 1024 then
          currentCounter + numFreeAtBegin (s.getPageTable (startingPageTableIndex + 2))
        else currentCounter
      if currentCounter > retVal then currentCounter else retVal

/-! ## Searching -/

/-- mirrors page_allocator.cpp:171-174 -/
def MINNUMALLOCATEDPAGETABLES (numPages : Nat) : Nat :=
  if numPages < 2 * 1023 then 0 else (numPages - 1023) / 1024

/-- mirrors page_allocator.cpp:176 -/
def MINNUMOTHERFREEPAGES (numPages : Nat) : Nat := numPages - MINNUMALLOCATEDPAGETABLES numPages * 1024

/-- The look-ahead loop: the first `j` from `j` on, below `j + n`, such that
table `i + j + 1` is not free, or `j + n`. mirrors page_allocator.cpp:190-195 -/
def lookAhead (s : PageAllocator) (behind : Nat → UInt32) (i : Nat) : Nat → Nat → Nat
  | 0, j => j
  | n + 1, j => if isFree (s.pdeWord behind (i + j + 1)) then lookAhead s behind i n (j + 1) else j

/-- What one round of the search does with table `i`: `none` is the `break`,
`some i'` goes on with table `i'`. mirrors page_allocator.cpp:182-234 -/
def searchStep (s : PageAllocator) (behind : Nat → UInt32) (numPages i : Nat) : Option Nat :=
  let M := MINNUMALLOCATEDPAGETABLES numPages
  let currentPageTableCode := pageCode (s.pdeWord behind i)
  if currentPageTableCode ≠ PAGE_TABLE_FULLY_ALLOCATED_CODE then
    let remainingRequiredUnallocatedPageTables := if currentPageTableCode = 0 ∧ M ≠ 0 then M - 1 else M
    let j := lookAhead s behind i remainingRequiredUnallocatedPageTables 0
    if j ≠ remainingRequiredUnallocatedPageTables then some (i + j + 1)
    else if M = 0 then
      if findMaxFreeSpaceStartingFromTable s i ≥ MINNUMOTHERFREEPAGES numPages then none else some (i + 1)
    else
      let foundNumOtherFreePages := if currentPageTableCode ≠ 0 then numFreeAtEnd (s.getPageTable i) else 0
      let numFree := numFreeAtBegin (s.getPageTable (i + j + 1))
      let foundNumOtherFreePages := foundNumOtherFreePages + numFree
      let foundNumOtherFreePages := if numFree = 1024 then
          foundNumOtherFreePages + numFreeAtBegin (s.getPageTable (i + j + 2))
        else foundNumOtherFreePages
      if foundNumOtherFreePages ≥ MINNUMOTHERFREEPAGES numPages then none else some (i + j + 1)
  else some (i + 1)

theorem lt_of_searchStep {s : PageAllocator} {behind : Nat → UInt32} {numPages i i' : Nat}
    (h : searchStep s behind numPages i = some i') : i < i' := by
  simp only [searchStep] at h
  repeat' split at h
  all_goals simp at h
  all_goals omega

/-- The search: a table at which the round breaks, or 1023 or more. Each round
moves forward (`lt_of_searchStep`), so there are at most 1023.
mirrors page_allocator.cpp:180-235 -/
def search (s : PageAllocator) (behind : Nat → UInt32) (numPages : Nat) : Nat → Nat → Nat
  | 0, i => i
  | rounds + 1, i =>
    if i < 1023 then
      match searchStep s behind numPages i with
      | none => i
      | some i' => search s behind numPages rounds i'
    else i

/-- The loop that looks for the first page: `lastjValue` at its end.
mirrors page_allocator.cpp:244-257 -/
def locateLoop (t : PageTable) (minNumOtherFreePages : Nat) : List Nat → Nat → Nat → Nat
  | [], lastjValue, _ => lastjValue
  | j :: js, lastjValue, currentCounter =>
    if isFree (t j) then
      if currentCounter + 1 ≥ minNumOtherFreePages then lastjValue
      else locateLoop t minNumOtherFreePages js lastjValue (currentCounter + 1)
    else locateLoop t minNumOtherFreePages js (j + 1) 0

/-- The first page, given the table at which the search stopped.
mirrors page_allocator.cpp:241-270 -/
def locate (s : PageAllocator) (numPages i : Nat) : Nat :=
  if MINNUMALLOCATEDPAGETABLES numPages = 0 then
    i * 1024 + locateLoop (s.pageTables i) (MINNUMOTHERFREEPAGES numPages) (List.range 1024) 0 0
  else i * 1024 + (1024 - countFree (s.pageTables i) (List.range 1024).reverse)

/-! ## Allocating -/

/-- The code of page `page`, if it has an entry. -/
def codeAt (s : PageAllocator) (page : Nat) : Option UInt32 :=
  (s.getPageTable (page / 1024)).map fun t => pageCode (t (page % 1024))

/-- mirrors page_allocator.cpp:306-321 -/
def newPageCode (preFirstPageCode postLastPageCode : UInt32) : UInt32 :=
  if preFirstPageCode = postLastPageCode then if preFirstPageCode = 1 then 2 else 1
  else if preFirstPageCode = 0 then if postLastPageCode = 1 then 2 else 1
  else if postLastPageCode = 0 then if preFirstPageCode = 1 then 2 else 1
  else (1 + 2 + 3) - (preFirstPageCode + postLastPageCode)

/-- `for(j in js) pageTableEntries[j] |= (code << 9)` -/
def orLoop (code : UInt32) : List Nat → PageTable → PageTable
  | [], t => t
  | j :: js, t => orLoop code js (Function.update t j (orCode (t j) code))

/-- The entries of table `i` that belong to pages `first` to `last`. -/
def entries (first last i : Nat) : List Nat :=
  let pteBegin := if i = first / 1024 then first % 1024 else 0
  let pteEnd := if i = last / 1024 then last % 1024 else 1023
  List.range' pteBegin (pteEnd + 1 - pteBegin)

/-- One round of the loop of `allocatePageRange`.
mirrors page_allocator.cpp:46-69 -/
def rangeRound (first last : Nat) (s : PageAllocator) (i : Nat) : Option PageAllocator :=
  (s.getPageTable i).map fun t =>
    let t := orLoop 1 (entries first last i) t
    (s.setTable i t).setSummary i
      (if checkPageTableFullyAllocated t then PAGE_TABLE_FULLY_ALLOCATED_CODE
        else PAGE_TABLE_PARTLY_ALLOCATED_CODE)

/-- mirrors page_allocator.cpp:37-71 -/
def allocatePageRange (s : PageAllocator) (firstPageIndex lastPageIndex : Nat) : Option PageAllocator :=
  (List.range' (firstPageIndex / 1024)
    (min (lastPageIndex / 1024) LAST_POSSIBLE_PDE_INDEX + 1 - firstPageIndex / 1024)).foldlM
    (rangeRound firstPageIndex lastPageIndex) s

/-- One round of the loop of `allocatePagesStartingAtIndex`; a table that the
range covers is not scanned. mirrors page_allocator.cpp:341-376 -/
def pagesRound (code : UInt32) (first last : Nat) (s : PageAllocator) (i : Nat) : Option PageAllocator :=
  (s.getPageTable i).map fun t =>
    let pteBegin := if i = first / 1024 then first % 1024 else 0
    let pteEnd := if i = last / 1024 then last % 1024 else 1023
    let t := orLoop code (entries first last i) t
    (s.setTable i t).setSummary i
      (if pteBegin = 0 ∧ pteEnd = 1023 then PAGE_TABLE_FULLY_ALLOCATED_CODE
        else if checkPageTableFullyAllocated t then PAGE_TABLE_FULLY_ALLOCATED_CODE
        else PAGE_TABLE_PARTLY_ALLOCATED_CODE)

/-- The sum of the last page's index is a 32-bit word.
mirrors page_allocator.cpp:284-378 -/
def allocatePagesStartingAtIndex (s : PageAllocator) (startingPageIndex numPages : Nat) :
    Option PageAllocator :=
  if numPages = 0 then some s
  else do
    let endingPageIndex := (startingPageIndex + numPages - 1) % 2 ^ 32
    let preFirstPageCode ← if startingPageIndex > 0 then s.codeAt (startingPageIndex - 1) else some 1
    let postLastPageCode ← if endingPageIndex < 1023 * 1024 - 1 then s.codeAt (endingPageIndex + 1) else some 1
    (List.range' (startingPageIndex / 1024) (endingPageIndex / 1024 + 1 - startingPageIndex / 1024)).foldlM
      (pagesRound (newPageCode preFirstPageCode postLastPageCode) startingPageIndex endingPageIndex) s

/-- The address that stands for failure. -/
def FAILURE : Nat := LAST_POSSIBLE_PDE_INDEX * 1024 * 0x1000

/-- mirrors page_allocator.cpp:154-282 -/
def allocateContiguousPages (s : PageAllocator) (behind : Nat → UInt32) (numPages : UInt32) :
    Option (Nat × PageAllocator) :=
  if numPages = 0 then some (FAILURE, s)
  else
    let i := search s behind numPages.toNat 1023 0
    if i ≥ 1023 then some (FAILURE, s)
    else
      let foundPageTableIndex := locate s numPages.toNat i
      (s.allocatePagesStartingAtIndex foundPageTableIndex numPages.toNat).map
        fun s => (foundPageTableIndex * 0x1000, s)

/-! ## Freeing -/

/-- The inner loop of `freeContiguousPages` over `js`: the table and the number
of entries cleared. mirrors page_allocator.cpp:402-409 -/
def clearLoop (pageCode' : UInt32) : List Nat → PageTable → PageTable × Nat
  | [], t => (t, 0)
  | j :: js, t =>
    if pageCode (t j) ≠ pageCode' then (t, 0)
    else
      let (t, n) := clearLoop pageCode' js (Function.update t j (clearCode (t j)))
      (t, n + 1)

/-- The outer loop, over `n` tables from table `i` on; `pteBegin` is where the
first of them starts. mirrors page_allocator.cpp:398-429 -/
def freeLoop (pageCode' : UInt32) : Nat → Nat → Nat → PageAllocator → PageAllocator
  | 0, _, _, s => s
  | n + 1, i, pteBegin, s =>
    let (t, cleared) := clearLoop pageCode' (List.range' pteBegin (1024 - pteBegin)) (s.pageTables i)
    let j := pteBegin + cleared
    let s := s.setTable i t
    let s :=
      if pteBegin = 0 ∧ j = 1024 then s.setSummary i PAGE_TABLE_FULLY_NOT_ALLOCATED_CODE
      else if pteBegin = j then s
      else if checkPageTableFullyNotAllocated t then s.setSummary i PAGE_TABLE_FULLY_NOT_ALLOCATED_CODE
      else s.setSummary i PAGE_TABLE_PARTLY_ALLOCATED_CODE
    if j ≠ 1024 then s else freeLoop pageCode' n (i + 1) 0 s

/-- mirrors page_allocator.cpp:380-430 -/
def freeContiguousPages (s : PageAllocator) (virtualMemoryPointer : Nat) : PageAllocator :=
  let virtualPageIndex := virtualMemoryPointer / 4096
  let firstPDEIndex := virtualPageIndex / 1024
  let firstPTEIndex := virtualPageIndex % 1024
  if firstPDEIndex ≥ 1023 then s
  else
    let code := pageCode (s.pageTables firstPDEIndex firstPTEIndex)
    freeLoop code (1023 - firstPDEIndex) firstPDEIndex firstPTEIndex s

end PageAllocator

end CpuScheduler.L1
