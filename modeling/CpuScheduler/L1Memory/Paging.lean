import Mathlib

/-!
# Paging structures

Page directories and page tables as `paging.cpp` writes and reads them, and
the kernel's own structures as the running kernel sees them through the
window at `0xFFC00000` (`current_paging_structure.cpp`).

A table is its 1024 words. An entry is a physical page address with three
flags in its low bits: bit 0 present, bit 1 writable, bit 2 user. The rest
of the low bits belong to the page allocator.

`getPTE` and `getPDE` return their local variable without having set it if
the index is 1023 or more. That value is the argument `uninit`.
-/
namespace CpuScheduler.L1

structure PDE where
  pageTablePhysicalAddr : UInt32
  kernelPrivilegeOnly : Bool
  pdeIsValid : Bool
  deriving DecidableEq, Repr

structure PTE where
  pagePhysicalAddr : UInt32
  kernelPrivilegeOnly : Bool
  pteIsValid : Bool
  deriving DecidableEq, Repr

/-! ## Entries -/

/-- The flags of an entry; every entry is writable. -/
def flagBits (kernelPrivilegeOnly isValid : Bool) : UInt32 :=
  ((!kernelPrivilegeOnly).toUInt32 <<< 2) + ((1 : UInt32) <<< 1) + isValid.toUInt32

/-- The word of an entry. -/
def entryBits (addr : UInt32) (kernelPrivilegeOnly isValid : Bool) : UInt32 :=
  addr ||| flagBits kernelPrivilegeOnly isValid

/-- The physical address in an entry. -/
def frame (bits : UInt32) : UInt32 := bits &&& 0xFFFFF000

def isPresent (bits : UInt32) : Bool := bits &&& 0x1 != 0

def isUser (bits : UInt32) : Bool := bits &&& 0x4 != 0

/-- An address of a page. -/
def Aligned (addr : UInt32) : Prop := addr &&& 0xFFF = 0

instance (addr : UInt32) : Decidable (Aligned addr) := inferInstanceAs (Decidable (_ = _))

theorem aligned_iff {addr : UInt32} : Aligned addr ↔ addr.toNat % 4096 = 0 := by
  unfold Aligned
  rw [← UInt32.toNat_inj, UInt32.toNat_and, show (0xFFF : UInt32).toNat = 2 ^ 12 - 1 from rfl,
    Nat.and_two_pow_sub_one_eq_mod]
  rfl

theorem and_or_right (a b m : UInt32) : (a ||| b) &&& m = (a &&& m) ||| (b &&& m) := by
  apply UInt32.toBitVec_inj.mp
  exact BitVec.and_or_distrib_right

/-- An aligned address has none of the bits below 4096. -/
theorem Aligned.and_eq_zero {addr : UInt32} (h : Aligned addr) {m : UInt32} (hm : 0xFFF &&& m = m) :
    addr &&& m = 0 := by
  rw [← hm, ← UInt32.and_assoc, h]
  exact UInt32.zero_and

theorem Aligned.frame_eq {addr : UInt32} (h : Aligned addr) : frame addr = addr := by
  have hsplit : addr = (addr &&& 0xFFFFF000) ||| (addr &&& 0xFFF) := by
    rw [UInt32.and_comm addr, UInt32.and_comm addr, ← and_or_right,
      show (0xFFFFF000 ||| 0xFFF : UInt32) = -1 from rfl, UInt32.and_comm, UInt32.and_neg_one]
  unfold frame
  unfold Aligned at h
  rw [h, UInt32.or_zero] at hsplit
  exact hsplit.symm

theorem aligned_frame (bits : UInt32) : Aligned (frame bits) := by
  unfold Aligned frame
  rw [UInt32.and_assoc, show (0xFFFFF000 &&& 0xFFF : UInt32) = 0 from rfl, UInt32.and_zero]

theorem flagBits_and (kernelPrivilegeOnly isValid : Bool) :
    flagBits kernelPrivilegeOnly isValid &&& 0xFFFFF000 = 0 ∧
    isPresent (flagBits kernelPrivilegeOnly isValid) = isValid ∧
    isUser (flagBits kernelPrivilegeOnly isValid) = !kernelPrivilegeOnly := by
  cases kernelPrivilegeOnly <;> cases isValid <;> decide

section EntryBits
variable {addr : UInt32} (h : Aligned addr) (kernelPrivilegeOnly isValid : Bool)
include h

theorem frame_entryBits : frame (entryBits addr kernelPrivilegeOnly isValid) = addr := by
  have hframe := h.frame_eq
  unfold frame at hframe
  unfold frame entryBits
  rw [and_or_right, hframe, (flagBits_and _ _).1, UInt32.or_zero]

theorem isPresent_entryBits : isPresent (entryBits addr kernelPrivilegeOnly isValid) = isValid := by
  unfold isPresent entryBits
  rw [and_or_right, h.and_eq_zero (by decide), UInt32.zero_or]
  exact (flagBits_and kernelPrivilegeOnly isValid).2.1

theorem isUser_entryBits :
    isUser (entryBits addr kernelPrivilegeOnly isValid) = !kernelPrivilegeOnly := by
  unfold isUser entryBits
  rw [and_or_right, h.and_eq_zero (by decide), UInt32.zero_or]
  exact (flagBits_and kernelPrivilegeOnly isValid).2.2

end EntryBits

/-! ## Page tables -/

/-- `pageTableEntries` -/
abbrev PageTable := Nat → UInt32

namespace PageTable

/-- mirrors paging.cpp:70-74 -/
def new : PageTable := fun _ => 0x2

/-- mirrors paging.cpp:76-86 -/
def changePTE (t : PageTable) (pteIndex : Nat) (newPTE : PTE) : PageTable :=
  if pteIndex ≥ 1024 then t
  else if ¬ Aligned newPTE.pagePhysicalAddr then t
  else Function.update t pteIndex
    (entryBits newPTE.pagePhysicalAddr newPTE.kernelPrivilegeOnly newPTE.pteIsValid)

/-- mirrors paging.cpp:88-100 -/
def getPTE (uninit : PTE) (t : PageTable) (pteIndex : Nat) : PTE :=
  if pteIndex ≥ 1023 then uninit
  else ⟨frame (t pteIndex), !isUser (t pteIndex), isPresent (t pteIndex)⟩

theorem changePTE_of_aligned {t : PageTable} {pteIndex : Nat} {pte : PTE} (hi : pteIndex < 1024)
    (ha : Aligned pte.pagePhysicalAddr) :
    t.changePTE pteIndex pte = Function.update t pteIndex
      (entryBits pte.pagePhysicalAddr pte.kernelPrivilegeOnly pte.pteIsValid) := by
  unfold changePTE
  rw [if_neg (by omega), if_neg (not_not.mpr ha)]

theorem changePTE_of_ne {t : PageTable} {pteIndex j : Nat} {pte : PTE} (hj : j ≠ pteIndex) :
    t.changePTE pteIndex pte j = t j := by
  unfold changePTE
  split
  · rfl
  split
  · rfl
  exact Function.update_of_ne hj _ _

/-- A loop `changePTE(i, f(i))`. -/
def fill (f : Nat → PTE) : List Nat → PageTable → PageTable
  | [], t => t
  | i :: is, t => fill f is (t.changePTE i (f i))

/-- What entry `i` holds after the loop, if the loop can write it. -/
theorem fill_apply {f : Nat → PTE} {i : Nat} (hi : i < 1024) (ha : Aligned (f i).pagePhysicalAddr)
    (is : List Nat) (t : PageTable) :
    fill f is t i = if i ∈ is then
      entryBits (f i).pagePhysicalAddr (f i).kernelPrivilegeOnly (f i).pteIsValid else t i := by
  induction is generalizing t with
  | nil => rfl
  | cons j is ih =>
    rw [fill, ih]
    by_cases hj : i = j
    · subst hj
      rw [changePTE_of_aligned hi ha, Function.update_self, if_pos List.mem_cons_self, ite_self]
    · rw [changePTE_of_ne hj]
      simp only [List.mem_cons, hj, false_or]

end PageTable

/-! ## Page directories -/

structure PageDirectory where
  pageDirectoryEntries : Nat → UInt32
  helperTableEntries : Nat → UInt32

namespace PageDirectory

/-- The constructor; `physicalPageDirectoryAddr` is what
`translateVirtualToPhysicalAddress` gave for the directory.
mirrors paging.cpp:27-37 -/
def new (physicalPageDirectoryAddr : UInt32) : PageDirectory :=
  let entries : Nat → UInt32 := fun i =>
    if i < 1023 then 0x2 else (physicalPageDirectoryAddr + 0x1000) ||| 3
  ⟨entries, entries⟩

/-- mirrors paging.cpp:39-48 -/
def changePDE (d : PageDirectory) (pdeIndex : Nat) (newPDE : PDE) : PageDirectory :=
  if pdeIndex ≥ 1023 then d
  else if ¬ Aligned newPDE.pageTablePhysicalAddr then d
  else
    let newPdeBits :=
      entryBits newPDE.pageTablePhysicalAddr newPDE.kernelPrivilegeOnly newPDE.pdeIsValid
    ⟨Function.update d.pageDirectoryEntries pdeIndex newPdeBits,
      Function.update d.helperTableEntries pdeIndex newPdeBits⟩

theorem changePDE_of_aligned {d : PageDirectory} {pdeIndex : Nat} {pde : PDE} (hi : pdeIndex < 1023)
    (ha : Aligned pde.pageTablePhysicalAddr) :
    (d.changePDE pdeIndex pde).pageDirectoryEntries = Function.update d.pageDirectoryEntries pdeIndex
      (entryBits pde.pageTablePhysicalAddr pde.kernelPrivilegeOnly pde.pdeIsValid) := by
  unfold changePDE
  rw [if_neg (by omega), if_neg (not_not.mpr ha)]

theorem changePDE_of_ne {d : PageDirectory} {pdeIndex j : Nat} {pde : PDE} (hj : j ≠ pdeIndex) :
    (d.changePDE pdeIndex pde).pageDirectoryEntries j = d.pageDirectoryEntries j := by
  unfold changePDE
  split
  · rfl
  split
  · rfl
  exact Function.update_of_ne hj _ _

/-- An entry at 1023 or above is never changed. -/
theorem changePDE_of_ge {d : PageDirectory} {pdeIndex : Nat} {pde : PDE} (hi : 1023 ≤ pdeIndex) :
    d.changePDE pdeIndex pde = d := by
  unfold changePDE
  rw [if_pos hi]

/-- A loop `changePDE(i, f(i))` that leaves out some indices. -/
def fill (f : Nat → Option PDE) : List Nat → PageDirectory → PageDirectory
  | [], d => d
  | i :: is, d =>
    match f i with
    | none => fill f is d
    | some pde => fill f is (d.changePDE i pde)

theorem fill_apply {f : Nat → Option PDE} {i : Nat} {pde : PDE} (hi : i < 1023) (hf : f i = some pde)
    (ha : Aligned pde.pageTablePhysicalAddr) (is : List Nat) (d : PageDirectory) :
    (fill f is d).pageDirectoryEntries i = if i ∈ is then
      entryBits pde.pageTablePhysicalAddr pde.kernelPrivilegeOnly pde.pdeIsValid
      else d.pageDirectoryEntries i := by
  induction is generalizing d with
  | nil => rfl
  | cons j is ih =>
    by_cases hj : i = j
    · subst hj
      simp only [fill, hf]
      rw [ih, changePDE_of_aligned hi ha, Function.update_self, if_pos List.mem_cons_self, ite_self]
    · simp only [List.mem_cons, hj, false_or]
      unfold fill
      split
      · exact ih d
      · rw [ih, changePDE_of_ne hj]

/-- The loop leaves the last entry alone. -/
theorem fill_last {f : Nat → Option PDE} (is : List Nat) (d : PageDirectory) :
    (fill f is d).pageDirectoryEntries 1023 = d.pageDirectoryEntries 1023 := by
  induction is generalizing d with
  | nil => rfl
  | cons j is ih =>
    unfold fill
    split
    · exact ih d
    · rw [ih]
      by_cases hj : 1023 = j
      · subst hj
        rw [changePDE_of_ge (by omega)]
      · exact changePDE_of_ne hj

/-- Directory and helper table are always changed together. -/
theorem fill_helper {f : Nat → Option PDE} (is : List Nat) (d : PageDirectory)
    (hd : d.helperTableEntries = d.pageDirectoryEntries) :
    (fill f is d).helperTableEntries = (fill f is d).pageDirectoryEntries := by
  induction is generalizing d with
  | nil => exact hd
  | cons j is ih =>
    unfold fill
    split
    · exact ih d hd
    · refine ih _ ?_
      unfold changePDE
      split
      · exact hd
      split
      · exact hd
      · simp only [hd]

end PageDirectory

-- the loops have a thousand steps: no proof should run them
attribute [irreducible] PageTable.fill PageDirectory.fill

/-! ## The kernel's structures -/

/-- The kernel's page directory and the page tables it points to, with paging
switched on and every page below `0xFFC00000` present. The helper table is
what the window at `0xFFFFF000` shows; the page allocator keeps its marks in
the directory only, so the two agree up to these. -/
structure Kernel where
  pageDirectory : PageDirectory
  pageTables : Nat → PageTable
  cr0 : UInt32
  enabled : cr0 &&& 0x80000000 ≠ 0
  present : ∀ page, page < 1023 * 1024 →
    isPresent (pageDirectory.pageDirectoryEntries (page / 1024)) = true ∧
      isPresent (pageTables (page / 1024) (page % 1024)) = true
  agree : ∀ i, i < 1023 →
    frame (pageDirectory.helperTableEntries i) = frame (pageDirectory.pageDirectoryEntries i) ∧
    isUser (pageDirectory.helperTableEntries i) = isUser (pageDirectory.pageDirectoryEntries i) ∧
    isPresent (pageDirectory.helperTableEntries i) =
      isPresent (pageDirectory.pageDirectoryEntries i)

namespace Kernel

variable (k : Kernel)

/-- mirrors current_paging_structure.cpp:26-39 -/
def getPDE (uninit : PTE) (pdeIndex : Nat) : PDE :=
  let helperPTE := PageTable.getPTE uninit k.pageDirectory.helperTableEntries pdeIndex
  ⟨helperPTE.pagePhysicalAddr, helperPTE.kernelPrivilegeOnly, helperPTE.pteIsValid⟩

/-- mirrors current_paging_structure.cpp:41-50 -/
def getPTE (uninit : PTE) (pdeIndex pteIndex : Nat) : PTE :=
  if pteIndex ≥ 1023 then uninit
  else PageTable.getPTE uninit (k.pageTables pdeIndex) pteIndex

/-- mirrors paging.cpp:5-25 -/
def translateVirtualToPhysicalAddress (uninit : PTE) (virtualAddress : UInt32) : UInt32 :=
  if k.cr0 &&& 0x80000000 = 0 then virtualAddress
  else
    let pageDirectoryIndex := (virtualAddress &&& 0xFFC00000) >>> 22
    let pageTableIndex := (virtualAddress &&& 0x003FF000) >>> 12
    let pageOffset := virtualAddress &&& 0x00000FFF
    (PageTable.getPTE uninit (k.pageTables pageDirectoryIndex.toNat) pageTableIndex.toNat).pagePhysicalAddr
      + pageOffset

/-- The physical page of a page, as the hardware finds it. -/
def physPage (page : Nat) : UInt32 := frame (k.pageTables (page / 1024) (page % 1024))

/-- Away from the last entry of a table `getPTE` finds the page. -/
theorem getPTE_addr (uninit : PTE) {page : Nat} (h : page % 1024 ≠ 1023) :
    (k.getPTE uninit (page / 1024) (page % 1024)).pagePhysicalAddr = k.physPage page := by
  unfold getPTE PageTable.getPTE
  rw [if_neg (by omega), if_neg (by omega)]
  rfl

/-- At the last entry it returns what was there. -/
theorem getPTE_last (uninit : PTE) {page : Nat} (h : page % 1024 = 1023) :
    k.getPTE uninit (page / 1024) (page % 1024) = uninit := by
  unfold getPTE
  rw [if_pos (by omega)]

/-- The indices that `translateVirtualToPhysicalAddress` computes. -/
theorem toNat_pageDirectoryIndex (a : UInt32) :
    ((a &&& 0xFFC00000) >>> 22).toNat = a.toNat / 4096 / 1024 := by
  have ha := a.toNat_lt
  have hand : (a.toNat >>> 22) &&& 1023 = (a.toNat >>> 22) % 2 ^ 10 :=
    Nat.and_two_pow_sub_one_eq_mod _ 10
  rw [UInt32.toNat_shiftRight, UInt32.toNat_and]
  simp only [UInt32.reduceToNat, Nat.reduceMod, Nat.shiftRight_and_distrib, Nat.reduceShiftRight]
  rw [hand, Nat.shiftRight_eq_div_pow]
  omega

theorem toNat_pageTableIndex (a : UInt32) :
    ((a &&& 0x003FF000) >>> 12).toNat = a.toNat / 4096 % 1024 := by
  have hand : (a.toNat >>> 12) &&& 1023 = (a.toNat >>> 12) % 2 ^ 10 :=
    Nat.and_two_pow_sub_one_eq_mod _ 10
  rw [UInt32.toNat_shiftRight, UInt32.toNat_and]
  simp only [UInt32.reduceToNat, Nat.reduceMod, Nat.shiftRight_and_distrib, Nat.reduceShiftRight]
  rw [hand, Nat.shiftRight_eq_div_pow]
  rfl

/-- The address of a page is translated like a page is looked up. -/
theorem translate_page (uninit : PTE) {a : UInt32} (ha : Aligned a) :
    k.translateVirtualToPhysicalAddress uninit a =
      (k.getPTE uninit (a.toNat / 4096 / 1024) (a.toNat / 4096 % 1024)).pagePhysicalAddr := by
  unfold translateVirtualToPhysicalAddress
  rw [if_neg k.enabled]
  dsimp only
  rw [toNat_pageDirectoryIndex, toNat_pageTableIndex, show a &&& 0x00000FFF = 0 from ha,
    UInt32.add_zero]
  unfold getPTE
  split
  · unfold PageTable.getPTE
    rw [if_pos ‹_›]
  · rfl

end Kernel

/-! ## PagingStructures -/

namespace PagingStructures

/-- mirrors paging_structures.cpp:20-25 -/
def pageTable (i : Nat) : PageTable :=
  PageTable.fill (fun j => ⟨UInt32.ofNat (i * (0x1000 * 1024) + j * 0x1000), true, true⟩)
    (List.range 1024) PageTable.new

/-- The entry for the `i`-th page table of the object at `this`. -/
def newPDE (this : UInt32) (i : Nat) : PDE :=
  ⟨this + 0x2000 + UInt32.ofNat (i * 0x1000), true, true⟩

/-- The constructor of the object at `this`: `pageDirectory` at its begin, the
page tables behind it. It runs before paging is switched on, so addresses are
physical. mirrors paging_structures.cpp:5-31 -/
def pageDirectory (this : UInt32) : PageDirectory :=
  PageDirectory.fill (fun i => some (newPDE this i)) (List.range 1023) (PageDirectory.new this)

theorem pageTable_apply {i j : Nat} (hj : j < 1024) :
    pageTable i j = entryBits (UInt32.ofNat (i * (0x1000 * 1024) + j * 0x1000)) true true := by
  unfold pageTable
  rw [PageTable.fill_apply hj, if_pos (List.mem_range.mpr hj)]
  rw [aligned_iff, UInt32.toNat_ofNat']
  omega

theorem aligned_newPDE {this : UInt32} (h : Aligned this) (i : Nat) :
    Aligned (newPDE this i).pageTablePhysicalAddr := by
  unfold newPDE
  rw [aligned_iff] at h ⊢
  rw [UInt32.toNat_add, UInt32.toNat_add, UInt32.toNat_ofNat', show (0x2000 : UInt32).toNat = 0x2000 from rfl]
  omega

theorem pageDirectory_eq (this : UInt32) : pageDirectory this =
    PageDirectory.fill (fun i => some (newPDE this i)) (List.range 1023) (PageDirectory.new this) :=
  rfl

theorem pageDirectory_apply {this : UInt32} (h : Aligned this) {i : Nat} (hi : i < 1023) :
    (pageDirectory this).pageDirectoryEntries i =
      entryBits (newPDE this i).pageTablePhysicalAddr true true := by
  have hfill := PageDirectory.fill_apply (f := fun i => some (newPDE this i)) hi rfl
    (aligned_newPDE h i) (List.range 1023) (PageDirectory.new this)
  rw [pageDirectory_eq, hfill, if_pos (List.mem_range.mpr hi)]
  rfl

theorem pageDirectory_helper (this : UInt32) :
    (pageDirectory this).helperTableEntries = (pageDirectory this).pageDirectoryEntries := by
  rw [pageDirectory_eq]
  apply PageDirectory.fill_helper
  rfl

/-- The structures that the kernel runs with. -/
def kernel (this : UInt32) (h : Aligned this) (cr0 : UInt32) (enabled : cr0 &&& 0x80000000 ≠ 0) :
    Kernel where
  pageDirectory := pageDirectory this
  pageTables := pageTable
  cr0 := cr0
  enabled := enabled
  present := by
    intro page hpage
    rw [pageDirectory_apply h (by omega), pageTable_apply (by omega)]
    refine ⟨isPresent_entryBits (aligned_newPDE h _) _ _, isPresent_entryBits ?_ _ _⟩
    rw [aligned_iff, UInt32.toNat_ofNat']
    omega
  agree := by
    intro i _
    rw [pageDirectory_helper]
    exact ⟨rfl, rfl, rfl⟩

/-- Every page below `0xFFC00000` is mapped to itself. -/
theorem kernel_physPage {this cr0 : UInt32} (h : Aligned this) (enabled : cr0 &&& 0x80000000 ≠ 0)
    (page : Nat) : (kernel this h cr0 enabled).physPage page = UInt32.ofNat (page * 0x1000) := by
  have haddr : page / 1024 * (0x1000 * 1024) + page % 1024 * 0x1000 = page * 0x1000 := by omega
  simp only [Kernel.physPage, kernel]
  rw [pageTable_apply (by omega), haddr, frame_entryBits]
  rw [aligned_iff, UInt32.toNat_ofNat']
  omega

end PagingStructures

end CpuScheduler.L1
