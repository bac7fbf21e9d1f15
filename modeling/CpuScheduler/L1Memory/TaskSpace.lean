import CpuScheduler.L1Memory.Paging

/-!
# The address space of a user task

The `UserTask` constructor (cpu_core.cpp) builds a page directory and two
page tables at the begin of the task's 8MB. It copies the kernel's
directory, and maps the task's 2048 pages to the physical pages that the
kernel has for them, which it asks of `getPTE`. Every page whose entry is the
last of a kernel page table comes out of `getPTE` uninitialised, and a region
of 2048 pages always has two of them (`mapsExactly_never`). `pageMapped_iff`
says that all the others are mapped as they should be.
-/
namespace CpuScheduler.L1

/-- What the calls return that do not set their result: `getPDE`, `getPTE` for
page `i` of the region, and the translation of the address of page `i`. -/
structure Garbage where
  pde : Nat → PTE
  page : Nat → PTE
  addr : Nat → PTE

/-- The objects that the constructor builds. -/
structure TaskPaging where
  pTaskPageDirectory : PageDirectory
  taskPageTable1 : PageTable
  taskPageTable2 : PageTable

section Constructor
variable (k : Kernel) (g : Garbage)

/-- The entry that is copied from the kernel's directory, if it is valid. -/
def copiedPDE (i : Nat) : Option PDE :=
  let pde := k.getPDE (g.pde i) i
  if pde.pdeIsValid then some ⟨pde.pageTablePhysicalAddr, pde.kernelPrivilegeOnly, true⟩ else none

/-- The entry for page `i` of the region. -/
def taskPTE (taskRegionPageIndex : Nat) (kernelPrivilegeOnly : Bool) (i : Nat) : PTE :=
  let pte := k.getPTE (g.page i) ((taskRegionPageIndex + i) / 1024) ((taskRegionPageIndex + i) % 1024)
  ⟨pte.pagePhysicalAddr, kernelPrivilegeOnly, true⟩

/-- The four paging pages and the kernel stack are for the kernel only. -/
def newTaskPageTable1 (taskRegionPageIndex : Nat) : PageTable :=
  let t := PageTable.fill (taskPTE k g taskRegionPageIndex true) (List.range' 0 4) PageTable.new
  let t := PageTable.fill (taskPTE k g taskRegionPageIndex true) (List.range' 4 16) t
  PageTable.fill (taskPTE k g taskRegionPageIndex false) (List.range' 20 1004) t

def newTaskPageTable2 (taskRegionPageIndex : Nat) : PageTable :=
  PageTable.fill (fun i => taskPTE k g taskRegionPageIndex false (i + 1024)) (List.range' 0 1024)
    PageTable.new

/-- The directory: a copy of the kernel's, then the two tables. -/
def newTaskPageDirectory (pTask8MBRegion taskSpaceBeginVirtualAddr : UInt32) : PageDirectory :=
  let taskFirstPdeIndex := taskSpaceBeginVirtualAddr.toNat / (1024 * 4096)
  let taskSecondPdeIndex := taskFirstPdeIndex + 1
  let d := PageDirectory.new (k.translateVirtualToPhysicalAddress (g.addr 0) pTask8MBRegion)
  let d := PageDirectory.fill (copiedPDE k g) (List.range 1023) d
  let d := d.changePDE taskFirstPdeIndex
    ⟨k.translateVirtualToPhysicalAddress (g.addr 2) (pTask8MBRegion + 0x2000), false, true⟩
  d.changePDE taskSecondPdeIndex
    ⟨k.translateVirtualToPhysicalAddress (g.addr 3) (pTask8MBRegion + 0x3000), false, true⟩

/-- mirrors cpu_core.cpp:461-523 -/
def newUserTask (pTask8MBRegion taskSpaceBeginVirtualAddr : UInt32) : TaskPaging where
  pTaskPageDirectory := newTaskPageDirectory k g pTask8MBRegion taskSpaceBeginVirtualAddr
  taskPageTable1 := newTaskPageTable1 k g (pTask8MBRegion.toNat / 4096)
  taskPageTable2 := newTaskPageTable2 k g (pTask8MBRegion.toNat / 4096)

variable (pTask8MBRegion taskSpaceBeginVirtualAddr : UInt32)

theorem newUserTask_directory :
    (newUserTask k g pTask8MBRegion taskSpaceBeginVirtualAddr).pTaskPageDirectory =
      newTaskPageDirectory k g pTask8MBRegion taskSpaceBeginVirtualAddr := rfl

theorem newUserTask_table1 :
    (newUserTask k g pTask8MBRegion taskSpaceBeginVirtualAddr).taskPageTable1 =
      newTaskPageTable1 k g (pTask8MBRegion.toNat / 4096) := rfl

theorem newUserTask_table2 :
    (newUserTask k g pTask8MBRegion taskSpaceBeginVirtualAddr).taskPageTable2 =
      newTaskPageTable2 k g (pTask8MBRegion.toNat / 4096) := rfl

end Constructor

/-! ## The mapping -/

/-- How the processor looks up a page: the physical page and whether user code
may use it. -/
def walk (memory : UInt32 → PageTable) (directory : Nat → UInt32) (page : Nat) : Option (UInt32 × Bool) :=
  if page < 1024 * 1024 then
    let pde := directory (page / 1024)
    if isPresent pde then
      let pte := memory (frame pde) (page % 1024)
      if isPresent pte then some (frame pte, isUser pde && isUser pte) else none
    else none
  else none

/-- Physical memory, as far as it holds page tables: the task's two tables are
where the kernel has pages 2 and 3 of the region. -/
def TaskPaging.memory (p : TaskPaging) (k : Kernel) (taskRegionPageIndex : Nat)
    (other : UInt32 → PageTable) : UInt32 → PageTable := fun a =>
  if a = k.physPage (taskRegionPageIndex + 3) then p.taskPageTable2
  else if a = k.physPage (taskRegionPageIndex + 2) then p.taskPageTable1
  else other a

/-- The page directory maps page `i` of the task to the kernel's page. -/
def PageMapped (k : Kernel) (g : Garbage) (other : UInt32 → PageTable)
    (pTask8MBRegion taskSpaceBeginVirtualAddr : UInt32) (i : Nat) : Prop :=
  walk ((newUserTask k g pTask8MBRegion taskSpaceBeginVirtualAddr).memory k
        (pTask8MBRegion.toNat / 4096) other)
      (newUserTask k g pTask8MBRegion taskSpaceBeginVirtualAddr).pTaskPageDirectory.pageDirectoryEntries
      (taskSpaceBeginVirtualAddr.toNat / 4096 + i) =
    some (k.physPage (pTask8MBRegion.toNat / 4096 + i), decide (20 ≤ i))

/-- Two entries that say the same. -/
def SameEntry (bits1 bits2 : UInt32) : Prop :=
  frame bits1 = frame bits2 ∧ isUser bits1 = isUser bits2 ∧ isPresent bits1 = isPresent bits2

/-- Entry `i` of the directory is the kernel's. -/
def EntryCopied (k : Kernel) (g : Garbage) (pTask8MBRegion taskSpaceBeginVirtualAddr : UInt32)
    (i : Nat) : Prop :=
  SameEntry
    ((newUserTask k g pTask8MBRegion taskSpaceBeginVirtualAddr).pTaskPageDirectory.pageDirectoryEntries i)
    (k.pageDirectory.pageDirectoryEntries i)

/-- The task's 2048 pages are mapped, and nothing else was changed. -/
def MapsExactly (k : Kernel) (g : Garbage) (other : UInt32 → PageTable)
    (pTask8MBRegion taskSpaceBeginVirtualAddr : UInt32) : Prop :=
  (∀ i, i < 2048 → PageMapped k g other pTask8MBRegion taskSpaceBeginVirtualAddr i) ∧
  (∀ i, i < 1023 → i ≠ taskSpaceBeginVirtualAddr.toNat / (1024 * 4096) →
    i ≠ taskSpaceBeginVirtualAddr.toNat / (1024 * 4096) + 1 →
    EntryCopied k g pTask8MBRegion taskSpaceBeginVirtualAddr i)

/-! ## What the constructor writes -/

section Written
variable (k : Kernel) (g : Garbage)

theorem taskPTE_addr {r i : Nat} (kernelPrivilegeOnly : Bool) (h : (r + i) % 1024 ≠ 1023) :
    (taskPTE k g r kernelPrivilegeOnly i).pagePhysicalAddr = k.physPage (r + i) :=
  k.getPTE_addr (g.page i) h

theorem taskPTE_last {r i : Nat} (kernelPrivilegeOnly : Bool) (h : (r + i) % 1024 = 1023) :
    (taskPTE k g r kernelPrivilegeOnly i).pagePhysicalAddr = (g.page i).pagePhysicalAddr := by
  unfold taskPTE
  rw [k.getPTE_last (g.page i) h]

theorem newTaskPageTable1_apply {r i : Nat} (hi : i < 1024)
    (ha : Aligned (taskPTE k g r true i).pagePhysicalAddr) :
    newTaskPageTable1 k g r i =
      entryBits (taskPTE k g r true i).pagePhysicalAddr (decide (i < 20)) true := by
  have hlast := PageTable.fill_apply (f := taskPTE k g r false) hi ha (List.range' 20 1004)
  have hkernel := PageTable.fill_apply (f := taskPTE k g r true) hi ha
  unfold newTaskPageTable1
  rw [hlast, hkernel, hkernel]
  simp only [List.mem_range'_1]
  by_cases h20 : i < 20
  · rw [if_neg (by omega), decide_eq_true h20]
    by_cases h4 : i < 4
    · rw [if_neg (by omega), if_pos (by omega)]
      rfl
    · rw [if_pos (by omega)]
      rfl
  · rw [if_pos (by omega), decide_eq_false h20]
    rfl

theorem newTaskPageTable2_apply {r i : Nat} (hi : i < 1024)
    (ha : Aligned (taskPTE k g r false (i + 1024)).pagePhysicalAddr) :
    newTaskPageTable2 k g r i =
      entryBits (taskPTE k g r false (i + 1024)).pagePhysicalAddr false true := by
  have hfill := PageTable.fill_apply (f := fun i => taskPTE k g r false (i + 1024)) hi ha
    (List.range' 0 1024) PageTable.new
  unfold newTaskPageTable2
  rw [hfill, if_pos (List.mem_range'_1.mpr (by omega))]
  rfl

variable {pTask8MBRegion taskSpaceBeginVirtualAddr : UInt32}

/-- The physical address of page `j` of the region. -/
theorem translate_region (uninit : PTE) (hR : Aligned pTask8MBRegion) (offset : UInt32) (j : Nat)
    (hoffset : offset.toNat = 4096 * j) (hlt : pTask8MBRegion.toNat + 4096 * j < 2 ^ 32) :
    k.translateVirtualToPhysicalAddress uninit (pTask8MBRegion + offset) =
      (k.getPTE uninit ((pTask8MBRegion.toNat / 4096 + j) / 1024)
        ((pTask8MBRegion.toNat / 4096 + j) % 1024)).pagePhysicalAddr := by
  have hsum : (pTask8MBRegion + offset).toNat = pTask8MBRegion.toNat + 4096 * j := by
    rw [UInt32.toNat_add, hoffset, Nat.mod_eq_of_lt hlt]
  have hpage : (pTask8MBRegion + offset).toNat / 4096 = pTask8MBRegion.toNat / 4096 + j := by
    rw [hsum]
    omega
  have haligned : Aligned (pTask8MBRegion + offset) := by
    rw [aligned_iff] at hR ⊢
    omega
  rw [k.translate_page uninit haligned, hpage]

theorem newTaskPageDirectory_second
    (hb : taskSpaceBeginVirtualAddr.toNat / (1024 * 4096) + 1 < 1023)
    (ha : Aligned (k.translateVirtualToPhysicalAddress (g.addr 3) (pTask8MBRegion + 0x3000))) :
    (newTaskPageDirectory k g pTask8MBRegion taskSpaceBeginVirtualAddr).pageDirectoryEntries
        (taskSpaceBeginVirtualAddr.toNat / (1024 * 4096) + 1) =
      entryBits (k.translateVirtualToPhysicalAddress (g.addr 3) (pTask8MBRegion + 0x3000)) false true := by
  rw [newTaskPageDirectory, PageDirectory.changePDE_of_aligned hb ha, Function.update_self]

theorem newTaskPageDirectory_first
    (hb : taskSpaceBeginVirtualAddr.toNat / (1024 * 4096) < 1023)
    (ha : Aligned (k.translateVirtualToPhysicalAddress (g.addr 2) (pTask8MBRegion + 0x2000))) :
    (newTaskPageDirectory k g pTask8MBRegion taskSpaceBeginVirtualAddr).pageDirectoryEntries
        (taskSpaceBeginVirtualAddr.toNat / (1024 * 4096)) =
      entryBits (k.translateVirtualToPhysicalAddress (g.addr 2) (pTask8MBRegion + 0x2000)) false true := by
  rw [newTaskPageDirectory, PageDirectory.changePDE_of_ne (by omega),
    PageDirectory.changePDE_of_aligned hb ha, Function.update_self]

theorem newTaskPageDirectory_other {i : Nat}
    (hi1 : i ≠ taskSpaceBeginVirtualAddr.toNat / (1024 * 4096))
    (hi2 : i ≠ taskSpaceBeginVirtualAddr.toNat / (1024 * 4096) + 1) :
    (newTaskPageDirectory k g pTask8MBRegion taskSpaceBeginVirtualAddr).pageDirectoryEntries i =
      (PageDirectory.fill (copiedPDE k g) (List.range 1023) (PageDirectory.new
        (k.translateVirtualToPhysicalAddress (g.addr 0) pTask8MBRegion))).pageDirectoryEntries i := by
  rw [newTaskPageDirectory, PageDirectory.changePDE_of_ne hi2, PageDirectory.changePDE_of_ne hi1]

end Written

/-! ## Looking up a page of the task -/

/-- A lookup through two entries as `changePDE` and `changePTE` write them. -/
theorem walk_eq {memory : UInt32 → PageTable} {directory : Nat → UInt32} {page : Nat}
    (table : UInt32) {addr : UInt32} (kernelPrivilegeOnly : Bool) (hpage : page < 1024 * 1024)
    (hpde : directory (page / 1024) = entryBits table false true) (ht : Aligned table)
    (hpte : memory table (page % 1024) = entryBits addr kernelPrivilegeOnly true) (ha : Aligned addr) :
    walk memory directory page = some (addr, !kernelPrivilegeOnly) := by
  unfold walk
  rw [if_pos hpage]
  dsimp only
  rw [hpde, isPresent_entryBits ht, if_pos rfl, frame_entryBits ht, hpte, isPresent_entryBits ha,
    if_pos rfl, frame_entryBits ha, isUser_entryBits ht, isUser_entryBits ha]
  rfl

section Lookup
variable (k : Kernel) (g : Garbage) (other : UInt32 → PageTable)
  {pTask8MBRegion taskSpaceBeginVirtualAddr : UInt32} {i : Nat}

/-- The physical address of the table at page `j`, off the last entry of a
kernel table. -/
theorem translate_table (uninit : PTE) (hR : Aligned pTask8MBRegion)
    (hfit : pTask8MBRegion.toNat / 4096 + 2048 ≤ 1023 * 1024) (offset : UInt32) (j : Nat)
    (hoffset : offset.toNat = 4096 * j) (hj : j < 2048)
    (h : (pTask8MBRegion.toNat / 4096 + j) % 1024 ≠ 1023) :
    k.translateVirtualToPhysicalAddress uninit (pTask8MBRegion + offset) =
      k.physPage (pTask8MBRegion.toNat / 4096 + j) := by
  rw [translate_region k uninit hR offset j hoffset (by omega), k.getPTE_addr uninit h]

/-- A page of the second 4MB. -/
theorem walk_second (hR : Aligned pTask8MBRegion)
    (hfit : pTask8MBRegion.toNat / 4096 + 2048 ≤ 1023 * 1024)
    (hbase : taskSpaceBeginVirtualAddr.toNat % (1024 * 4096) = 0)
    (hb : taskSpaceBeginVirtualAddr.toNat / (1024 * 4096) + 1 < 1023)
    (h3 : (pTask8MBRegion.toNat / 4096 + 3) % 1024 ≠ 1023) (hi : i < 1024)
    (ha : Aligned (taskPTE k g (pTask8MBRegion.toNat / 4096) false (i + 1024)).pagePhysicalAddr) :
    walk ((newUserTask k g pTask8MBRegion taskSpaceBeginVirtualAddr).memory k
        (pTask8MBRegion.toNat / 4096) other)
      (newUserTask k g pTask8MBRegion taskSpaceBeginVirtualAddr).pTaskPageDirectory.pageDirectoryEntries
      (taskSpaceBeginVirtualAddr.toNat / 4096 + (i + 1024)) =
      some ((taskPTE k g (pTask8MBRegion.toNat / 4096) false (i + 1024)).pagePhysicalAddr, true) := by
  have hindex : (taskSpaceBeginVirtualAddr.toNat / 4096 + (i + 1024)) / 1024 =
      taskSpaceBeginVirtualAddr.toNat / (1024 * 4096) + 1 := by omega
  have hentry : (taskSpaceBeginVirtualAddr.toNat / 4096 + (i + 1024)) % 1024 = i := by omega
  have htable := translate_table k (g.addr 3) hR hfit 0x3000 3 rfl (by omega) h3
  have haligned : Aligned (k.physPage (pTask8MBRegion.toNat / 4096 + 3)) := aligned_frame _
  refine walk_eq (k.physPage (pTask8MBRegion.toNat / 4096 + 3)) false (by omega) ?_ haligned ?_ ha
  · rw [hindex, ← htable, newUserTask_directory]
    exact newTaskPageDirectory_second k g hb (by rw [htable]; exact haligned)
  · rw [hentry, TaskPaging.memory, if_pos rfl, newUserTask_table2]
    exact newTaskPageTable2_apply k g hi ha

/-- A page of the first 4MB. -/
theorem walk_first (hR : Aligned pTask8MBRegion)
    (hfit : pTask8MBRegion.toNat / 4096 + 2048 ≤ 1023 * 1024)
    (hbase : taskSpaceBeginVirtualAddr.toNat % (1024 * 4096) = 0)
    (hb : taskSpaceBeginVirtualAddr.toNat / (1024 * 4096) < 1023)
    (h2 : (pTask8MBRegion.toNat / 4096 + 2) % 1024 ≠ 1023)
    (hne : k.physPage (pTask8MBRegion.toNat / 4096 + 2) ≠ k.physPage (pTask8MBRegion.toNat / 4096 + 3))
    (hi : i < 1024)
    (ha : Aligned (taskPTE k g (pTask8MBRegion.toNat / 4096) true i).pagePhysicalAddr) :
    walk ((newUserTask k g pTask8MBRegion taskSpaceBeginVirtualAddr).memory k
        (pTask8MBRegion.toNat / 4096) other)
      (newUserTask k g pTask8MBRegion taskSpaceBeginVirtualAddr).pTaskPageDirectory.pageDirectoryEntries
      (taskSpaceBeginVirtualAddr.toNat / 4096 + i) =
      some ((taskPTE k g (pTask8MBRegion.toNat / 4096) true i).pagePhysicalAddr, !decide (i < 20)) := by
  have hindex : (taskSpaceBeginVirtualAddr.toNat / 4096 + i) / 1024 =
      taskSpaceBeginVirtualAddr.toNat / (1024 * 4096) := by omega
  have hentry : (taskSpaceBeginVirtualAddr.toNat / 4096 + i) % 1024 = i := by omega
  have htable := translate_table k (g.addr 2) hR hfit 0x2000 2 rfl (by omega) h2
  have haligned : Aligned (k.physPage (pTask8MBRegion.toNat / 4096 + 2)) := aligned_frame _
  refine walk_eq (k.physPage (pTask8MBRegion.toNat / 4096 + 2)) (decide (i < 20)) (by omega) ?_ haligned ?_ ha
  · rw [hindex, ← htable, newUserTask_directory]
    exact newTaskPageDirectory_first k g hb (by rw [htable]; exact haligned)
  · rw [hentry, TaskPaging.memory, if_neg hne, if_pos rfl, newUserTask_table1]
    exact newTaskPageTable1_apply k g hi ha

/-! ## Which pages are mapped -/

/-- The same value whenever a result is not set. -/
def Garbage.const (addr : UInt32) : Garbage where
  pde := fun _ => ⟨addr, false, false⟩
  page := fun _ => ⟨addr, false, false⟩
  addr := fun _ => ⟨addr, false, false⟩

/-- There is a page address different from two given ones. -/
theorem exists_aligned_ne (a b : UInt32) : ∃ c : UInt32, Aligned c ∧ c ≠ a ∧ c ≠ b := by
  by_cases h0 : (0 : UInt32) ≠ a ∧ (0 : UInt32) ≠ b
  · exact ⟨0, by decide, h0.1, h0.2⟩
  by_cases h1 : (0x1000 : UInt32) ≠ a ∧ (0x1000 : UInt32) ≠ b
  · exact ⟨0x1000, by decide, h1.1, h1.2⟩
  refine ⟨0x2000, by decide, ?_, ?_⟩
  · intro h2
    subst h2
    have hb : b = 0 := by
      by_contra hb
      exact h0 ⟨by decide, Ne.symm hb⟩
    subst hb
    exact h1 ⟨by decide, by decide⟩
  · intro h2
    subst h2
    have ha : a = 0 := by
      by_contra ha
      exact h0 ⟨Ne.symm ha, by decide⟩
    subst ha
    exact h1 ⟨by decide, by decide⟩

theorem copiedPDE_eq (hi : i < 1023) :
    copiedPDE k g i = some ⟨frame (k.pageDirectory.pageDirectoryEntries i),
      !isUser (k.pageDirectory.pageDirectoryEntries i), true⟩ := by
  obtain ⟨hframe, huser, hpresent⟩ := k.agree i hi
  have hvalid := (k.present (i * 1024) (by omega)).1
  rw [Nat.mul_div_cancel i (by decide), ← hpresent] at hvalid
  have hpde : k.getPDE (g.pde i) i = ⟨frame (k.pageDirectory.pageDirectoryEntries i),
      !isUser (k.pageDirectory.pageDirectoryEntries i), true⟩ := by
    unfold Kernel.getPDE
    rw [PageTable.getPTE, if_neg (Nat.not_le.mpr hi), hframe, huser, hvalid]
  unfold copiedPDE
  rw [hpde]
  rfl

/-- Every other entry of the directory is the kernel's. -/
theorem entryCopied (hi : i < 1023) (hi1 : i ≠ taskSpaceBeginVirtualAddr.toNat / (1024 * 4096))
    (hi2 : i ≠ taskSpaceBeginVirtualAddr.toNat / (1024 * 4096) + 1) :
    EntryCopied k g pTask8MBRegion taskSpaceBeginVirtualAddr i := by
  have haligned := aligned_frame (k.pageDirectory.pageDirectoryEntries i)
  have hvalid := (k.present (i * 1024) (by omega)).1
  rw [Nat.mul_div_cancel i (by decide)] at hvalid
  unfold EntryCopied
  rw [newUserTask_directory, newTaskPageDirectory_other k g hi1 hi2, PageDirectory.fill_apply hi (copiedPDE_eq k g hi) haligned,
    if_pos (List.mem_range.mpr hi)]
  refine ⟨frame_entryBits haligned _ _, ?_, ?_⟩
  · rw [isUser_entryBits haligned, Bool.not_not]
  · rw [isPresent_entryBits haligned, hvalid]

/-- A page is mapped if its entry is not the last of a kernel table. -/
theorem pageMapped_of_ne (hR : Aligned pTask8MBRegion)
    (hfit : pTask8MBRegion.toNat / 4096 + 2048 ≤ 1023 * 1024)
    (hbase : taskSpaceBeginVirtualAddr.toNat % (1024 * 4096) = 0)
    (hb : taskSpaceBeginVirtualAddr.toNat / (1024 * 4096) + 1 < 1023)
    (h2 : (pTask8MBRegion.toNat / 4096 + 2) % 1024 ≠ 1023)
    (h3 : (pTask8MBRegion.toNat / 4096 + 3) % 1024 ≠ 1023)
    (hne : k.physPage (pTask8MBRegion.toNat / 4096 + 2) ≠ k.physPage (pTask8MBRegion.toNat / 4096 + 3))
    (hi : i < 2048) (h : (pTask8MBRegion.toNat / 4096 + i) % 1024 ≠ 1023) :
    PageMapped k g other pTask8MBRegion taskSpaceBeginVirtualAddr i := by
  have haligned : Aligned (k.physPage (pTask8MBRegion.toNat / 4096 + i)) := aligned_frame _
  unfold PageMapped
  by_cases hhalf : i < 1024
  · have haddr := taskPTE_addr k g true h
    rw [walk_first k g other hR hfit hbase (by omega) h2 hne hhalf (by rw [haddr]; exact haligned), haddr]
    have hflag : (!decide (i < 20)) = decide (20 ≤ i) := by
      simp only [← decide_not, Nat.not_lt]
    rw [hflag]
  · obtain ⟨j, rfl⟩ : ∃ j, i = j + 1024 := ⟨i - 1024, by omega⟩
    have haddr := taskPTE_addr k g false h
    rw [walk_second k g other hR hfit hbase hb h3 (by omega) (by rw [haddr]; exact haligned), haddr]
    rw [decide_eq_true (by omega : 20 ≤ j + 1024)]

/-- A page whose entry is the last of a kernel table is mapped to whatever the
uninitialised result held, in the second 4MB. -/
theorem not_pageMapped_second (hR : Aligned pTask8MBRegion)
    (hfit : pTask8MBRegion.toNat / 4096 + 2048 ≤ 1023 * 1024)
    (hbase : taskSpaceBeginVirtualAddr.toNat % (1024 * 4096) = 0)
    (hb : taskSpaceBeginVirtualAddr.toNat / (1024 * 4096) + 1 < 1023)
    (h3 : (pTask8MBRegion.toNat / 4096 + 3) % 1024 ≠ 1023) {c : UInt32} (hc : Aligned c)
    (hi : i < 1024) (hlast : (pTask8MBRegion.toNat / 4096 + (i + 1024)) % 1024 = 1023)
    (hne : c ≠ k.physPage (pTask8MBRegion.toNat / 4096 + (i + 1024))) :
    ¬ PageMapped k (Garbage.const c) other pTask8MBRegion taskSpaceBeginVirtualAddr (i + 1024) := by
  have haddr : (taskPTE k (Garbage.const c) (pTask8MBRegion.toNat / 4096) false
      (i + 1024)).pagePhysicalAddr = c := taskPTE_last k (Garbage.const c) false hlast
  unfold PageMapped
  rw [walk_second k _ other hR hfit hbase hb h3 hi (by rw [haddr]; exact hc), haddr]
  intro h
  rw [Option.some.injEq, Prod.mk.injEq] at h
  exact hne h.1

/-- The same in the first 4MB. -/
theorem not_pageMapped_first (hR : Aligned pTask8MBRegion)
    (hfit : pTask8MBRegion.toNat / 4096 + 2048 ≤ 1023 * 1024)
    (hbase : taskSpaceBeginVirtualAddr.toNat % (1024 * 4096) = 0)
    (hb : taskSpaceBeginVirtualAddr.toNat / (1024 * 4096) < 1023)
    (h2 : (pTask8MBRegion.toNat / 4096 + 2) % 1024 ≠ 1023)
    (hne : k.physPage (pTask8MBRegion.toNat / 4096 + 2) ≠ k.physPage (pTask8MBRegion.toNat / 4096 + 3))
    {c : UInt32} (hc : Aligned c) (hi : i < 1024)
    (hlast : (pTask8MBRegion.toNat / 4096 + i) % 1024 = 1023)
    (hnec : c ≠ k.physPage (pTask8MBRegion.toNat / 4096 + i)) :
    ¬ PageMapped k (Garbage.const c) other pTask8MBRegion taskSpaceBeginVirtualAddr i := by
  have haddr : (taskPTE k (Garbage.const c) (pTask8MBRegion.toNat / 4096) true i).pagePhysicalAddr = c :=
    taskPTE_last k (Garbage.const c) true hlast
  unfold PageMapped
  rw [walk_first k _ other hR hfit hbase hb h2 hne hi (by rw [haddr]; exact hc), haddr]
  intro h
  rw [Option.some.injEq, Prod.mk.injEq] at h
  exact hnec h.1

/-- **Which pages are mapped.** If the kernel finds the two tables, a page of
the task is mapped as it should be, whatever the uninitialised results are,
exactly if its entry is not the last of a kernel table. -/
theorem pageMapped_iff (hR : Aligned pTask8MBRegion)
    (hfit : pTask8MBRegion.toNat / 4096 + 2048 ≤ 1023 * 1024)
    (hbase : taskSpaceBeginVirtualAddr.toNat % (1024 * 4096) = 0)
    (hb : taskSpaceBeginVirtualAddr.toNat / (1024 * 4096) + 1 < 1023)
    (h2 : (pTask8MBRegion.toNat / 4096 + 2) % 1024 ≠ 1023)
    (h3 : (pTask8MBRegion.toNat / 4096 + 3) % 1024 ≠ 1023)
    (hne : k.physPage (pTask8MBRegion.toNat / 4096 + 2) ≠ k.physPage (pTask8MBRegion.toNat / 4096 + 3))
    (hi : i < 2048) :
    (∀ g, PageMapped k g other pTask8MBRegion taskSpaceBeginVirtualAddr i) ↔
      (pTask8MBRegion.toNat / 4096 + i) % 1024 ≠ 1023 := by
  constructor
  · intro hall hlast
    obtain ⟨c, hc, hnec, -⟩ := exists_aligned_ne (k.physPage (pTask8MBRegion.toNat / 4096 + i)) 0
    by_cases hhalf : i < 1024
    · exact not_pageMapped_first k other hR hfit hbase (by omega) h2 hne hc hhalf hlast hnec (hall _)
    · obtain ⟨j, rfl⟩ : ∃ j, i = j + 1024 := ⟨i - 1024, by omega⟩
      exact not_pageMapped_second k other hR hfit hbase hb h3 hc (by omega) hlast hnec (hall _)
  · intro h g
    exact pageMapped_of_ne k g other hR hfit hbase hb h2 h3 hne hi h

/-- The same if the table at page 3 is itself such a page: then page 3 of the
task is wrong, whichever of the two tables is found for the first 4MB. -/
theorem not_pageMapped_three (hR : Aligned pTask8MBRegion)
    (hfit : pTask8MBRegion.toNat / 4096 + 2048 ≤ 1023 * 1024)
    (hbase : taskSpaceBeginVirtualAddr.toNat % (1024 * 4096) = 0)
    (hb : taskSpaceBeginVirtualAddr.toNat / (1024 * 4096) + 1 < 1023)
    (h3 : (pTask8MBRegion.toNat / 4096 + 3) % 1024 = 1023) {c : UInt32} (hc : Aligned c)
    (hne : c ≠ k.physPage (pTask8MBRegion.toNat / 4096 + 3)) :
    ¬ PageMapped k (Garbage.const c) other pTask8MBRegion taskSpaceBeginVirtualAddr 3 := by
  have haddr1 : (taskPTE k (Garbage.const c) (pTask8MBRegion.toNat / 4096) true 3).pagePhysicalAddr = c :=
    taskPTE_last k (Garbage.const c) true h3
  have haddr2 : (taskPTE k (Garbage.const c) (pTask8MBRegion.toNat / 4096) false
      (3 + 1024)).pagePhysicalAddr = c := taskPTE_last k (Garbage.const c) false (by omega)
  have hindex : (taskSpaceBeginVirtualAddr.toNat / 4096 + 3) / 1024 =
      taskSpaceBeginVirtualAddr.toNat / (1024 * 4096) := by omega
  have hentry : (taskSpaceBeginVirtualAddr.toNat / 4096 + 3) % 1024 = 3 := by omega
  have htable := translate_table k ((Garbage.const c).addr 2) hR hfit 0x2000 2 rfl (by omega) (by omega)
  have haligned : Aligned (k.physPage (pTask8MBRegion.toNat / 4096 + 2)) := aligned_frame _
  obtain ⟨kernelPrivilegeOnly, hpte⟩ : ∃ kernelPrivilegeOnly,
      (newUserTask k (Garbage.const c) pTask8MBRegion taskSpaceBeginVirtualAddr).memory k
        (pTask8MBRegion.toNat / 4096) other (k.physPage (pTask8MBRegion.toNat / 4096 + 2)) 3 =
      entryBits c kernelPrivilegeOnly true := by
    unfold TaskPaging.memory
    split
    · refine ⟨false, ?_⟩
      rw [newUserTask_table2, newTaskPageTable2_apply k _ (by omega) (by rw [haddr2]; exact hc), haddr2]
    · refine ⟨decide (3 < 20), ?_⟩
      rw [if_pos rfl, newUserTask_table1,
        newTaskPageTable1_apply k _ (by omega) (by rw [haddr1]; exact hc), haddr1]
  have hpde : (newTaskPageDirectory k (Garbage.const c) pTask8MBRegion
      taskSpaceBeginVirtualAddr).pageDirectoryEntries
        ((taskSpaceBeginVirtualAddr.toNat / 4096 + 3) / 1024) =
      entryBits (k.physPage (pTask8MBRegion.toNat / 4096 + 2)) false true := by
    rw [hindex, ← htable]
    exact newTaskPageDirectory_first k (Garbage.const c) (by omega) (by rw [htable]; exact haligned)
  rw [← hentry] at hpte
  unfold PageMapped
  rw [newUserTask_directory, walk_eq _ kernelPrivilegeOnly (by omega) hpde haligned hpte hc]
  intro h
  rw [Option.some.injEq, Prod.mk.injEq] at h
  exact hne h.1

/-- The entry for the window does not let user code through. -/
theorem isUser_window {addr : UInt32} (h : Aligned addr) : isUser ((addr + 0x1000) ||| 3) = false := by
  have hnext : Aligned (addr + 0x1000) := by
    rw [aligned_iff] at h ⊢
    rw [UInt32.toNat_add, show (0x1000 : UInt32).toNat = 4096 from rfl]
    omega
  unfold isUser
  rw [and_or_right, hnext.and_eq_zero (by decide)]
  decide

theorem walk_of_not_user {memory : UInt32 → PageTable} {directory : Nat → UInt32} {page : Nat}
    (h : isUser (directory (page / 1024)) = false) (a : UInt32) :
    walk memory directory page ≠ some (a, true) := by
  unfold walk
  split
  · dsimp only
    rw [h, Bool.false_and]
    split
    · split <;> simp
    · simp
  · simp

/-- The task does not fit below the last entry of the directory. -/
theorem not_pageMapped_high (hR : Aligned pTask8MBRegion)
    (hbase : taskSpaceBeginVirtualAddr.toNat % (1024 * 4096) = 0)
    (hb : 1023 ≤ taskSpaceBeginVirtualAddr.toNat / (1024 * 4096) + 1) {c : UInt32} (hc : Aligned c) :
    ¬ PageMapped k (Garbage.const c) other pTask8MBRegion taskSpaceBeginVirtualAddr 1024 := by
  have hlt := taskSpaceBeginVirtualAddr.toNat_lt
  unfold PageMapped
  rw [newUserTask_directory]
  by_cases hend : taskSpaceBeginVirtualAddr.toNat / (1024 * 4096) = 1023
  · unfold walk
    rw [if_neg (by omega)]
    exact Option.some_ne_none _ |>.symm
  · -- the second table would be entry 1023, which cannot be changed
    have hindex : (taskSpaceBeginVirtualAddr.toNat / 4096 + 1024) / 1024 = 1023 := by omega
    have hentry : (newTaskPageDirectory k (Garbage.const c) pTask8MBRegion
        taskSpaceBeginVirtualAddr).pageDirectoryEntries 1023 =
        (k.translateVirtualToPhysicalAddress ((Garbage.const c).addr 0) pTask8MBRegion + 0x1000) ||| 3 := by
      rw [newTaskPageDirectory, PageDirectory.changePDE_of_ge hb, PageDirectory.changePDE_of_ne (by omega),
        PageDirectory.fill_last]
      rfl
    have haligned : Aligned
        (k.translateVirtualToPhysicalAddress ((Garbage.const c).addr 0) pTask8MBRegion) := by
      rw [k.translate_page _ hR]
      by_cases hlast : pTask8MBRegion.toNat / 4096 % 1024 = 1023
      · rw [k.getPTE_last _ hlast]
        exact hc
      · rw [k.getPTE_addr _ hlast]
        exact aligned_frame _
    refine walk_of_not_user ?_ _
    rw [hindex, hentry]
    exact isUser_window haligned

end Lookup

/-- **Never.** Whatever the kernel's structures, the region and the task's
address are, there are uninitialised values with which the task is mapped
wrongly. -/
theorem mapsExactly_never (k : Kernel) (other : UInt32 → PageTable)
    (pTask8MBRegion taskSpaceBeginVirtualAddr : UInt32) (hR : Aligned pTask8MBRegion)
    (hfit : pTask8MBRegion.toNat / 4096 + 2048 ≤ 1023 * 1024)
    (hbase : taskSpaceBeginVirtualAddr.toNat % (1024 * 4096) = 0) :
    ¬ ∀ g, MapsExactly k g other pTask8MBRegion taskSpaceBeginVirtualAddr := by
  intro hall
  -- the page of the first 4MB that is the last of its kernel table
  obtain ⟨i, hi, hlast⟩ : ∃ i, i < 1024 ∧ (pTask8MBRegion.toNat / 4096 + i) % 1024 = 1023 :=
    ⟨1023 - pTask8MBRegion.toNat / 4096 % 1024, by omega, by omega⟩
  obtain ⟨c, hc, hne1, hne2⟩ := exists_aligned_ne (k.physPage (pTask8MBRegion.toNat / 4096 + 3))
    (k.physPage (pTask8MBRegion.toNat / 4096 + (i + 1024)))
  have hmapped := (hall (Garbage.const c)).1
  by_cases hb : taskSpaceBeginVirtualAddr.toNat / (1024 * 4096) + 1 < 1023
  · by_cases h3 : (pTask8MBRegion.toNat / 4096 + 3) % 1024 = 1023
    · exact not_pageMapped_three k other hR hfit hbase hb h3 hc hne1 (hmapped 3 (by omega))
    · exact not_pageMapped_second k other hR hfit hbase hb h3 hc hi (by omega) hne2
        (hmapped (i + 1024) (by omega))
  · exact not_pageMapped_high k other hR hbase (by omega) hc (hmapped 1024 (by omega))

/-- The kernel's own structures at 1MB. -/
def sampleKernel : Kernel := PagingStructures.kernel 0x100000 (by decide) 0x80000001 (by decide)

theorem mapsExactly_never_16MB :
    (Aligned 0x1000000 ∧ (0x1000000 : UInt32).toNat / 4096 + 2048 ≤ 1023 * 1024) ∧
    ¬ ∀ g, MapsExactly sampleKernel g (fun _ => PageTable.new) 0x1000000 0x2000000 :=
  ⟨⟨by decide, by decide⟩, mapsExactly_never sampleKernel (fun _ => PageTable.new) 0x1000000 0x2000000
    (by decide) (by decide) (by decide)⟩

/-- A region at 16MB: page 2047 of the task is the last of its kernel table,
and is mapped to page 0 if the uninitialised address is 0. -/
theorem page2047_wrong : ¬ MapsExactly sampleKernel (Garbage.const 0) (fun _ => PageTable.new)
    0x1000000 0x2000000 := by
  have hpage : ¬ PageMapped sampleKernel (Garbage.const 0) (fun _ => PageTable.new)
      0x1000000 0x2000000 (1023 + 1024) := by
    refine not_pageMapped_second sampleKernel (fun _ => PageTable.new) (by decide) (by decide)
      (by decide) (by decide) (by decide) (by decide) (by decide) (by decide) ?_
    rw [sampleKernel, PagingStructures.kernel_physPage]
    decide
  intro h
  exact hpage (h.1 2047 (by decide))

end CpuScheduler.L1
