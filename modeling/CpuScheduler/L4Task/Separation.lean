import CpuScheduler.L4Task.TaskCleanup

/-!
# What user code can reach

The tables that a task's constructor builds let user code through in two
places only: the kernel's entries are copied with their privilege, and the
window is the kernel's. So user code sees pages 20 to 2047 of its own 8MB, and
with the accounting of `TaskCleanup` these are pages that no other task holds
and that were not reserved at boot (`tasks_separate`).

Left out are the two pages whose entry in the kernel's tables is the last one:
what they are mapped to is not initialised. `Placed` says that the directory
and the two tables are not among them.
-/
namespace CpuScheduler.L4

open L1 L1.PageAllocator

/-- The directory (page 0) and the two tables (pages 2 and 3) of a region are
found. -/
structure Placed (r : Region) : Prop where
  directory : r.first % 1024 ≠ 1023
  table1 : (r.first + 2) % 1024 ≠ 1023
  table2 : (r.first + 3) % 1024 ≠ 1023

instance (r : Region) : Decidable (Placed r) :=
  decidable_of_iff (r.first % 1024 ≠ 1023 ∧ (r.first + 2) % 1024 ≠ 1023 ∧ (r.first + 3) % 1024 ≠ 1023)
    ⟨fun ⟨h1, h2, h3⟩ => ⟨h1, h2, h3⟩, fun ⟨h1, h2, h3⟩ => ⟨h1, h2, h3⟩⟩

/-- User code of the task with its memory at `pTask8MBRegion` reaches the
physical page `a` at `page`. -/
def UserReaches (k : Kernel) (g : Garbage) (other : UInt32 → PageTable) (pTask8MBRegion : UInt32) (page : Nat) (a : UInt32) : Prop :=
  walk ((newUserTask k g pTask8MBRegion VIRTUAL_TASK_SPACE_BEGIN_ADDR).memory k (pTask8MBRegion.toNat / 4096) other)
    (newUserTask k g pTask8MBRegion VIRTUAL_TASK_SPACE_BEGIN_ADDR).pTaskPageDirectory.pageDirectoryEntries page = some (a, true)

section Walk
variable {this cr0 : UInt32} (hthis : Aligned this) (enabled : cr0 &&& 0x80000000 ≠ 0) (g : Garbage)
  (other : UInt32 → PageTable) {pTask8MBRegion : UInt32}

theorem isUser_kernel {i : Nat} (hi : i < 1023) :
    isUser ((PagingStructures.kernel this hthis cr0 enabled).pageDirectory.pageDirectoryEntries i) = false := by
  have hdirectory : (PagingStructures.kernel this hthis cr0 enabled).pageDirectory = PagingStructures.pageDirectory this := rfl
  rw [hdirectory, PagingStructures.pageDirectory_apply hthis hi, isUser_entryBits (PagingStructures.aligned_newPDE hthis i),
    Bool.not_true]

/-- Of the directory, user code may use the two entries of the task. -/
theorem userReaches_entry (hR : Aligned pTask8MBRegion) (hfirst : pTask8MBRegion.toNat / 4096 % 1024 ≠ 1023) {page : Nat} {a : UInt32}
    (h : UserReaches (PagingStructures.kernel this hthis cr0 enabled) g other pTask8MBRegion page a) :
    page / 1024 = 8 ∨ page / 1024 = 9 := by
  have hindex : VIRTUAL_TASK_SPACE_BEGIN_ADDR.toNat / (1024 * 4096) = 8 := rfl
  by_contra hno
  rw [not_or] at hno
  revert h
  unfold UserReaches
  by_cases hpage : page < 1024 * 1024
  · refine walk_of_not_user ?_ a
    by_cases hlast : page / 1024 = 1023
    · rw [hlast, newUserTask_directory, newTaskPageDirectory_other _ g (by rw [hindex]; decide) (by rw [hindex]; decide),
        PageDirectory.fill_last]
      refine isUser_window ?_
      rw [Kernel.translate_page _ _ hR, Kernel.getPTE_addr _ _ hfirst]
      exact aligned_frame _
    · have hcopied : EntryCopied (PagingStructures.kernel this hthis cr0 enabled) g pTask8MBRegion
          VIRTUAL_TASK_SPACE_BEGIN_ADDR (page / 1024) :=
        entryCopied _ g (by omega) (by rw [hindex]; exact hno.1) (by rw [hindex]; exact hno.2)
      rw [hcopied.2.1]
      exact isUser_kernel hthis enabled (by omega)
  · unfold walk
    rw [if_neg hpage]
    simp

/-- Off the two pages, user code sees the pages of the region, without the
paging structures and the kernel stack. -/
theorem userReaches_iff {r : Region} (hR : pTask8MBRegion.toNat = 0x1000 * r.first) (hfit : r.first + 2048 ≤ 1023 * 1024)
    (hplaced : Placed r) {i : Nat} (hi : i < 2048) (hindex : (r.first + i) % 1024 ≠ 1023) (a : UInt32) :
    UserReaches (PagingStructures.kernel this hthis cr0 enabled) g other pTask8MBRegion (0x2000 + i) a ↔
      20 ≤ i ∧ a = UInt32.ofNat (0x1000 * (r.first + i)) := by
  have hpage : pTask8MBRegion.toNat / 4096 = r.first := by omega
  have haligned : Aligned pTask8MBRegion := by
    rw [aligned_iff]
    omega
  have hne : (PagingStructures.kernel this hthis cr0 enabled).physPage (pTask8MBRegion.toNat / 4096 + 2) ≠
      (PagingStructures.kernel this hthis cr0 enabled).physPage (pTask8MBRegion.toNat / 4096 + 3) := by
    rw [PagingStructures.kernel_physPage, PagingStructures.kernel_physPage, hpage]
    intro heq
    have hval := congrArg UInt32.toNat heq
    rw [UInt32.toNat_ofNat', UInt32.toNat_ofNat'] at hval
    omega
  have hmapped := pageMapped_of_ne (PagingStructures.kernel this hthis cr0 enabled) g other haligned (by omega)
    (show VIRTUAL_TASK_SPACE_BEGIN_ADDR.toNat % (1024 * 4096) = 0 by decide)
    (show VIRTUAL_TASK_SPACE_BEGIN_ADDR.toNat / (1024 * 4096) + 1 < 1023 by decide)
    (by rw [hpage]; exact hplaced.table1) (by rw [hpage]; exact hplaced.table2) hne hi (by rw [hpage]; exact hindex)
  rw [PageMapped, PagingStructures.kernel_physPage, hpage, show VIRTUAL_TASK_SPACE_BEGIN_ADDR.toNat / 4096 = 0x2000 from rfl] at hmapped
  rw [UserReaches, hpage, hmapped, Option.some.injEq, Prod.mk.injEq, decide_eq_true_eq, Nat.mul_comm]
  exact ⟨fun h => ⟨h.2, h.1.symm⟩, fun h => ⟨h.2.symm, h.1⟩⟩

end Walk

/-! ## Tasks that exist together -/

section Tasks
variable {T : Nat} {s : OsState T} {reserved : Set Nat}

/-- The physical page `p` is one that the task of `e` has been given, and no
one else has. -/
structure OwnPage (reserved : Set Nat) (s : OsState T) (e : Slot T × UInt32) (p : Nat) : Prop where
  mem : (s.taskOf e).region.Mem p
  unreserved : p ∉ reserved
  user : ∀ e' ∈ s.manager.activeTasks, e' ≠ e → ¬ (s.taskOf e').region.Mem p
  kernel : ∀ k ∈ s.kernelTasks, ¬ k.region.Mem p

theorem ownPage_of_mem (h : OsInv reserved s) {e : Slot T × UInt32} (he : e ∈ s.manager.activeTasks) {p : Nat}
    (hp : (s.taskOf e).region.Mem p) : OwnPage reserved s e p := by
  have hmem : (s.taskOf e).region ∈ s.regions := List.mem_append_left _ (List.mem_map_of_mem he)
  have hnd := h.pages.nodup
  refine ⟨hp, h.pages.refines.coloured.unfixed _ hmem p hp, fun e' he' hne hp' => ?_, fun k hk hp' => ?_⟩
  · have hmem' : (s.taskOf e').region ∈ s.regions := List.mem_append_left _ (List.mem_map_of_mem he')
    by_cases heq : (s.taskOf e).region = (s.taskOf e').region
    · exact hne (List.inj_on_of_nodup_map (List.nodup_append.mp hnd).1 he' he heq.symm)
    · exact h.pages.refines.coloured.disjoint _ hmem _ hmem' heq p hp hp'
  · have hmem' : k.region ∈ s.regions := List.mem_append_right _ (List.mem_map_of_mem hk)
    have hne : (s.taskOf e).region ≠ k.region :=
      (List.nodup_append.mp hnd).2.2 _ (List.mem_map_of_mem he) _ (List.mem_map_of_mem hk)
    exact h.pages.refines.coloured.disjoint _ hmem _ hmem' hne p hp hp'

/-- In every reachable state the user code of a task reaches, off the two
uninitialised pages, exactly the pages behind its kernel stack, and all of them
are its own. -/
theorem tasks_separate (hT : T ≤ 256) (reserved : Set Nat) (s : OsState T) (hs : (osLTS T reserved).Reachable s)
    (this cr0 : UInt32) (hthis : Aligned this) (enabled : cr0 &&& 0x80000000 ≠ 0) (g : Garbage) (other : UInt32 → PageTable)
    (e : Slot T × UInt32) (he : e ∈ s.manager.activeTasks) (hplaced : Placed (s.taskOf e).region) :
    (∀ page a, UserReaches (PagingStructures.kernel this hthis cr0 enabled) g other (s.taskOf e).pTask8MBRegion page a →
      ∃ i, i < 2048 ∧ page = 0x2000 + i) ∧
    ∀ i, i < 2048 → ((s.taskOf e).region.first + i) % 1024 ≠ 1023 → ∀ a,
      (UserReaches (PagingStructures.kernel this hthis cr0 enabled) g other (s.taskOf e).pTask8MBRegion (0x2000 + i) a ↔
        20 ≤ i ∧ a = UInt32.ofNat (0x1000 * ((s.taskOf e).region.first + i))) ∧
      OwnPage reserved s e ((s.taskOf e).region.first + i) := by
  have h := osInv_inductive hT |>.reachable s hs
  have haddress := h.pages.address e he
  have hmem : (s.taskOf e).region ∈ s.regions := List.mem_append_left _ (List.mem_map_of_mem he)
  have hfit : (s.taskOf e).region.first + 2048 ≤ 1023 * 1024 := h.pages.refines.coloured.below _ hmem
  have haligned : Aligned (s.taskOf e).pTask8MBRegion := by
    rw [aligned_iff]
    omega
  refine ⟨fun page a hreach => ?_, fun i hi hindex a => ⟨?_, ?_⟩⟩
  · have hentry := userReaches_entry hthis enabled g other haligned
      (by rw [haddress, Nat.mul_div_cancel_left _ (by decide)]; exact hplaced.directory) hreach
    exact ⟨page - 0x2000, by omega, by omega⟩
  · exact userReaches_iff hthis enabled g other haddress hfit hplaced hi hindex a
  · exact ownPage_of_mem h he ⟨Nat.le_add_right _ _, Nat.add_lt_add_left hi _⟩

end Tasks

/-- The first task has pages 1025 to 3072, and sees page 1045 first. -/
theorem tasks_separate_booted : ∃ t e, (osLTS 50 bootedPages).Reachable t ∧ e ∈ t.manager.activeTasks ∧
    (UserReaches sampleKernel (Garbage.const 0) (fun _ => PageTable.new) (t.taskOf e).pTask8MBRegion (0x2000 + 20) 0x415000) ∧
    OwnPage bootedPages t e 1045 := by
  obtain ⟨r, allocator, u, mem, _, _, hcall, _, hregion, hval⟩ := UserTaskObject.new_spec rfl rfl bootedState_allocates
  obtain ⟨_, hfirst⟩ := reserved_allocates 1024 (1024 * 2) (by decide) (by decide) sampleMachine.behind
  have hr : r.first = 1025 := by
    have hpair := Option.some.inj (hfirst.symm.trans hcall)
    have haddr := (Prod.mk.inj hpair).1
    omega
  have hunused : bootedState.manager.unusedTasks = (0 : Fin (99 + 1)) :: (List.finRange 99).map Fin.succ :=
    List.finRange_succ
  obtain ⟨t, slot, hcreate, hactive, hbuffer⟩ : ∃ t slot, bootedState.createUserTask sampleMachine 7 = some (.SUCCESS, t) ∧
      t.manager.activeTasks = [(slot, 7)] ∧ t.manager.userTaskBuffers slot = u := by
    unfold OsState.createUserTask
    rw [if_neg (by decide), if_neg (by decide), hunused, hval]
    refine ⟨_, _, rfl, rfl, ?_⟩
    dsimp only
    exact Function.update_self _ _ _
  have hreach : (osLTS 50 bootedPages).Reachable t :=
    bootedState_reachable.step (l := .createUserTask sampleMachine 7) ⟨_, hcreate, fun _ => bootedState_allocates⟩
  have he : (slot, 7) ∈ t.manager.activeTasks := by
    rw [hactive]
    exact List.mem_singleton_self _
  have htask : (t.taskOf (slot, 7)).pTask8MBRegion = 0x401000 := by
    rw [OsState.taskOf, hbuffer, hregion, hr]
    rfl
  have hfirst : (t.taskOf (slot, 7)).region.first = 1025 := by
    rw [UserTaskObject.region, htask]
    rfl
  have hplaced : Placed (t.taskOf (slot, 7)).region := by
    refine ⟨?_, ?_, ?_⟩ <;> rw [hfirst] <;> decide
  have hseparate := (tasks_separate (by decide) bootedPages t hreach 0x100000 0x80000001 (by decide) (by decide) (Garbage.const 0)
    (fun _ => PageTable.new) (slot, 7) he hplaced).2 20 (by decide) (by rw [hfirst]; decide) 0x415000
  rw [hfirst] at hseparate
  exact ⟨t, (slot, 7), hreach, he, hseparate.1.mpr ⟨Nat.le_refl _, by decide⟩, hseparate.2⟩

end CpuScheduler.L4
