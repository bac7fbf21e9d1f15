import CpuScheduler.L2Network.ArpFresh

/-!
# Which ARP slot is given away

If the next hop is in no slot of its bucket, the loop of
`handleOutgoingIPv4Packet` looks for a slot to reassign. It keeps one
candidate: a free slot is never displaced, a slot that was asked for and not
used for too long displaces everything else, and a used slot displaces only a
slot that was used more recently. `Choice` says what the candidate is after a
part of the bucket, `choice_snoc` is one round of the loop.
-/
namespace CpuScheduler.L2

open Word NetworkStackHandler

variable {n h l : Nat} {s : NetworkStackHandler n h l} {b : Fin h}

/-- Slot `i` is free. -/
def Free (s : NetworkStackHandler n h l) (b : Fin h) (i : Fin l) : Prop := (s.arpEntries b i).IP = 0

/-- Slot `i` was never used for sending and asked for too long ago. -/
def Stale (s : NetworkStackHandler n h l) (b : Fin h) (i : Fin l) : Prop :=
  (s.arpEntries b i).lastUsed = -1 ∧ s.passedTimeSince (s.arpEntries b i).lastRequested > UNUSED_ARP_ENTRY_TIMEOUT

/-- Slot `i` was used for sending. -/
def Used (s : NetworkStackHandler n h l) (b : Fin h) (i : Fin l) : Prop := (s.arpEntries b i).lastUsed ≠ -1

/-- The ticks since slot `i` was last used. -/
def idleTime (s : NetworkStackHandler n h l) (b : Fin h) (i : Fin l) : Nat :=
  s.passedTimeSince (s.arpEntries b i).lastUsed

/-- The slot to reassign among the slots `xs`: the first free one, else the
last stale one, else the first of those unused for the longest time. -/
inductive Choice (s : NetworkStackHandler n h l) (b : Fin h) : List (Fin l) → Option (Fin l) → Prop where
  | free {P Q : List (Fin l)} {i : Fin l} (hi : Free s b i) (hP : ∀ j ∈ P, ¬ Free s b j) :
      Choice s b (P ++ i :: Q) (some i)
  | stale {P Q : List (Fin l)} {i : Fin l} (hnone : ∀ j ∈ P ++ i :: Q, ¬ Free s b j) (hi : Stale s b i)
      (hQ : ∀ j ∈ Q, ¬ Stale s b j) : Choice s b (P ++ i :: Q) (some i)
  | used {P Q : List (Fin l)} {i : Fin l} (hnone : ∀ j ∈ P ++ i :: Q, ¬ Free s b j ∧ ¬ Stale s b j) (hi : Used s b i)
      (hP : ∀ j ∈ P, Used s b j → idleTime s b j < idleTime s b i)
      (hQ : ∀ j ∈ Q, Used s b j → idleTime s b j ≤ idleTime s b i) : Choice s b (P ++ i :: Q) (some i)
  | none {xs : List (Fin l)} (hnone : ∀ j ∈ xs, ¬ Free s b j ∧ ¬ Stale s b j ∧ ¬ Used s b j) : Choice s b xs none

theorem forall_mem_snoc {α : Type} {p : α → Prop} {xs : List α} {x : α} (hxs : ∀ j ∈ xs, p j) (hx : p x) :
    ∀ j ∈ xs ++ [x], p j := by
  intro j hj
  rcases List.mem_append.mp hj with hj | hj
  · exact hxs j hj
  · rw [List.mem_singleton.mp hj]
    exact hx

/-- One round of the loop. -/
theorem choice_snoc {xs : List (Fin l)} {c : Option (Fin l)} (hc : Choice s b xs c) (x : Fin l) :
    Choice s b (xs ++ [x]) (s.considerEntry b c x) := by
  cases hc with
  | @free P Q i hi hP =>
    have hkeep : s.considerEntry b (some i) x = some i := by
      unfold considerEntry
      dsimp only
      have hfree : (s.arpEntries b i).IP = 0 := hi
      rw [if_neg (not_not.mpr hfree)]
    rw [hkeep, List.append_assoc, List.cons_append]
    exact .free hi hP
  | @stale P Q i hnone hi hQ =>
    have hne : (s.arpEntries b i).IP ≠ 0 := hnone i (by simp)
    have hlast : ∀ j ∈ P ++ i :: Q, ¬ Free s b j := hnone
    unfold considerEntry
    dsimp only
    rw [if_pos hne]
    split
    · rename_i hfree
      exact .free hfree hlast
    · rename_i hfree
      have hall : ∀ j ∈ (P ++ i :: Q) ++ [x], ¬ Free s b j := forall_mem_snoc hlast hfree
      split
      · rename_i hst
        exact .stale hall hst (by simp)
      · rename_i hst
        rw [if_neg (fun h => h.2.1 hi.1)]
        rw [List.append_assoc, List.cons_append] at hall ⊢
        exact .stale hall hi (forall_mem_snoc hQ hst)
  | @used P Q i hnone hi hP hQ =>
    have hne : (s.arpEntries b i).IP ≠ 0 := (hnone i (by simp)).1
    have hlast : ∀ j ∈ P ++ i :: Q, ¬ Free s b j := fun j hj => (hnone j hj).1
    unfold considerEntry
    dsimp only
    rw [if_pos hne]
    split
    · rename_i hfree
      exact .free hfree hlast
    · rename_i hfree
      split
      · rename_i hst
        exact .stale (forall_mem_snoc hlast hfree) hst (by simp)
      · rename_i hst
        have hall : ∀ j ∈ (P ++ i :: Q) ++ [x], ¬ Free s b j ∧ ¬ Stale s b j := forall_mem_snoc hnone ⟨hfree, hst⟩
        split
        · rename_i holder
          refine .used hall holder.1 ?_ (by simp)
          -- `x` has been idle longer than the candidate, which was the longest
          have hlonger : idleTime s b i < idleTime s b x := holder.2.2
          intro j hj hused
          have hle : idleTime s b j ≤ idleTime s b i := by
            rcases List.mem_append.mp hj with hj | hj
            · exact (hP j hj hused).le
            · rcases List.mem_cons.mp hj with rfl | hj
              · exact le_rfl
              · exact hQ j hj hused
          exact hle.trans_lt hlonger
        · rename_i hyounger
          rw [List.append_assoc, List.cons_append] at hall ⊢
          refine .used hall hi hP (forall_mem_snoc hQ fun hused => ?_)
          exact Nat.le_of_not_lt fun hlt => hyounger ⟨hused, hi, hlt⟩
  | none hnone =>
    unfold considerEntry
    dsimp only
    split
    · rename_i hfree
      exact .free hfree fun j hj => (hnone j hj).1
    · rename_i hfree
      split
      · rename_i hst
        exact .stale (forall_mem_snoc (fun j hj => (hnone j hj).1) hfree) hst (by simp)
      · rename_i hst
        split
        · rename_i hused
          refine .used (forall_mem_snoc (fun j hj => ?_) ⟨hfree, hst⟩) hused (fun j hj hu => absurd hu (hnone j hj).2.2)
            (by simp)
          exact ⟨(hnone j hj).1, (hnone j hj).2.1⟩
        · rename_i hused
          exact .none (forall_mem_snoc hnone ⟨hfree, hst, hused⟩)

/-- The loop over the slots `is`, behind the slots `xs`. -/
theorem choice_selectLoop {hop : UInt32} {is xs : List (Fin l)} {c : Option (Fin l)} (hc : Choice s b xs c)
    (hother : ∀ j ∈ is, (s.arpEntries b j).IP ≠ hop) : Choice s b (xs ++ is) (s.selectLoop hop b is c) := by
  induction is generalizing xs c with
  | nil =>
    rw [List.append_nil]
    exact hc
  | cons i is ih =>
    rw [selectLoop, if_neg (hother i (by simp))]
    have hnext := ih (choice_snoc hc i) fun j hj => hother j (List.mem_cons_of_mem i hj)
    rwa [List.append_assoc, List.singleton_append] at hnext

/-- The slot to reassign in bucket `b`, by the order of the slots. -/
inductive Reassigned (s : NetworkStackHandler n h l) (b : Fin h) (i : Fin l) : Prop where
  | free (hi : Free s b i) (hfirst : ∀ j < i, ¬ Free s b j)
  | stale (hnone : ∀ j, ¬ Free s b j) (hi : Stale s b i) (hlast : ∀ j > i, ¬ Stale s b j)
  | used (hnone : ∀ j, ¬ Free s b j ∧ ¬ Stale s b j) (hi : Used s b i)
      (hlongest : ∀ j, Used s b j → idleTime s b j ≤ idleTime s b i)
      (hfirst : ∀ j < i, Used s b j → idleTime s b j < idleTime s b i)

/-- The elements in front of `i` in the list of all slots are the smaller
ones. -/
theorem finRange_split {P Q : List (Fin l)} {i : Fin l} (h : P ++ i :: Q = List.finRange l) :
    (∀ j < i, j ∈ P) ∧ ∀ j > i, j ∈ Q := by
  have hsorted : (P ++ i :: Q).Pairwise (· < ·) := by
    rw [h]
    exact List.pairwise_lt_finRange l
  rw [List.pairwise_append, List.pairwise_cons] at hsorted
  obtain ⟨-, ⟨hQ, -⟩, hP⟩ := hsorted
  have hmem (j : Fin l) : j ∈ P ∨ j = i ∨ j ∈ Q := by
    have := List.mem_finRange j
    rwa [← h, List.mem_append, List.mem_cons] at this
  constructor
  · intro j hj
    rcases hmem j with hm | rfl | hm
    · exact hm
    · exact absurd hj (lt_irrefl j)
    · exact absurd (hQ j hm) (lt_asymm hj)
  · intro j hj
    rcases hmem j with hm | rfl | hm
    · exact absurd (hP j hm i (by simp)) (lt_asymm hj)
    · exact absurd hj (lt_irrefl j)
    · exact hm

theorem choice_all {xs : List (Fin l)} {c : Option (Fin l)} (hxs : xs = List.finRange l) (hc : Choice s b xs c) :
    (∀ i, c = some i → Reassigned s b i) ∧ (c = none → ∀ j, ¬ Free s b j ∧ ¬ Stale s b j ∧ ¬ Used s b j) := by
  have hall (j : Fin l) : j ∈ xs := by
    rw [hxs]
    exact List.mem_finRange j
  cases hc with
  | free hi hP =>
    refine ⟨?_, nofun⟩
    intro i' he
    cases he
    exact .free hi fun j hj => hP j ((finRange_split hxs).1 j hj)
  | stale hnone hi hQ =>
    refine ⟨?_, nofun⟩
    intro i' he
    cases he
    exact .stale (fun j => hnone j (hall j)) hi fun j hj => hQ j ((finRange_split hxs).2 j hj)
  | @used P Q i hnone hi hP hQ =>
    refine ⟨?_, nofun⟩
    intro i' he
    cases he
    have hfirst : ∀ j < i, Used s b j → idleTime s b j < idleTime s b i :=
      fun j hj => hP j ((finRange_split hxs).1 j hj)
    refine .used (fun j => hnone j (hall j)) hi (fun j hused => ?_) hfirst
    rcases lt_trichotomy j i with hj | rfl | hj
    · exact (hfirst j hj hused).le
    · exact le_rfl
    · exact hQ j ((finRange_split hxs).2 j hj) hused
  | none hnone => exact ⟨nofun, fun _ j => hnone j (hall j)⟩

/-- A slot is reassigned by the rule, or there is none for the rule and the
table is full. -/
theorem reassigned_cases [NeZero h] {a : OutgoingArgs} {data buffer : Nat → UInt8} (hwork : HasWork a data buffer)
    {hop : UInt32} (hhop : hop = s.nextHopIP a.destinationIP) (hnone : ∀ j, (s.arpEntries (bucket hop) j).IP ≠ hop) :
    (∃ i, Reassigned s (bucket hop) i ∧ (s.outgoing a).1.progress = .waitingOnARPReply ∧
      WritesSlot s (s.outgoing a).2 hop i ((s.arpEntries (bucket hop) i).assign hop s.timerCounter)) ∨
    (∀ i, ¬ Free s (bucket hop) i ∧ ¬ Stale s (bucket hop) i ∧ ¬ Used s (bucket hop) i) ∧
      (s.outgoing a).1.progress = .arpTableFull ∧ (s.outgoing a).2.arpEntries = s.arpEntries := by
  have hchoice : Choice s (bucket hop) ([] ++ List.finRange l) (s.selectLoop hop (bucket hop) (List.finRange l) none) :=
    choice_selectLoop (.none nofun) fun j _ => hnone j
  obtain ⟨hsome, hfull⟩ := choice_all rfl hchoice
  unfold outgoing handleOutgoingIPv4Packet
  rw [hwork.data, hwork.buffer]
  dsimp only
  rw [if_neg (Nat.not_le.mpr hwork.offset), ← hhop]
  unfold resolve
  dsimp only
  cases hsel : s.selectLoop hop (bucket hop) (List.finRange l) none with
  | none => exact .inr ⟨hfull hsel, rfl, rfl⟩
  | some i =>
    dsimp only
    rw [if_pos (hnone i), if_pos rfl]
    exact .inl ⟨i, hsome i hsel, rfl, fun b j => arpEntries_setARPEntry ..⟩

/-- No slot of the bucket may be given away. -/
def NoneToGive (s : NetworkStackHandler n h l) (b : Fin h) : Prop :=
  ∀ i, ¬ Free s b i ∧ ¬ Stale s b i ∧ ¬ Used s b i

theorem Reassigned.some_to_give {i : Fin l} (hi : Reassigned s b i) : ¬ NoneToGive s b := by
  intro hnone
  cases hi with
  | free hfree _ => exact (hnone i).1 hfree
  | stale _ hst _ => exact (hnone i).2.1 hst
  | used _ hused _ _ => exact (hnone i).2.2 hused

/-- The table of every reachable state, and the slot that a next hop without
one is given. -/
theorem arp_table_discipline [NeZero n] [NeZero h] (s : NetworkStackHandler n h l)
    (hs : (handlerLTS n h l).Reachable s) :
    (∀ b i, (s.arpEntries b i).IP ≠ 0 → b.val = (s.arpEntries b i).IP.toNat % h) ∧
    (∀ b i b' i', (s.arpEntries b i).IP ≠ 0 → (s.arpEntries b i).IP = (s.arpEntries b' i').IP → b = b' ∧ i = i') ∧
    ∀ (a : OutgoingArgs) (data buffer : Nat → UInt8) (hop : UInt32), HasWork a data buffer →
      hop = s.nextHopIP a.destinationIP → hop ≠ 0 → (∀ j, (s.arpEntries (bucket hop) j).IP ≠ hop) →
      ((s.outgoing a).1.progress = .arpTableFull ↔ NoneToGive s (bucket hop)) ∧
      (NoneToGive s (bucket hop) → (s.outgoing a).2.arpEntries = s.arpEntries) ∧
      (¬ NoneToGive s (bucket hop) → ∃ i, Reassigned s (bucket hop) i ∧
        (s.outgoing a).1.progress = .waitingOnARPReply ∧
        WritesSlot s (s.outgoing a).2 hop i ((s.arpEntries (bucket hop) i).assign hop s.timerCounter)) := by
  have hok := tableOk_of_reachable hs
  refine ⟨fun b i hne => ?_, fun b i b' i' hne heq => ?_, fun a data buffer hop hwork hhop _ hother => ?_⟩
  · exact congrArg Fin.val (hok.placed b i hne)
  · have hne' : (s.arpEntries b' i').IP ≠ 0 := by
      rw [← heq]
      exact hne
    have hb : b = b' := by
      rw [hok.placed b i hne, hok.placed b' i' hne', heq]
    subst hb
    exact ⟨rfl, hok.unique b i i' heq hne⟩
  · rcases reassigned_cases hwork hhop hother with ⟨i, hi, hprogress, hw⟩ | ⟨hnone, hprogress, htable⟩
    · have hgive := hi.some_to_give
      refine ⟨⟨fun hfull => ?_, fun hnone => absurd hnone hgive⟩, fun hnone => absurd hnone hgive, fun _ => ?_⟩
      · rw [hprogress] at hfull
        cases hfull
      · exact ⟨i, hi, hprogress, hw⟩
    · exact ⟨⟨fun _ => hnone, fun _ => hprogress⟩, fun _ => htable, fun hgive => absurd hnone hgive⟩

/-- The one slot of a new handler is free. -/
theorem arp_table_discipline_twoBuffers : Free twoBuffers 0 0 ∧ ∃ i, Reassigned twoBuffers 0 i ∧
    ((twoBuffers.outgoing zeroToSelf).2.arpEntries 0 i).IP = 0x0A000001 := by
  have hfree : Free twoBuffers 0 0 := rfl
  have hs : (handlerLTS 2 1 1).Reachable twoBuffers := ⟨twoBuffers, [], init_twoBuffers, .nil _⟩
  have hwork : HasWork zeroToSelf (fun _ => 0) (fun _ => 0) := ⟨rfl, rfl, by decide⟩
  have hnew : ∀ j, (twoBuffers.arpEntries (bucket 0x0A000001) j).IP ≠ 0x0A000001 := by decide
  obtain ⟨-, -, hgiven⟩ := (arp_table_discipline twoBuffers hs).2.2 zeroToSelf _ _ 0x0A000001 hwork (by decide)
    (by decide) hnew
  obtain ⟨i, hi, -, hw⟩ := hgiven fun hnone => (hnone 0).1 hfree
  refine ⟨hfree, i, hi, ?_⟩
  rw [hw 0 i, if_pos ⟨rfl, rfl⟩]
  rfl

end CpuScheduler.L2
