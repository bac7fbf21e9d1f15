import CpuScheduler.L2Network.Refine

/-!
# What the handler delivers, and what it loses

The results about every reachable state of the pointer structure:

* `handler_refines_buffers`: it represents the three lists, every call
  returns, and the ready list is a FIFO queue;
* `ready_entries_whole`: only whole datagrams are in the ready list;
* `no_leak_without_contradiction`: the elements that are in no list any
  more are exactly those taken for a fragment that contradicts a live chain
  of its own datagram. `insertInIncompleteFragmentedDatagramsList` returns
  without filing them (lines 254, 267 and 284).
-/
namespace CpuScheduler.L2

open Links Word NetworkStackHandler

variable {n h l : Nat}

/-! ## A handler with two buffers -/

/-- Memory before construction. -/
def blank (n h l : Nat) : NetworkStackHandler n h l where
  next _ := none
  prev _ := none
  nextFragment _ := none
  value _ := ⟨0, 0, 0, 0, false, 0, 0, 0, fun _ => 0⟩
  arpEntries _ _ := ⟨0, -1, -1, -1, fun _ => 0⟩
  unusedPacketsHead := none
  incompleteFragmentedDatagramsHead := none
  readyToReadPacketsHead := none
  readyToReadPacketsTail := none
  myMac _ := 0
  myIP := 0
  gatewayIP := 0
  networkMask := 0
  timerCounter := 0
  identificationCounter := 0

/-- Two packet buffers, one ARP entry, address 10.0.0.1. -/
def twoBuffers : NetworkStackHandler 2 1 1 :=
  init (blank 2 1 1) (fun _ => 2) 0x0A000001 0x0A0000FE 24

theorem init_twoBuffers : (handlerLTS 2 1 1).init twoBuffers := ⟨_, _, _, _, _, rfl⟩

theorem fits_42 : 42 ≤ RX_BUFFER_SIZE := by decide

/-- A broadcast frame from 10.0.0.2 to 10.0.0.1 with 8 bytes of payload;
`flags` and `offset` are the two bytes of the fragment field. -/
def smallFrame (flags offset : UInt8) : RxFrame where
  data i := [0xFF, 0xFF, 0xFF, 0xFF, 0xFF, 0xFF, 2, 0, 0, 0, 0, 2, 0x08, 0x00, 0x45, 0, 0, 28, 0, 1,
    flags, offset, 255, 17, 0, 0, 10, 0, 0, 2, 10, 0, 0, 1, 1, 2, 3, 4, 5, 6, 7, 8].getD i 0
  dataLen := 42
  fits := fits_42

theorem run_of_calls [NeZero n] [NeZero h] {s t : NetworkStackHandler n h l} {cs : List Call}
    (hc : s.calls cs = some t) : (handlerLTS n h l).Run s cs t := by
  induction cs generalizing s with
  | nil => cases hc; exact .nil _
  | cons c cs ih =>
    rw [calls, Option.bind_eq_some_iff] at hc
    obtain ⟨s', h1, h2⟩ := hc
    exact .cons h1 (ih h2)

theorem reachable_of_calls [NeZero n] [NeZero h] {s t : NetworkStackHandler n h l} {cs : List Call}
    (hs : (handlerLTS n h l).init s) (hc : s.calls cs = some t) : (handlerLTS n h l).Reachable t :=
  ⟨s, cs, hs, run_of_calls hc⟩

/-! ## The ready list is a queue -/

theorem Buffers.Filed.queued {exp : IPv4Packet → Bool} {a b : Buffers (Fin n)} {e : Fin n}
    (hF : Buffers.Filed exp a e b) :
    (b.ready = a.ready ∨ ∃ c, b.ready = a.ready ++ [c] ∧ e ∈ c) ∧
      (∀ x, x ≠ e → b.val x = a.val x) ∧ Alike (a.val e) (b.val e) := by
  cases hF with
  | fresh hS => exact ⟨.inl rfl, fun _ _ => rfl, .refl _⟩
  | lost hS hx => exact ⟨.inl rfl, fun _ _ => rfl, .refl _⟩
  | grown hS hf hd => exact ⟨.inl rfl, fun x hx => inherit_of_ne a.val _ hx, inherit_alike a.val e _ e⟩
  | @done u pre c cs hS hf hd =>
    exact ⟨.inr ⟨_, rfl, mem_placed.mpr (.inl rfl)⟩, fun x hx => inherit_of_ne a.val _ hx,
      inherit_alike a.val e _ e⟩

/-- Only whole datagrams are in the ready list. -/
theorem ready_entries_whole [NeZero n] [NeZero h] (s : NetworkStackHandler n h l)
    (hs : (handlerLTS n h l).Reachable s) :
    ∃ rs, ReadyList s rs ∧ ∀ c ∈ rs, CompleteChain s.value c := by
  obtain ⟨a, ha⟩ := rep_of_reachable hs
  refine ⟨a.ready, ha.ready, fun c hc => ?_⟩
  rw [ha.val]
  exact ha.wf.whole c hc

theorem ready_entries_whole_twoBuffers :
    ∃ t, twoBuffers.calls [.incoming (smallFrame 0x20 0), .incoming (smallFrame 0 1)] = some t ∧
      t.readyToReadPacketsHead = some 0 ∧
      ∃ rs, ReadyList t rs ∧ ∀ c ∈ rs, CompleteChain t.value c := by
  have hrun : (twoBuffers.calls [.incoming (smallFrame 0x20 0), .incoming (smallFrame 0 1)]).any
      (fun t => t.readyToReadPacketsHead == some 0) = true := by decide +kernel
  rw [Option.any_eq_true] at hrun
  obtain ⟨t, ht, hh⟩ := hrun
  exact ⟨t, ht, by simpa using hh, ready_entries_whole t (reachable_of_calls init_twoBuffers ht)⟩

/-! ## Lost elements -/

/-- The elements of the unused list, followed from its head. -/
def unusedList (s : NetworkStackHandler n h l) : List (Fin n) := walk s.next n s.unusedPacketsHead

def incompleteChains (s : NetworkStackHandler n h l) : List (List (Fin n)) :=
  chainsFrom s.next s.nextFragment n s.incompleteFragmentedDatagramsHead

def readyChains (s : NetworkStackHandler n h l) : List (List (Fin n)) :=
  chainsFrom s.next s.nextFragment n s.readyToReadPacketsHead

/-- Every element is in the unused list, in a chain of the incomplete list or
in a chain of the ready list. -/
def NoLeak (s : NetworkStackHandler n h l) : Prop :=
  ∀ i, i ∈ unusedList s ∨ (∃ c ∈ incompleteChains s, i ∈ c) ∨ ∃ c ∈ readyChains s, i ∈ c

instance (s : NetworkStackHandler n h l) : Decidable (NoLeak s) :=
  inferInstanceAs (Decidable (∀ i, _ ∨ (∃ c ∈ incompleteChains s, i ∈ c) ∨ ∃ c ∈ readyChains s, i ∈ c))

theorem Rep.lists_eq {s : NetworkStackHandler n h l} {a : Buffers (Fin n)} (hr : Rep s a) :
    unusedList s = a.unused ∧ incompleteChains s = a.incomplete ∧ readyChains s = a.ready := by
  have hl := hr.wf.nodup_lists
  rw [List.nodup_append] at hl
  exact ⟨walk_eq hr.lists.unused (length_le_of_nodup hl.1),
    chainsFrom_eq hr.lists.incomplete (length_le_of_nodup hl.2.1),
    chainsFrom_eq hr.ready.forward (length_le_of_nodup hr.wf.nodup_ready)⟩

theorem Rep.noLeak_iff {s : NetworkStackHandler n h l} {a : Buffers (Fin n)} (hr : Rep s a) :
    NoLeak s ↔ ∀ i, i ∈ a.all := by
  obtain ⟨h1, h2, h3⟩ := hr.lists_eq
  unfold NoLeak
  rw [h1, h2, h3]
  simp only [Buffers.all, List.mem_append, List.mem_flatten, or_assoc]

/-- The chains that are still there once a buffer has been found for a new
packet: with an empty unused list the first one is given up. -/
def survivingChains (s : NetworkStackHandler n h l) : List (List (Fin n)) :=
  if s.unusedPacketsHead = none then (incompleteChains s).tail else incompleteChains s

/-- The frame is an accepted fragment that contradicts a chain of the same
datagram which has not timed out. What the buffer held before (`old`) does
not matter. -/
def ContradictsChain (s : NetworkStackHandler n h l) (f : RxFrame) : Prop :=
  IsIPv4For f.data s.myIP f.dataLen ∧ ∃ old, Buffers.Clash s.timedOut s.value (survivingChains s)
    (packetOf f.data s.timerCounter old)

/-- A call that does not hand over such a frame. -/
def Consistent (s : NetworkStackHandler n h l) : Call → Prop
  | .incoming f => ¬ ContradictsChain s f
  | _ => True

theorem clash_packetOf {exp : IPv4Packet → Bool} {val : Fin n → IPv4Packet}
    {cs : List (List (Fin n))} {data : Nat → UInt8} {t : Int} {old : IPv4Packet} (old' : IPv4Packet)
    (hc : Buffers.Clash exp val cs (packetOf data t old)) :
    Buffers.Clash exp val cs (packetOf data t old') := hc

theorem Rep.surviving {s : NetworkStackHandler n h l} {a a1 : Buffers (Fin n)} {e : Fin n}
    (hr : Rep s a) (ht : Buffers.Taken a e a1) : survivingChains s = a1.incomplete := by
  unfold survivingChains
  rw [hr.lists_eq.2.1, hr.lists.unused.head_eq]
  rcases ht.lists with ⟨h1, h2⟩ | ⟨h1, h2⟩
  · rw [h1, h2]; rfl
  · rw [h1, h2]; rfl

/-- One incoming frame: no element leaves the lists, except when the frame
contradicts a chain. -/
theorem noLeak_incoming_iff [NeZero h] {s t : NetworkStackHandler n h l} {a : Buffers (Fin n)}
    (hr : Rep s a) (hs : NoLeak s) {f : RxFrame} (hc : s.call (.incoming f) = some t) :
    NoLeak t ↔ ¬ ContradictsChain s f := by
  obtain ⟨t', h1, h2⟩ := call_refines hr (.incoming f)
  rw [hc, Option.some.injEq] at h1
  subst h1
  rw [h2.noLeak_iff]
  rw [hr.noLeak_iff] at hs
  simp only [Buffers.after]
  by_cases hf : IsIPv4For f.data s.myIP f.dataLen
  · rw [if_pos hf]
    rcases Buffers.accept_all s.timedOut hr.wf (packetOf f.data s.timerCounter) with
      ⟨hp, hno⟩ | ⟨e, a1, ht, hcl, hp⟩
    · refine iff_of_true (fun i => hp.mem_iff.mpr (hs i)) ?_
      rintro ⟨-, old, hcl⟩
      rcases Buffers.take_cases hr.wf with ⟨hu, hi, -⟩ | ⟨e, a1, ht⟩
      · obtain ⟨-, c, hm, -⟩ := hcl
        rw [survivingChains, hr.lists_eq.2.1, hi] at hm
        simp at hm
      · rw [hr.val, hr.surviving ht] at hcl
        exact hno e a1 ⟨ht, clash_packetOf _ hcl⟩
    · refine iff_of_false (fun hall => ht.fresh (hp.mem_iff.mp (hall e))) ?_
      rw [not_not]
      refine ⟨hf, a.val e, ?_⟩
      rw [hr.val, hr.surviving ht]
      exact hcl
  · rw [if_neg hf]
    exact iff_of_true hs fun hcc => hf hcc.1

theorem noLeak_step [NeZero h] {s t : NetworkStackHandler n h l} {a : Buffers (Fin n)} (hr : Rep s a)
    (hs : NoLeak s) {c : Call} (hc : Consistent s c) (hst : s.call c = some t) : NoLeak t := by
  cases c with
  | incoming f => exact (noLeak_incoming_iff hr hs hst).mpr hc
  | pop =>
    obtain ⟨t', h1, h2⟩ := call_refines hr .pop
    rw [hst, Option.some.injEq] at h1
    subst h1
    rw [h2.noLeak_iff]
    rw [hr.noLeak_iff] at hs
    intro i
    have := hs i
    simp only [Buffers.after, Buffers.pop]
    split
    · exact hs i
    · rename_i c cs hrd
      simp only [Buffers.all, hrd, List.mem_append, List.flatten_cons] at this ⊢
      tauto
  | outgoing o =>
    obtain ⟨t', h1, h2⟩ := call_refines hr (.outgoing o)
    rw [hst, Option.some.injEq] at h1
    subst h1
    exact h2.noLeak_iff.mpr (hr.noLeak_iff.mp hs)
  | tick =>
    obtain ⟨t', h1, h2⟩ := call_refines hr .tick
    rw [hst, Option.some.injEq] at h1
    subst h1
    exact h2.noLeak_iff.mpr (hr.noLeak_iff.mp hs)

/-- In every run without a frame that contradicts a live chain no element is
ever lost, and the first frame that does contradict one loses an element. -/
theorem no_leak_without_contradiction [NeZero n] [NeZero h] :
    (∀ s : NetworkStackHandler n h l, ((handlerLTS n h l).Guarded Consistent).Reachable s → NoLeak s) ∧
    ∀ (s t : NetworkStackHandler n h l) (f : RxFrame),
      ((handlerLTS n h l).Guarded Consistent).Reachable s → s.call (.incoming f) = some t →
      (NoLeak t ↔ Consistent s (.incoming f)) := by
  have hinv : ∀ s, ((handlerLTS n h l).Guarded Consistent).Reachable s → (∃ a, Rep s a) ∧ NoLeak s := by
    refine LTS.Inductive.reachable ⟨?_, ?_⟩
    · rintro s ⟨mem, myMac, myIP, gatewayIP, networkMask, rfl⟩
      have hr := rep_init mem myMac myIP gatewayIP networkMask
      exact ⟨⟨_, hr⟩, hr.noLeak_iff.mpr fun i => by simp [Buffers.all]⟩
    · rintro s c t ⟨⟨a, hr⟩, hs⟩ ⟨hc, hst⟩
      obtain ⟨t', h1, h2⟩ := call_refines hr c
      have : t' = t := by
        have h3 : s.call c = some t := hst
        rw [h1] at h3; simpa using h3
      subst this
      exact ⟨⟨_, h2⟩, noLeak_step hr hs hc h1⟩
  refine ⟨fun s hs => (hinv s hs).2, fun s t f hs hc => ?_⟩
  obtain ⟨⟨a, hr⟩, hl⟩ := hinv s hs
  exact noLeak_incoming_iff hr hl hc

theorem no_leak_without_contradiction_twoBuffers :
    ∃ t, twoBuffers.call (.incoming (smallFrame 0 1)) = some t ∧ NoLeak t := by
  obtain ⟨t, ht⟩ := Option.isSome_iff_exists.mp
    (show (twoBuffers.call (.incoming (smallFrame 0 1))).isSome = true by decide +kernel)
  have hcons : Consistent twoBuffers (.incoming (smallFrame 0 1)) := by
    rintro ⟨-, old, -, c, hc, -⟩
    rw [show survivingChains twoBuffers = [] by decide] at hc
    cases hc
  exact ⟨t, ht, no_leak_without_contradiction.1 t
    ⟨twoBuffers, _, init_twoBuffers, .cons ⟨hcons, ht⟩ (.nil t)⟩⟩

/-- A last fragment at offset 8 and then a fragment at offset 16 of the same
datagram: the second one is in no list any more. -/
theorem leaks_on_fragment_beyond_last :
    ∃ s : NetworkStackHandler 2 1 1, (handlerLTS 2 1 1).Reachable s ∧ ¬ NoLeak s := by
  have hrun : (twoBuffers.calls [.incoming (smallFrame 0 1), .incoming (smallFrame 0x20 2)]).any
      (fun s => decide (¬ NoLeak s)) = true := by decide +kernel
  rw [Option.any_eq_true] at hrun
  obtain ⟨s, hs, hl⟩ := hrun
  exact ⟨s, reachable_of_calls init_twoBuffers hs, by simpa using hl⟩

/-! ## What the taken elements hold -/

/-- Every element that is not unused holds a packet with `P`. -/
def Buffers.Stored {ι : Type} (P : IPv4Packet → Prop) (a : Buffers ι) : Prop := ∀ x, x ∉ a.unused → P (a.val x)

section Stored
variable {P : IPv4Packet → Prop} {exp : IPv4Packet → Bool} {a b : Buffers (Fin n)}

theorem Buffers.Taken.stored {a1 : Buffers (Fin n)} {e : Fin n} (ht : Buffers.Taken a e a1) (ha : a.Stored P)
    {p : IPv4Packet} (hp : P p) : (a1.fill e p).Stored P := by
  intro x hx
  have hx' : x ∉ a1.unused := hx
  by_cases heq : x = e
  · subst heq
    rw [Buffers.fill_val_self]
    exact hp
  · rw [Buffers.fill_val_of_ne a1 p heq, ht.val]
    refine ha x ?_
    rcases ht.lists with ⟨hu, -⟩ | ⟨hu, -⟩
    · rw [hu]
      simp [heq, hx']
    · rw [hu]
      simp

theorem Buffers.Filed.stored (hP : ∀ p q, Alike p q → P p → P q) {e : Fin n} (hF : Buffers.Filed exp a e b)
    (ha : a.Stored P) : b.Stored P := by
  have hsub {u : List (Fin n)} (hu : a.unused <:+ u) {x : Fin n} (hx : x ∉ u) : P (a.val x) :=
    ha x fun hmem => hx (hu.subset hmem)
  cases hF with
  | fresh hS => exact fun x hx => hsub hS.unused hx
  | lost hS _ => exact fun x hx => hsub hS.unused hx
  | grown hS _ _ => exact fun x hx => hP _ _ (inherit_alike a.val e _ x) (hsub hS.unused hx)
  | done hS _ _ => exact fun x hx => hP _ _ (inherit_alike a.val e _ x) (hsub hS.unused hx)

theorem Buffers.Stored.accept (hP : ∀ p q, Alike p q → P p → P q) (hw : a.WF) (ha : a.Stored P)
    {mk : IPv4Packet → IPv4Packet} (hmk : ∀ p, P (mk p)) : (a.accept exp mk).Stored P := by
  have hA := Buffers.accept_accepted exp hw mk
  generalize a.accept exp mk = b at hA
  cases hA with
  | dropped => exact ha
  | whole ht _ => exact ht.stored ha (hmk _)
  | fragment ht _ hF => exact hF.stored hP (ht.stored ha (hmk _))

theorem Buffers.Stored.pop (ha : a.Stored P) : a.pop.Stored P := by
  unfold Buffers.pop
  split
  · exact ha
  · intro x hx
    exact ha x fun hmem => hx (List.mem_append_right _ hmem)

end Stored

/-- The sizes of the packets in the ready list are 16-bit. -/
theorem ready_sizes [NeZero n] [NeZero h] {s : NetworkStackHandler n h l} (hs : (handlerLTS n h l).Reachable s)
    {c : List (Fin n)} (hc : c ∈ readyChains s) {x : Fin n} (hx : x ∈ c) : (s.value x).dataSize < 2 ^ 16 := by
  have hinv : ∀ s, (handlerLTS n h l).Reachable s → ∃ a, Rep s a ∧ a.Stored fun p => p.dataSize < 2 ^ 16 := by
    refine LTS.Inductive.reachable ⟨fun s h0 => ?_, fun s c t hI hstep => ?_⟩
    · obtain ⟨mem, myMac, myIP, gatewayIP, networkMask, rfl⟩ := h0
      exact ⟨_, rep_init mem myMac myIP gatewayIP networkMask, fun x hx => absurd (List.mem_finRange x) hx⟩
    · obtain ⟨a, hr, ha⟩ := hI
      obtain ⟨t', h1, h2⟩ := call_refines hr c
      have hcall : s.call c = some t := hstep
      rw [hcall, Option.some.injEq] at h1
      subst h1
      refine ⟨_, h2, ?_⟩
      cases c with
      | incoming f =>
        rw [Buffers.after]
        split
        · refine ha.accept (fun p q hpq hp => ?_) hr.wf fun p => ?_
          · obtain ⟨t, rfl⟩ := hpq
            exact hp
          · exact Nat.lt_of_le_of_lt (Nat.sub_le _ _) (be16_lt _ _)
        · exact ha
      | pop => exact ha.pop
      | outgoing | tick => exact ha
  obtain ⟨a, hr, ha⟩ := hinv s hs
  rw [hr.lists_eq.2.2] at hc
  rw [hr.val]
  refine ha x fun hunused => ?_
  exact (hr.wf.not_mem_of_ready (List.mem_flatten.mpr ⟨c, hc, hx⟩)).1 hunused

end CpuScheduler.L2
