import CpuScheduler.L2Network.Frames
import CpuScheduler.L2Network.Lists

/-!
# The handler refines the three lists

`Rep s a`: the links of the handler `s` represent the buffers `a` of
`Reassembly`, and `a` satisfies the invariant `WF`. The ready list is
`ReadyList`: head, tail, `next` and `prev` agree.

`call_refines` is the simulation step: a call on a handler that represents
`a` returns, and its result represents `a.after s c`, where an accepted
IPv4 frame is `accept`, a pop is `pop` and everything else leaves the lists
alone. `rep_of_reachable` is the run version. Every result about reachable
states of the pointer structure is read off the lists.
-/
namespace CpuScheduler.L2

open Links Word NetworkStackHandler

variable {n h l : Nat}

/-- The ready chains are `rs`: head, tail and both link directions agree. -/
structure ReadyList (s : NetworkStackHandler n h l) (rs : List (List (Fin n))) : Prop where
  forward : Chains s.next s.nextFragment s.readyToReadPacketsHead rs none
  backward : Seg s.prev s.readyToReadPacketsTail (heads rs).reverse none

/-- The handler `s` represents the buffers `a`. -/
structure Rep (s : NetworkStackHandler n h l) (a : Buffers (Fin n)) : Prop where
  val : s.value = a.val
  lists : Lists s a.unused a.incomplete
  ready : ReadyList s a.ready
  wf : a.WF

/-! ## The ready list -/

theorem ReadyList.congr {s s' : NetworkStackHandler n h l} {rs : List (List (Fin n))}
    (hR : ReadyList s rs) (hh : s'.readyToReadPacketsHead = s.readyToReadPacketsHead)
    (ht : s'.readyToReadPacketsTail = s.readyToReadPacketsTail) (hp : s'.prev = s.prev)
    (hn : ∀ x ∈ rs.flatten, s'.next x = s.next x ∧ s'.nextFragment x = s.nextFragment x) :
    ReadyList s' rs := by
  refine ⟨?_, ?_⟩
  · rw [hh]; exact hR.forward.congr hn
  · rw [hp, ht]; exact hR.backward

/-- The tail is the head of the last chain. -/
theorem ReadyList.tail_eq {s : NetworkStackHandler n h l} {rs : List (List (Fin n))}
    (hR : ReadyList s rs) : s.readyToReadPacketsTail = (heads rs).getLast? := by
  rw [hR.backward.head_eq, List.head?_reverse]

theorem ReadyList.head_eq {s : NetworkStackHandler n h l} {rs : List (List (Fin n))}
    (hR : ReadyList s rs) : s.readyToReadPacketsHead = (heads rs).head? :=
  hR.forward.heads.head_eq

/-- Appending writes the links of the new head and of the old tail only. -/
theorem insertInReady_next (s : NetworkStackHandler n h l) (x : Fin n) {y : Fin n} (hy : y ≠ x)
    (ht : s.readyToReadPacketsTail ≠ some y) :
    (insertInReadyToReadPacketsList s x).next y = s.next y := by
  unfold insertInReadyToReadPacketsList
  cases htl : s.readyToReadPacketsTail with
  | none => exact Function.update_of_ne hy _ _
  | some z =>
    have hz : y ≠ z := by rintro rfl; exact ht htl
    simp only [Function.update_of_ne hz, Function.update_of_ne hy]

theorem insertInReady_eq (s : NetworkStackHandler n h l) (x : Fin n) :
    insertInReadyToReadPacketsList s x = { s with
      next := (insertInReadyToReadPacketsList s x).next
      prev := Function.update s.prev x s.readyToReadPacketsTail
      readyToReadPacketsHead := (insertInReadyToReadPacketsList s x).readyToReadPacketsHead
      readyToReadPacketsTail := some x } := by
  unfold insertInReadyToReadPacketsList
  cases s.readyToReadPacketsTail <;> rfl

theorem insertInReady_spec {s : NetworkStackHandler n h l} {rs : List (List (Fin n))} {x : Fin n}
    {xs : List (Fin n)} (hR : ReadyList s rs) (hnd : rs.flatten.Nodup) (hx : x ∉ rs.flatten)
    (hc : Seg s.nextFragment (s.nextFragment x) xs none) :
    ReadyList (insertInReadyToReadPacketsList s x) (rs ++ [x :: xs]) := by
  have hxh : x ∉ heads rs := fun hm => hx (mem_flatten_of_mem_heads hm)
  refine ⟨?_, ?_⟩
  · rcases List.eq_nil_or_concat rs with rfl | ⟨rs', d, rfl⟩
    · have ht : s.readyToReadPacketsTail = none := hR.backward
      simp only [insertInReadyToReadPacketsList, ht, List.nil_append, chains_cons, chains_nil]
      exact ⟨trivial, hc, Function.update_self _ _ _⟩
    · rw [List.concat_eq_append] at *
      obtain ⟨y, ys, rfl⟩ := List.exists_cons_of_ne_nil (hR.forward.ne_nil d (by simp))
      have ht : s.readyToReadPacketsTail = some y := by rw [hR.tail_eq]; simp [heads]
      have hxy : x ≠ y := by rintro rfl; exact hx (by simp)
      have hy : y ∉ rs'.flatten := by
        rw [List.flatten_append] at hnd
        exact (List.disjoint_of_nodup_append hnd · (by simp))
      simp only [insertInReadyToReadPacketsList, ht]
      refine chains_append.mpr ⟨some x, (hR.forward.update_next hx).update_last hy, ?_⟩
      exact chains_cons.mpr ⟨rfl, hc, by rw [Function.update_of_ne hxy, Function.update_self]; rfl⟩
  · rw [insertInReady_eq]
    simp only [heads_append, heads_cons_cons, heads_nil, List.reverse_append, List.reverse_cons,
      List.reverse_nil, List.nil_append, List.singleton_append, seg_cons]
    refine ⟨trivial, ?_⟩
    rw [Function.update_self]
    exact hR.backward.update (by simpa using hxh)

/-! ## Storing a packet -/

theorem timedOut_congr {s s' : NetworkStackHandler n h l} (ht : s'.timerCounter = s.timerCounter) :
    s'.timedOut = s.timedOut := by
  have hp : s'.passedTimeSince = s.passedTimeSince := by
    funext t; unfold passedTimeSince; rw [ht]
  funext p
  unfold timedOut
  rw [hp]

/-- The element `e` holds the packet `p`, without a next fragment. -/
def filled (s : NetworkStackHandler n h l) (e : Fin n) (p : IPv4Packet) : NetworkStackHandler n h l :=
  { s with value := Function.update s.value e p
           nextFragment := Function.update s.nextFragment e none }

theorem storePacket_eq (s : NetworkStackHandler n h l) (e : Fin n) (p : IPv4Packet) :
    storePacket s e p =
      if p.isFragment then insertInIncompleteFragmentedDatagramsList (filled s e p) e
      else some (insertInReadyToReadPacketsList (filled s e p) e) := rfl

/-- The chain that has become ready, if there is one, goes to the end of the
ready list. -/
def appendReady (s : NetworkStackHandler n h l) (dn : List (List (Fin n))) :
    NetworkStackHandler n h l :=
  match (heads dn).head? with
  | none => s
  | some x => insertInReadyToReadPacketsList s x

/-- Storing a packet is filing it among the chains and then appending what
has become ready. -/
theorem storePacket_gathered {s : NetworkStackHandler n h l} {a : Buffers (Fin n)} {e : Fin n}
    (p : IPv4Packet) (hv : s.value = a.val) (hL : Lists s a.unused a.incomplete)
    (hnd : (a.unused ++ a.incomplete.flatten).Nodup) (he : e ∉ a.unused ++ a.incomplete.flatten)
    (hen : s.next e = none) :
    ∃ s' dn, storePacket s e p = some (appendReady s' dn) ∧ (dn = [] ∨ ∃ c, dn = [c]) ∧
      (a.put s.timedOut e p).ready = a.ready ++ dn ∧ s'.value = (a.put s.timedOut e p).val ∧
      Gathered (filled s e p) s' (a.put s.timedOut e p).unused
        (a.put s.timedOut e p).incomplete dn := by
  have he' := he
  rw [List.mem_append, not_or] at he
  have hL1 : Lists (filled s e p) a.unused a.incomplete :=
    ⟨hL.unused, hL.incomplete.update_frag he.2⟩
  have hto : (filled s e p).timedOut = s.timedOut := timedOut_congr rfl
  by_cases hfrag : p.isFragment = true
  · obtain ⟨s', dn, h1, h2, h3, h4, h5⟩ :=
      collectFragment_spec (a := { a with val := Function.update a.val e p }) (e := e)
        (by rw [filled, hv]) hL1 hnd he' hen (Function.update_self _ _ _)
    rw [hto] at h2 h4 h5
    have hput : a.put s.timedOut e p =
        ({ a with val := Function.update a.val e p } : Buffers (Fin n)).insertFragment s.timedOut e := by
      unfold Buffers.put; rw [if_pos hfrag]
    refine ⟨s', dn, ?_, h3, by rw [hput]; exact h2, by rw [hput]; exact h4, by rw [hput]; exact h5⟩
    rw [storePacket_eq, if_pos hfrag, insertInIncompleteFragmentedDatagramsList, h1, Option.map_some,
      appendReady]
    cases (heads dn).head? <;> rfl
  · have hput : a.put s.timedOut e p =
        { a with val := Function.update a.val e p, ready := a.ready ++ [[e]] } := by
      unfold Buffers.put; rw [if_neg hfrag]
    rw [hput]
    refine ⟨filled s e p, [[e]], ?_, .inr ⟨_, rfl⟩, rfl, by rw [filled, hv],
      rfl, fun _ _ _ _ => rfl, fun _ _ _ => rfl, hL1, ?_⟩
    · rw [storePacket_eq, if_neg hfrag]; rfl
    · rintro c hc
      exact ⟨e, [], List.mem_singleton.mp hc, Function.update_self _ _ _⟩

/-- From `s` to `s'` at most the element array and the list heads have
changed. -/
structure SameConfig (s s' : NetworkStackHandler n h l) : Prop where
  eq : s' = { s with
    next := s'.next
    prev := s'.prev
    nextFragment := s'.nextFragment
    value := s'.value
    unusedPacketsHead := s'.unusedPacketsHead
    incompleteFragmentedDatagramsHead := s'.incompleteFragmentedDatagramsHead
    readyToReadPacketsHead := s'.readyToReadPacketsHead
    readyToReadPacketsTail := s'.readyToReadPacketsTail }

theorem SameConfig.trans {s s' s'' : NetworkStackHandler n h l} (h1 : SameConfig s s')
    (h2 : SameConfig s' s'') : SameConfig s s'' := ⟨by rw [h2.eq, h1.eq]⟩

theorem Relinked.sameConfig {ws : List (Fin n)} {s s' : NetworkStackHandler n h l}
    (hR : Relinked ws s s') : SameConfig s s' := ⟨by rw [hR.eq]⟩

theorem Gathered.sameConfig {s s' : NetworkStackHandler n h l} {u : List (Fin n)}
    {cs dn : List (List (Fin n))} (hG : Gathered s s' u cs dn) : SameConfig s s' := ⟨by rw [hG.eq]⟩

theorem sameConfig_appendReady (s : NetworkStackHandler n h l) (dn : List (List (Fin n))) :
    SameConfig s (appendReady s dn) := by
  unfold appendReady
  split
  · exact ⟨rfl⟩
  · exact ⟨by rw [insertInReady_eq]⟩

theorem storePacket_spec {s : NetworkStackHandler n h l} {a : Buffers (Fin n)} {e : Fin n}
    (p : IPv4Packet) (hr : Rep s a) (he : e ∉ a.all) (hen : s.next e = none) :
    ∃ s', storePacket s e p = some s' ∧ Rep s' (a.put s.timedOut e p) ∧ SameConfig s s' := by
  have he' : e ∉ a.unused ++ a.incomplete.flatten ∧ e ∉ a.ready.flatten := by
    rwa [Buffers.all, List.mem_append, not_or] at he
  obtain ⟨s', dn, h1, h2, h3, h4, h5⟩ :=
    storePacket_gathered p hr.val hr.lists hr.wf.nodup_lists he'.1 hen
  have hwf : (a.put s.timedOut e p).WF := hr.wf.put he p
  -- the chains that were ready before are as they were
  have hready : ReadyList s' a.ready := by
    refine hr.ready.congr (by rw [h5.eq]; rfl) (by rw [h5.eq]; rfl) (by rw [h5.eq]; rfl) ?_
    intro x hx
    have hx' := hwf.not_mem_of_ready (x := x) (by rw [h3]; simp [hx])
    have hdn : x ∉ dn.flatten := by
      have := hwf.nodup_ready
      rw [h3, List.flatten_append] at this
      exact fun hm => List.disjoint_of_nodup_append this hx hm
    have hxe : x ≠ e := by rintro rfl; exact he'.2 hx
    refine ⟨h5.next x hx'.1 (fun hm => hx'.2 (mem_flatten_of_mem_heads hm))
      (fun hm => hdn (mem_flatten_of_mem_heads hm)), ?_⟩
    rw [h5.frag x hx'.2 hdn]
    exact Function.update_of_ne hxe _ _
  have hcfg : SameConfig s (filled s e p) := ⟨rfl⟩
  refine ⟨_, h1, ?_, (hcfg.trans h5.sameConfig).trans (sameConfig_appendReady s' dn)⟩
  rcases h2 with rfl | ⟨c, rfl⟩
  · exact ⟨h4, h5.lists, by rw [h3, List.append_nil]; exact hready, hwf⟩
  · obtain ⟨x, xs, rfl, hseg⟩ := h5.gone c (by simp)
    have hnd := hwf.nodup_ready
    rw [h3, List.flatten_append, List.nodup_append] at hnd
    have hxr : x ∉ a.ready.flatten := fun hm => hnd.2.2 x hm x (by simp) rfl
    have hR := insertInReady_spec hready hnd.1 hxr hseg
    have hready' : (x :: xs ∈ (a.put s.timedOut e p).ready) := by rw [h3]; simp
    -- the links written are those of ready elements
    have hn : ∀ y, y ∉ (a.put s.timedOut e p).ready.flatten →
        (insertInReadyToReadPacketsList s' x).next y = s'.next y := by
      intro y hy
      refine insertInReady_next s' x ?_ ?_
      · rintro rfl; exact hy (List.mem_flatten.mpr ⟨_, hready', by simp⟩)
      · intro ht
        rw [hready.tail_eq] at ht
        refine hy ?_
        rw [h3, List.flatten_append]
        exact List.mem_append_left _ (mem_flatten_of_mem_heads (List.mem_of_getLast? ht))
    refine ⟨?_, ?_, by rw [h3]; exact hR, hwf⟩
    · show (insertInReadyToReadPacketsList s' x).value = _
      rw [insertInReady_eq, ← h4]
    · show Lists (insertInReadyToReadPacketsList s' x) _ _
      refine h5.lists.congr (by rw [insertInReady_eq]) (by rw [insertInReady_eq]) ?_ ?_
      · intro y hy
        exact hn y fun hm => (hwf.not_mem_of_ready hm).1 hy
      · intro y hy
        exact ⟨hn y fun hm => (hwf.not_mem_of_ready hm).2 hy, by rw [insertInReady_eq]⟩

/-! ## Popping -/

/-- The new front of the ready list has no predecessor. -/
def clearPrev (prev : Fin n → Ptr n) (rs : List (List (Fin n))) : Fin n → Ptr n :=
  match (heads rs).head? with
  | none => prev
  | some b => Function.update prev b none

/-- Popping frees the front chain and makes the next one the head. -/
theorem popLatestIPv4Packet_eq {s : NetworkStackHandler n h l} {x : Fin n} {xs : List (Fin n)}
    {rs : List (List (Fin n))} (hR : ReadyList s ((x :: xs) :: rs))
    (hnd : ((x :: xs) ++ rs.flatten).Nodup) :
    ∃ nx, s.popLatestIPv4Packet = some { s with
        next := nx
        prev := clearPrev s.prev rs
        unusedPacketsHead := some x
        readyToReadPacketsHead := (heads rs).head?
        readyToReadPacketsTail := if rs = [] then none else s.readyToReadPacketsTail } ∧
      (∀ y, y ∉ x :: xs → nx y = s.next y) ∧ Seg nx (some x) (x :: xs) s.unusedPacketsHead := by
  obtain ⟨hh, hseg, hrs⟩ := chains_cons.mp hR.forward
  have hndx : (x :: xs).Nodup := (List.nodup_append.mp hnd).1
  have ht := hR.tail_eq
  let s1 : NetworkStackHandler n h l :=
    { s with
      prev := clearPrev s.prev rs
      readyToReadPacketsHead := (heads rs).head?
      readyToReadPacketsTail := if rs = [] then none else s.readyToReadPacketsTail }
  have hpop : s.popLatestIPv4Packet =
      insertFragmentedPacketsInUnusedPacketsList s1 (some x) := by
    rw [popLatestIPv4Packet, hh]
    dsimp only
    rcases rs with _ | ⟨c, rs⟩
    · have hn : s.next x = none := hrs
      have htx : s.readyToReadPacketsTail = some x := ht
      rw [if_pos htx]
      simp only [hn]
      rfl
    · obtain ⟨y, ys, rfl, hn, -⟩ := hrs
      have hne : s.readyToReadPacketsTail ≠ some x := by
        rw [ht, heads_cons_cons, heads_cons_cons, List.getLast?_cons_cons]
        intro hl
        have hm : x ∈ ((y :: ys) :: rs).flatten := by
          refine mem_flatten_of_mem_heads ?_
          rw [heads_cons_cons]; exact List.mem_of_getLast? hl
        exact List.disjoint_of_nodup_append hnd (by simp) hm
      rw [if_neg hne]
      simp only [hn, hh]
      rfl
  obtain ⟨nx, h1, h2, h3⟩ := insertFragmentedPackets_spec (s := s1) hseg hndx
  exact ⟨nx, by rw [hpop, h1], h2, h3⟩

theorem popLatestIPv4Packet_spec {s : NetworkStackHandler n h l} {a : Buffers (Fin n)}
    (hr : Rep s a) : ∃ s', s.popLatestIPv4Packet = some s' ∧ Rep s' a.pop := by
  have hwf := hr.wf.pop
  obtain ⟨hv, hL, hR, hw⟩ := hr
  unfold Buffers.pop at hwf ⊢
  rcases ha : a.ready with _ | ⟨c, rs⟩
  · rw [ha] at hR
    have hh : s.readyToReadPacketsHead = none := hR.forward
    exact ⟨s, by rw [popLatestIPv4Packet, hh], hv, hL, by rw [ha]; exact hR, hw⟩
  · rw [ha] at hR hwf
    obtain ⟨x, xs, rfl, -, -, hrs⟩ := hR.forward
    have hndr : ((x :: xs) ++ rs.flatten).Nodup := by
      have := hw.nodup_ready
      rwa [ha] at this
    obtain ⟨nx, h1, h2, h3⟩ := popLatestIPv4Packet_eq hR hndr
    -- what is not in the popped chain keeps its links
    have hout : ∀ y, y ∉ a.ready.flatten ∨ y ∈ rs.flatten → nx y = s.next y := by
      rintro y (hy | hy)
      · exact h2 y fun hm => hy (by rw [ha]; exact List.mem_append_left _ hm)
      · exact h2 y fun hm => List.disjoint_of_nodup_append hndr hm hy
    refine ⟨_, h1, hv, ⟨?_, ?_⟩, ⟨?_, ?_⟩, hwf⟩
    · refine seg_append.mpr ⟨_, h3, hL.unused.congr fun y hy => hout y (.inl fun hm => ?_)⟩
      exact (hw.not_mem_of_ready hm).1 hy
    · refine hL.incomplete.congr fun y hy => ⟨hout y (.inl fun hm => ?_), rfl⟩
      exact (hw.not_mem_of_ready hm).2 hy
    · have hhd : (heads rs).head? = s.next x := (hrs.heads.head_eq).symm
      show Chains nx s.nextFragment (heads rs).head? rs none
      rw [hhd]
      exact hrs.congr fun y hy => ⟨hout y (.inr hy), rfl⟩
    · have hback : Seg s.prev s.readyToReadPacketsTail ((heads rs).reverse ++ [x]) none := by
        simpa using hR.backward
      rcases rs with _ | ⟨c, rs⟩
      · rfl
      · obtain ⟨y, ys, rfl, -⟩ := hrs
        have hy : y ∉ (heads rs).reverse := by
          rw [List.mem_reverse]
          intro hm
          rw [List.flatten_cons] at hndr
          exact List.disjoint_of_nodup_append (List.nodup_append.mp hndr).2.1 (by simp)
            (mem_flatten_of_mem_heads hm)
        obtain ⟨m, k1, k2⟩ := seg_append.mp hback
        rw [heads_cons_cons, List.reverse_cons] at k1 ⊢
        exact k1.update_last hy

/-! ## Calls -/

/-- Nothing but the ARP table and the identification counter was touched. -/
structure SameBuffers (s s' : NetworkStackHandler n h l) : Prop where
  eq : s' = { s with
    arpEntries := s'.arpEntries
    identificationCounter := s'.identificationCounter }

theorem SameBuffers.refl (s : NetworkStackHandler n h l) : SameBuffers s s := ⟨rfl⟩

theorem Rep.congr {s s' : NetworkStackHandler n h l} {a : Buffers (Fin n)} (hr : Rep s a)
    (hs : SameBuffers s s') : Rep s' a := by
  rw [hs.eq]
  exact ⟨hr.val, ⟨hr.lists.unused, hr.lists.incomplete⟩, ⟨hr.ready.forward, hr.ready.backward⟩, hr.wf⟩

theorem Rep.tick {s : NetworkStackHandler n h l} {a : Buffers (Fin n)} (hr : Rep s a) :
    Rep s.incrementTimerCounter a :=
  ⟨hr.val, ⟨hr.lists.unused, hr.lists.incomplete⟩, ⟨hr.ready.forward, hr.ready.backward⟩, hr.wf⟩

theorem sameBuffers_setARPEntry (s : NetworkStackHandler n h l) (b : Fin h) (i : Fin l)
    (e : ARPEntry) : SameBuffers s (s.setARPEntry b i e) := ⟨rfl⟩

theorem sameBuffers_learnARP [NeZero h] (s : NetworkStackHandler n h l) (data : Nat → UInt8) :
    SameBuffers s (learnARP s data) := by
  unfold learnARP
  split
  · exact .refl s
  · exact sameBuffers_setARPEntry _ _ _ _

theorem SameBuffers.trans {s s' s'' : NetworkStackHandler n h l} (h1 : SameBuffers s s')
    (h2 : SameBuffers s' s'') : SameBuffers s s'' := ⟨by rw [h2.eq, h1.eq]⟩

/-- The ARP part of a send writes one slot of the bucket of the next hop. -/
inductive Resolves [NeZero h] (s : NetworkStackHandler n h l) (nextHop : UInt32) :
    Resolution n h l → Prop where
  | full : Resolves s nextHop .full
  | known (i : Fin l) (e : ARPEntry) :
      Resolves s nextHop (.known i (s.setARPEntry (bucket nextHop) i e))
  | waiting (i : Fin l) (e : ARPEntry) (size : Nat) (buffer : Nat → UInt8) :
      Resolves s nextHop (.waiting size buffer (s.setARPEntry (bucket nextHop) i e))

theorem resolves_resolve [NeZero h] (s : NetworkStackHandler n h l) (nextHop : UInt32)
    (writeBuffer : Nat → UInt8) : Resolves s nextHop (s.resolve nextHop writeBuffer) := by
  unfold resolve
  dsimp only
  split
  · exact .full
  · rename_i i _
    generalize (if (s.arpEntries (bucket nextHop) i).IP ≠ nextHop then _ else _ : ARPEntry) = entry
    split
    · exact .waiting i _ _ _
    · split
      · split
        · exact .known i _
        · split
          · exact .waiting i _ _ _
          · exact .waiting i _ _ _
      · split
        · exact .waiting i _ _ _
        · exact .known i _

theorem sameBuffers_sendFragment (s : NetworkStackHandler n h l) (b : Fin h) (i : Fin l)
    (destinationIP : UInt32) (protocol : UInt8) (data : Nat → UInt8) (dataLen : Nat)
    (identification : UInt16) (fragmentOffset : Nat) (writeBuffer : Nat → UInt8) :
    SameBuffers s (s.sendFragment b i destinationIP protocol data dataLen identification
      fragmentOffset writeBuffer).2 := by
  unfold sendFragment
  dsimp only
  split <;> exact ⟨rfl⟩

theorem sameBuffers_outgoing [NeZero h] (s : NetworkStackHandler n h l) (a : OutgoingArgs) :
    SameBuffers s (s.outgoing a).2 := by
  unfold outgoing handleOutgoingIPv4Packet
  split
  · rename_i data buffer _ _
    dsimp only
    split
    · exact .refl s
    · have hr := resolves_resolve s (s.nextHopIP a.destinationIP) buffer
      generalize s.resolve (s.nextHopIP a.destinationIP) buffer = r at hr
      cases hr with
      | full => exact .refl s
      | known i e =>
        exact (sameBuffers_setARPEntry s _ i e).trans (sameBuffers_sendFragment ..)
      | waiting i e => exact sameBuffers_setARPEntry s _ i e
  · exact .refl s

theorem acceptFrame_spec {s : NetworkStackHandler n h l} {a : Buffers (Fin n)} (hr : Rep s a)
    (data : Nat → UInt8) : ∃ s', acceptFrame s data = some (.ipv4Packet, s') ∧
      Rep s' (a.accept s.timedOut (packetOf data s.timerCounter)) ∧ SameConfig s s' := by
  obtain ⟨s1, h1, h2, h3, h4⟩ := takeUnusedPacket_spec hr.lists hr.wf.nodup_lists
  have htake : a.take = (a.take.1, a.take.2) := rfl
  obtain ⟨hw, hv, hrd, hperm⟩ := hr.wf.take htake
  have hnd1 : (a.take.1.toList ++ a.take.2.all).Nodup := hperm.nodup_iff.mpr hr.wf.nodup
  -- the ready list does not notice
  have hR1 : ReadyList s1 a.take.2.ready := by
    rw [hrd]
    refine hr.ready.congr (by rw [h3.eq]) (by rw [h3.eq]) (by rw [h3.eq]) fun x hx => ⟨?_, ?_⟩
    · refine h3.next x fun hm => ?_
      rw [← hrd] at hx
      rcases List.mem_append.mp hm with hm | hm
      · exact List.disjoint_of_nodup_append hnd1 hm (List.mem_append_right _ hx)
      · exact (hw.not_mem_of_ready hx).1 hm
    · rw [h3.nextFragment]
  have hr1 : Rep s1 a.take.2 := ⟨by rw [h3.value, hv, hr.val], h2, hR1, hw⟩
  have hto : s1.timedOut = s.timedOut := h3.timedOut
  have htc : s1.timerCounter = s.timerCounter := by rw [h3.eq]
  unfold acceptFrame Buffers.accept
  rw [h1]
  rcases ht : a.take with ⟨o, b⟩
  rw [ht] at hr1 hnd1 h4
  cases o with
  | none => exact ⟨s1, rfl, hr1, h3.sameConfig⟩
  | some e =>
    have he : e ∉ b.all := (List.nodup_cons.mp hnd1).1
    obtain ⟨s2, k1, k2, k3⟩ := storePacket_spec (packetOf data s1.timerCounter (s1.value e)) hr1 he
      (h4 e rfl)
    refine ⟨s2, by dsimp only; rw [k1]; rfl, ?_, h3.sameConfig.trans k3⟩
    rw [hto, htc, hr1.val] at k2
    exact k2

/-- The lists after a call. -/
def Buffers.after (s : NetworkStackHandler n h l) (a : Buffers (Fin n)) : Call → Buffers (Fin n)
  | .incoming f => if IsIPv4For f.data s.myIP f.dataLen then
      a.accept s.timedOut (packetOf f.data s.timerCounter) else a
  | .pop => a.pop
  | .outgoing _ => a
  | .tick => a

/-- One call on a handler that represents `a`: it comes to an end, and in a
state that represents the lists after the call. -/
theorem call_refines [NeZero h] {s : NetworkStackHandler n h l} {a : Buffers (Fin n)} (hr : Rep s a)
    (c : Call) : ∃ s', s.call c = some s' ∧ Rep s' (a.after s c) := by
  cases c with
  | incoming f =>
    simp only [NetworkStackHandler.call, incoming, Buffers.after]
    by_cases h1 : IsIPv4For f.data s.myIP f.dataLen
    · rw [handleIncoming_of_isIPv4For s f.data f.dataLen h1, if_pos h1]
      obtain ⟨s', k1, k2, -⟩ := acceptFrame_spec hr f.data
      exact ⟨s', by rw [k1]; rfl, k2⟩
    · rw [if_neg h1]
      by_cases h2 : IsARPReply f.data f.dataLen
      · rw [handleIncoming_of_isARPReply s f.data f.dataLen h2]
        exact ⟨_, rfl, hr.congr (sameBuffers_learnARP s f.data)⟩
      · obtain ⟨t, ht⟩ := handleIncoming_of_other s f.data f.dataLen h1 h2
        exact ⟨s, by rw [ht]; rfl, hr⟩
  | pop => exact popLatestIPv4Packet_spec hr
  | outgoing o => exact ⟨_, rfl, hr.congr (sameBuffers_outgoing s o)⟩
  | tick => exact ⟨_, rfl, hr.tick⟩

/-- The timer after a call. -/
def Call.time (s : NetworkStackHandler n h l) : Call → Int
  | .tick => s.incrementTimerCounter.timerCounter
  | _ => s.timerCounter

theorem sameConfig_pop {s t : NetworkStackHandler n h l} {a : Buffers (Fin n)} (hr : Rep s a)
    (hc : s.popLatestIPv4Packet = some t) : SameConfig s t := by
  rcases ha : a.ready with _ | ⟨c, rs⟩
  · have hh : s.readyToReadPacketsHead = none := by
      have := hr.ready.forward
      rwa [ha] at this
    rw [popLatestIPv4Packet, hh] at hc
    cases hc
    exact ⟨rfl⟩
  · have hR := hr.ready
    have hnd := hr.wf.nodup_ready
    rw [ha] at hR hnd
    obtain ⟨x, xs, rfl, -⟩ := hR.forward
    obtain ⟨nx, k1, -⟩ := popLatestIPv4Packet_eq hR hnd
    rw [k1] at hc
    cases hc
    exact ⟨rfl⟩

/-- A call is a tick, or it changes the elements and the list heads, or the
ARP table and the identification counter. -/
theorem call_cases [NeZero h] {s t : NetworkStackHandler n h l} {a : Buffers (Fin n)} (hr : Rep s a)
    {c : Call} (hc : s.call c = some t) :
    (c = .tick ∧ t = s.incrementTimerCounter) ∨ (c ≠ .tick ∧ (SameConfig s t ∨ SameBuffers s t)) := by
  cases c with
  | incoming f =>
    refine .inr ⟨Call.noConfusion, ?_⟩
    simp only [NetworkStackHandler.call, incoming] at hc
    by_cases h1 : IsIPv4For f.data s.myIP f.dataLen
    · rw [handleIncoming_of_isIPv4For s f.data f.dataLen h1] at hc
      obtain ⟨s', k1, -, k3⟩ := acceptFrame_spec hr f.data
      rw [k1] at hc
      cases hc
      exact .inl k3
    · by_cases h2 : IsARPReply f.data f.dataLen
      · rw [handleIncoming_of_isARPReply s f.data f.dataLen h2] at hc
        cases hc
        exact .inr (sameBuffers_learnARP s f.data)
      · obtain ⟨ty, ht⟩ := handleIncoming_of_other s f.data f.dataLen h1 h2
        rw [ht] at hc
        cases hc
        exact .inr (.refl s)
  | pop => exact .inr ⟨Call.noConfusion, .inl (sameConfig_pop hr hc)⟩
  | outgoing o =>
    cases hc
    exact .inr ⟨Call.noConfusion, .inr (sameBuffers_outgoing s o)⟩
  | tick =>
    cases hc
    exact .inl ⟨rfl, rfl⟩

theorem Call.time_of_ne {c : Call} (hc : c ≠ .tick) (s : NetworkStackHandler n h l) : c.time s = s.timerCounter := by
  cases c with
  | tick => exact absurd rfl hc
  | incoming | pop | outgoing => rfl

/-- No call changes the addresses, and only a tick the timer. -/
theorem call_config [NeZero h] {s t : NetworkStackHandler n h l} {a : Buffers (Fin n)} (hr : Rep s a)
    {c : Call} (hc : s.call c = some t) : t.myIP = s.myIP ∧ t.timerCounter = c.time s := by
  rcases call_cases hr hc with ⟨rfl, rfl⟩ | ⟨hne, hsame | hsame⟩
  · exact ⟨rfl, rfl⟩
  · rw [Call.time_of_ne hne, hsame.eq]
    exact ⟨rfl, rfl⟩
  · rw [Call.time_of_ne hne, hsame.eq]
    exact ⟨rfl, rfl⟩

theorem call_nextHopIP [NeZero h] {s t : NetworkStackHandler n h l} {a : Buffers (Fin n)} (hr : Rep s a)
    {c : Call} (hc : s.call c = some t) : t.nextHopIP = s.nextHopIP := by
  rcases call_cases hr hc with ⟨_, rfl⟩ | ⟨_, hsame | hsame⟩
  · rfl
  · rw [hsame.eq]
    rfl
  · rw [hsame.eq]
    rfl

/-! ## Runs -/

theorem rep_init [NeZero n] (mem : NetworkStackHandler n h l) (myMac : Fin 6 → UInt8)
    (myIP gatewayIP : UInt32) (networkMask : Nat) :
    Rep (init mem myMac myIP gatewayIP networkMask) ⟨mem.value, List.finRange n, [], []⟩ := by
  refine ⟨rfl, ⟨?_, rfl⟩, ⟨rfl, rfl⟩, ⟨?_, .nil, by simp, by simp, by simp⟩⟩
  · exact seg_finRange
  · simpa [Buffers.all] using List.nodup_finRange n

/-- In every reachable state the pointer structure represents well-formed
lists. -/
theorem rep_of_reachable [NeZero n] [NeZero h] {s : NetworkStackHandler n h l}
    (hs : (handlerLTS n h l).Reachable s) : ∃ a, Rep s a := by
  refine LTS.Inductive.reachable (I := fun s => ∃ a, Rep s a) ⟨?_, ?_⟩ s hs
  · rintro s ⟨mem, myMac, myIP, gatewayIP, networkMask, rfl⟩
    exact ⟨_, rep_init mem myMac myIP gatewayIP networkMask⟩
  · rintro s c t ⟨a, ha⟩ hstep
    obtain ⟨s', h1, h2⟩ := call_refines ha c
    rw [handlerLTS] at hstep
    dsimp only at hstep
    rw [h1, Option.some.injEq] at hstep
    exact ⟨_, hstep ▸ h2⟩

end CpuScheduler.L2
