import CpuScheduler.L5Concurrency.PopSteps

/-!
# Interrupt handlers beside a pop

Compare the memory `σ` of an interrupted pop with the memory `τ` of a handler
on which the same interrupts ran and no pop was begun (the serial handler).
The front chain of the serial handler's ready list is `x :: xs`, the chain
being popped, and `rs` are the chains behind it.

`Ahead ws rs τ σ`: memory `σ` is ahead of `τ` by what the pop has already
written. The two agree but for the links of the elements `ws`, the `prev`
link of the new front and the two ends of the ready list. An interrupt
handler run on both keeps this relation (`call_ahead`), because what it does
is determined by the unused and incomplete lists, which both share: the list
specifications of `L2Network` say which lists result, and the links are
determined by the lists (`lists_unique`).
-/
namespace CpuScheduler.L5

open Links L2 L2.NetworkStackHandler

variable {n h l : Nat}

/-- Memory `σ` is ahead of `τ` by writes of a pop. -/
structure Ahead (ws : List (Fin n)) (rs : List (List (Fin n))) (τ σ : NetworkStackHandler n h l) :
    Prop where
  eq : σ = { τ with
    next := σ.next
    prev := clearPrev τ.prev rs
    readyToReadPacketsHead := σ.readyToReadPacketsHead
    readyToReadPacketsTail := if rs = [] then none else τ.readyToReadPacketsTail }
  next : ∀ y, y ∉ ws → σ.next y = τ.next y

section Ahead
variable {ws : List (Fin n)} {rs : List (List (Fin n))} {τ σ : NetworkStackHandler n h l}
  {u : List (Fin n)} {cs : List (List (Fin n))}

/-- The two memories have the same unused list and incomplete chains. -/
theorem Ahead.lists (hA : Ahead ws rs τ σ) (hL : Lists τ u cs)
    (hu : ∀ y ∈ ws, y ∉ u ++ cs.flatten) : Lists σ u cs := by
  have hn : ∀ y, y ∈ u ++ cs.flatten → σ.next y = τ.next y := fun y hy =>
    hA.next y fun hm => hu y hm hy
  refine hL.congr (by rw [hA.eq]) (by rw [hA.eq]) ?_ ?_
  · exact fun y hy => hn y (List.mem_append_left _ hy)
  · exact fun y hy => ⟨hn y (List.mem_append_right _ hy), by rw [hA.eq]⟩

/-- Two memories with the same lists have the same links in them. -/
theorem lists_unique {s t : NetworkStackHandler n h l} (hs : Lists s u cs) (ht : Lists t u cs) :
    s.unusedPacketsHead = t.unusedPacketsHead ∧
      s.incompleteFragmentedDatagramsHead = t.incompleteFragmentedDatagramsHead ∧
      (∀ y ∈ u ++ heads cs, s.next y = t.next y) ∧
      ∀ y ∈ cs.flatten, s.nextFragment y = t.nextFragment y := by
  refine ⟨hs.unused.start_unique ht.unused, hs.incomplete.heads.start_unique ht.incomplete.heads,
    fun y hy => ?_, hs.incomplete.frag_unique ht.incomplete⟩
  rcases List.mem_append.mp hy with hy | hy
  · exact hs.unused.next_unique ht.unused y hy
  · exact hs.incomplete.heads.next_unique ht.incomplete.heads y hy

/-- Taking a buffer, on both memories. -/
theorem take_ahead {a : Buffers (Fin n)} (hA : Ahead ws rs τ σ) (hL : Lists τ a.unused a.incomplete)
    (hnd : (a.unused ++ a.incomplete.flatten).Nodup)
    (hdis : ∀ y ∈ ws, y ∉ a.unused ++ a.incomplete.flatten)
    (hdis' : ∀ y ∈ ws, y ∉ a.take.1.toList ++ a.take.2.unused) :
    ∃ τ' σ', takeUnusedPacket τ = some (a.take.1, τ') ∧ takeUnusedPacket σ = some (a.take.1, σ') ∧
      Lists τ' a.take.2.unused a.take.2.incomplete ∧ Ahead ws rs τ' σ' ∧
      Relinked (a.take.1.toList ++ a.take.2.unused) τ τ' ∧
      (∀ e, a.take.1 = some e → τ'.next e = none ∧ σ'.next e = none) ∧
      (∀ y ∈ ws, σ'.next y = σ.next y) ∧
      σ'.readyToReadPacketsHead = σ.readyToReadPacketsHead := by
  obtain ⟨τ', h1, h2, h3, h4⟩ := takeUnusedPacket_spec hL hnd
  obtain ⟨σ', k1, k2, k3, k4⟩ := takeUnusedPacket_spec (hA.lists hL hdis) hnd
  obtain ⟨d1, d2, d3, -⟩ := lists_unique k2 h2
  refine ⟨τ', σ', h1, k1, h2, ⟨?_, fun y hy => ?_⟩, h3, fun e he => ⟨h4 e he, k4 e he⟩,
    fun y hy => k3.next y (hdis' y hy), by rw [k3.eq]⟩
  · rw [k3.eq, d1, d2, hA.eq, h3.eq]
  · by_cases hm : y ∈ a.take.1.toList ++ a.take.2.unused
    · rcases List.mem_append.mp hm with hm | hm
      · have he : a.take.1 = some y := by simpa using hm
        rw [h4 y he, k4 y he]
      · exact d3 y (List.mem_append_left _ hm)
    · rw [k3.next y hm, h3.next y hm, hA.next y hy]

end Ahead

/-! ## Appending to the ready list -/

section Append
variable {x : Fin n} {xs : List (Fin n)} {rs : List (List (Fin n))} {τ σ : NetworkStackHandler n h l}

theorem clearPrev_append {prev : Fin n → Ptr n} {y b : Fin n} {ys : List (Fin n)} {v : Ptr n}
    (hb : (heads rs).head? = some b) (hy : y ≠ b) :
    clearPrev (Function.update prev y v) (rs ++ [y :: ys]) =
      Function.update (clearPrev prev rs) y v := by
  have hb' : (heads (rs ++ [y :: ys])).head? = some b := by
    rw [heads_append, List.head?_append, hb]; rfl
  simp only [clearPrev, hb, hb']
  exact Function.update_comm hy _ _ _

/-- A chain goes to the end of both ready lists. If the pop has emptied the
list of `σ`, its head is the new chain there; the serial handler writes the
link of `x` instead. -/
theorem insertInReady_ahead {y : Fin n} (ys : List (Fin n)) (hA : Ahead (x :: xs ++ [y]) rs τ σ)
    (ht : τ.readyToReadPacketsTail = (heads ((x :: xs) :: rs)).getLast?)
    (hnd : ((x :: xs) ++ rs.flatten).Nodup) (hy : y ∉ (x :: xs) ++ rs.flatten)
    (hne : ∀ c ∈ rs, c ≠ []) :
    Ahead (x :: xs) (rs ++ [y :: ys]) (insertInReadyToReadPacketsList τ y)
        (insertInReadyToReadPacketsList σ y) ∧
      (insertInReadyToReadPacketsList σ y).readyToReadPacketsHead =
        (if rs = [] then some y else σ.readyToReadPacketsHead) ∧
      ∀ z ∈ x :: xs, (insertInReadyToReadPacketsList σ y).next z = σ.next z := by
  rw [List.mem_append, not_or] at hy
  have hsub : ∀ z, z ∉ x :: xs → z ≠ y → σ.next z = τ.next z := fun z h1 h2 =>
    hA.next z (by rw [List.mem_append, List.mem_singleton]; tauto)
  have hpr : σ.prev = clearPrev τ.prev rs := by rw [hA.eq]
  have htl : σ.readyToReadPacketsTail = if rs = [] then none else τ.readyToReadPacketsTail := by
    rw [hA.eq]
  cases rs with
  | nil =>
    rw [if_pos rfl] at htl
    have hτ : τ.readyToReadPacketsTail = some x := ht
    refine ⟨⟨?_, fun z hz => ?_⟩, ?_, fun z hz => ?_⟩
    · rw [insertInReady_eq σ, insertInReady_eq τ, hA.eq]
      simp only [clearPrev, heads_nil, heads_cons_cons, List.nil_append, List.head?_cons,
        Function.update_idem, List.cons_ne_self, if_false]
      rfl
    · simp only [insertInReadyToReadPacketsList, htl, hτ]
      have hzx : z ≠ x := by rintro rfl; exact hz (by simp)
      rw [Function.update_of_ne hzx]
      by_cases hzy : z = y
      · rw [hzy, Function.update_self, Function.update_self]
      · rw [Function.update_of_ne hzy, Function.update_of_ne hzy, hsub z hz hzy]
    · simp only [insertInReadyToReadPacketsList, htl, if_true]
    · refine insertInReady_next σ y ?_ (by rw [htl]; simp)
      rintro rfl; exact hy.1 hz
  | cons c rs =>
    rw [if_neg (by simp)] at htl
    obtain ⟨b, bs, rfl⟩ := List.exists_cons_of_ne_nil (hne c (by simp))
    rw [heads_cons_cons, heads_cons_cons, List.getLast?_cons_cons, ← heads_cons_cons b bs] at ht
    obtain ⟨t, hlast⟩ : ∃ t, (heads ((b :: bs) :: rs)).getLast? = some t :=
      Option.isSome_iff_exists.mp (by simp)
    have hτ : τ.readyToReadPacketsTail = some t := by rw [ht, hlast]
    have htm : t ∈ ((b :: bs) :: rs).flatten := mem_flatten_of_mem_heads (List.mem_of_getLast? hlast)
    have hyb : y ≠ b := by rintro rfl; exact hy.2 (by simp)
    have hyt : y ≠ t := by rintro rfl; exact hy.2 htm
    have htx : t ∉ x :: xs := fun hm => List.disjoint_of_nodup_append hnd hm htm
    refine ⟨⟨?_, fun z hz => ?_⟩, ?_, fun z hz => ?_⟩
    · rw [insertInReady_eq σ, insertInReady_eq τ, clearPrev_append rfl hyb, hA.eq]
      rfl
    · simp only [insertInReadyToReadPacketsList, htl, hτ]
      by_cases hzt : z = t
      · rw [hzt, Function.update_self, Function.update_self]
      · rw [Function.update_of_ne hzt, Function.update_of_ne hzt]
        by_cases hzy : z = y
        · rw [hzy, Function.update_self, Function.update_self]
        · rw [Function.update_of_ne hzy, Function.update_of_ne hzy, hsub z hz hzy]
    · simp only [insertInReadyToReadPacketsList, htl, hτ]
      rw [if_neg (by simp)]
    · refine insertInReady_next σ y ?_ ?_
      · rintro rfl; exact hy.1 hz
      · rw [htl, hτ]
        intro he
        cases he
        exact htx hz

end Append

/-! ## Interrupt handlers -/

/-- What an interrupt handler does to memory `σ`, where the serial handler
ends in `τ'`: it stays ahead, chains are only appended, the head of the ready
list is written only if the list was empty, and the links of the chain being
popped are left alone. -/
structure Followed (x : Fin n) (xs : List (Fin n)) (rs rs' : List (List (Fin n)))
    (σ τ' σ' : NetworkStackHandler n h l) : Prop where
  ahead : Ahead (x :: xs) rs' τ' σ'
  grown : ∃ dn, rs' = rs ++ dn
  head : σ'.readyToReadPacketsHead =
    if rs = [] ∧ rs' ≠ [] then (heads rs').head? else σ.readyToReadPacketsHead
  next : ∀ z ∈ x :: xs, σ'.next z = σ.next z

section Interrupt
variable {x : Fin n} {xs : List (Fin n)} {rs : List (List (Fin n))} {τ σ : NetworkStackHandler n h l}
  {a : Buffers (Fin n)}

theorem Ahead.value (hA : Ahead (x :: xs) rs τ σ) : σ.value = τ.value := by rw [hA.eq]

theorem Ahead.nextFragment {ws : List (Fin n)} (hA : Ahead ws rs τ σ) :
    σ.nextFragment = τ.nextFragment := by rw [hA.eq]

theorem Ahead.timerCounter (hA : Ahead (x :: xs) rs τ σ) : σ.timerCounter = τ.timerCounter := by
  rw [hA.eq]

/-- What filing a packet does to the links is the same in both memories. -/
theorem gathered_ahead {τ' σ' : NetworkStackHandler n h l} {e : Fin n} {p : IPv4Packet}
    {u : List (Fin n)} {cs dn : List (List (Fin n))} (hA : Ahead (x :: xs) rs τ σ)
    (hτ : Gathered (filled τ e p) τ' u cs dn) (hσ : Gathered (filled σ e p) σ' u cs dn)
    (hv : σ'.value = τ'.value) : Ahead (x :: xs ++ heads dn) rs τ' σ' := by
  obtain ⟨d1, d2, d3, d4⟩ := lists_unique hσ.lists hτ.lists
  have hfrag : σ'.nextFragment = τ'.nextFragment := by
    funext y
    by_cases hc : y ∈ cs.flatten
    · exact d4 y hc
    · by_cases hd : y ∈ dn.flatten
      · obtain ⟨c, hc', hy⟩ := List.mem_flatten.mp hd
        obtain ⟨z, zs, rfl, hseg⟩ := hσ.gone c hc'
        obtain ⟨z', zs', he, hseg'⟩ := hτ.gone _ hc'
        cases he
        have h1 : Seg σ'.nextFragment (some z) (z :: zs) none := ⟨rfl, hseg⟩
        have h2 : Seg τ'.nextFragment (some z) (z :: zs) none := ⟨rfl, hseg'⟩
        exact h1.next_unique h2 y hy
      · rw [hσ.frag y hc hd, hτ.frag y hc hd]
        simp only [filled, hA.nextFragment]
  refine ⟨?_, fun y hy => ?_⟩
  · rw [hσ.eq, hfrag, hv, d1, d2]
    simp only [filled]
    rw [hA.eq, hτ.eq]
    rfl
  · rw [List.mem_append, not_or] at hy
    by_cases hm : y ∈ u ++ heads cs
    · exact d3 y hm
    · rw [List.mem_append, not_or] at hm
      rw [hσ.next y hm.1 hm.2 hy.2, hτ.next y hm.1 hm.2 hy.2]
      exact hA.next y hy.1

theorem storePacket_ahead {e : Fin n} (p : IPv4Packet) (hA : Ahead (x :: xs) rs τ σ) (hr : Rep τ a)
    (hready : a.ready = (x :: xs) :: rs) (he : e ∉ a.all) (hτe : τ.next e = none)
    (hσe : σ.next e = none) :
    ∃ τ' σ' rs', storePacket τ e p = some τ' ∧ storePacket σ e p = some σ' ∧
      (a.put τ.timedOut e p).ready = (x :: xs) :: rs' ∧ Followed x xs rs rs' σ τ' σ' := by
  have he' : e ∉ a.unused ++ a.incomplete.flatten ∧ e ∉ a.ready.flatten := by
    rwa [Buffers.all, List.mem_append, not_or] at he
  have hxs : ∀ y ∈ x :: xs, y ∈ a.ready.flatten := by
    intro y hy
    rw [hready]; exact List.mem_append_left _ hy
  have hto : σ.timedOut = τ.timedOut := timedOut_congr hA.timerCounter
  have hLσ : Lists σ a.unused a.incomplete := by
    refine hA.lists hr.lists fun y hy hm => ?_
    have := hr.wf.not_mem_of_ready (hxs y hy)
    rcases List.mem_append.mp hm with hm | hm
    · exact this.1 hm
    · exact this.2 hm
  obtain ⟨τ2, dn, h1, h2, h3, h4, h5⟩ :=
    storePacket_gathered p hr.val hr.lists hr.wf.nodup_lists he'.1 hτe
  obtain ⟨σ2, dn', k1, -, k3, k4, k5⟩ :=
    storePacket_gathered p (hA.value.trans hr.val) hLσ hr.wf.nodup_lists he'.1 hσe
  rw [hto] at k3 k4 k5
  obtain rfl : dn' = dn := List.append_cancel_left (k3.symm.trans h3)
  have hA2 := gathered_ahead hA h5 k5 (k4.trans h4.symm)
  have hwf : (a.put τ.timedOut e p).WF := hr.wf.put he p
  have hrdy : (a.put τ.timedOut e p).ready = (x :: xs) :: (rs ++ dn') := by
    rw [h3, hready]; rfl
  have hndr := hwf.nodup_ready
  rw [hrdy] at hndr
  have hnext : ∀ z ∈ x :: xs, σ2.next z = σ.next z := by
    intro z hz
    have hz' : z ∈ (a.put τ.timedOut e p).ready.flatten := by
      rw [hrdy]; exact List.mem_append_left _ hz
    have hz2 := hwf.not_mem_of_ready hz'
    refine k5.next z hz2.1 (fun hm => hz2.2 (mem_flatten_of_mem_heads hm)) fun hm => ?_
    refine List.disjoint_of_nodup_append hndr hz ?_
    rw [List.flatten_append]
    exact List.mem_append_right _ (mem_flatten_of_mem_heads hm)
  have hhead : σ2.readyToReadPacketsHead = σ.readyToReadPacketsHead := by rw [k5.eq]; rfl
  refine ⟨_, _, rs ++ dn', h1, k1, hrdy, ?_⟩
  rcases h2 with rfl | ⟨c, rfl⟩
  · rw [heads_nil, List.append_nil] at hA2
    rw [List.append_nil]
    refine ⟨hA2, ⟨[], by simp⟩, ?_, hnext⟩
    rw [if_neg (by tauto)]
    exact hhead
  · obtain ⟨y, ys, rfl, -⟩ := h5.gone c (by simp)
    have hτ2 : τ2.readyToReadPacketsTail = (heads ((x :: xs) :: rs)).getLast? := by
      rw [h5.eq]
      have := hr.ready.tail_eq
      rwa [hready] at this
    rw [List.flatten_cons, List.flatten_append, ← List.append_assoc] at hndr
    obtain ⟨g1, -, g3⟩ := List.nodup_append.mp hndr
    have hne : ∀ c ∈ rs, c ≠ [] := by
      have := hr.ready.forward.ne_nil
      rw [hready] at this
      exact fun c hc => this c (by simp [hc])
    obtain ⟨m1, m2, m3⟩ := insertInReady_ahead ys hA2 hτ2 g1
      (fun hm => g3 y hm y (by simp) rfl) hne
    refine ⟨m1, ⟨_, rfl⟩, ?_, fun z hz => (m3 z hz).trans (hnext z hz)⟩
    refine m2.trans ?_
    cases rs with
    | nil => rfl
    | cons c rs => rw [if_neg (by simp), if_neg (by simp)]; exact hhead

theorem Followed.refl (hA : Ahead (x :: xs) rs τ σ) : Followed x xs rs rs σ τ σ :=
  ⟨hA, ⟨[], by simp⟩, by rw [if_neg (by tauto)], fun _ _ => rfl⟩

theorem acceptFrame_ahead (data : Nat → UInt8) (hA : Ahead (x :: xs) rs τ σ) (hr : Rep τ a)
    (hready : a.ready = (x :: xs) :: rs) :
    ∃ τ' σ' rs', acceptFrame τ data = some (.ipv4Packet, τ') ∧
      acceptFrame σ data = some (.ipv4Packet, σ') ∧
      (a.accept τ.timedOut (packetOf data τ.timerCounter)).ready = (x :: xs) :: rs' ∧
      Followed x xs rs rs' σ τ' σ' := by
  have htake : a.take = (a.take.1, a.take.2) := rfl
  obtain ⟨hw, hv, hrd, hperm⟩ := hr.wf.take htake
  have hnd1 : (a.take.1.toList ++ a.take.2.all).Nodup := hperm.nodup_iff.mpr hr.wf.nodup
  have hxs : ∀ y ∈ x :: xs, y ∈ a.ready.flatten := by
    intro y hy
    rw [hready]; exact List.mem_append_left _ hy
  have hdis : ∀ y ∈ x :: xs, y ∉ a.unused ++ a.incomplete.flatten := by
    intro y hy hm
    have := hr.wf.not_mem_of_ready (hxs y hy)
    rcases List.mem_append.mp hm with hm | hm
    · exact this.1 hm
    · exact this.2 hm
  have hdis' : ∀ y ∈ a.ready.flatten, y ∉ a.take.1.toList ++ a.take.2.unused := by
    intro y hy hm
    rw [← hrd] at hy
    rcases List.mem_append.mp hm with hm | hm
    · exact List.disjoint_of_nodup_append hnd1 hm (List.mem_append_right _ hy)
    · exact (hw.not_mem_of_ready hy).1 hm
  obtain ⟨τ1, σ1, h1, k1, hL1, hA1, hR1, he1, hn1, hh1⟩ :=
    take_ahead hA hr.lists hr.wf.nodup_lists hdis fun y hy => hdis' y (hxs y hy)
  have hready1 : ReadyList τ1 a.take.2.ready := by
    rw [hrd]
    refine hr.ready.congr (by rw [hR1.eq]) (by rw [hR1.eq]) (by rw [hR1.eq]) fun y hy => ⟨?_, ?_⟩
    · exact hR1.next y (hdis' y hy)
    · rw [hR1.nextFragment]
  have hr1 : Rep τ1 a.take.2 := ⟨by rw [hR1.value, hv, hr.val], hL1, hready1, hw⟩
  have hto : τ1.timedOut = τ.timedOut := hR1.timedOut
  have htc : τ1.timerCounter = τ.timerCounter := by rw [hR1.eq]
  unfold acceptFrame Buffers.accept
  rw [h1, k1]
  rcases ht : a.take with ⟨o, b⟩
  rw [ht] at hr1 hnd1 he1 hrd
  cases o with
  | none =>
    refine ⟨τ1, σ1, rs, rfl, rfl, hrd.trans hready, hA1, ⟨[], by simp⟩, ?_, hn1⟩
    rw [if_neg (by tauto)]
    exact hh1
  | some e =>
    have he : e ∉ b.all := (List.nodup_cons.mp hnd1).1
    obtain ⟨τ2, σ2, rs', m1, m2, m3, m4⟩ := storePacket_ahead
      (packetOf data τ1.timerCounter (τ1.value e)) hA1 hr1 (hrd.trans hready) he (he1 e rfl).1
      (he1 e rfl).2
    refine ⟨τ2, σ2, rs', by dsimp only; rw [m1]; rfl, ?_, ?_, m4.ahead, m4.grown, ?_, fun z hz => ?_⟩
    · dsimp only
      rw [hA1.timerCounter, hA1.value, m2]; rfl
    · rw [hto, htc, hr1.val] at m3
      exact m3
    · rw [m4.head, hh1]
    · rw [m4.next z hz, hn1 z hz]

theorem learnARP_ahead [NeZero h] (data : Nat → UInt8) (hA : Ahead (x :: xs) rs τ σ) :
    Followed x xs rs rs σ (learnARP τ data) (learnARP σ data) := by
  have hs := sameBuffers_learnARP σ data
  have hs' := sameBuffers_learnARP τ data
  have harp : (learnARP σ data).arpEntries = (learnARP τ data).arpEntries := by
    have h1 : σ.arpEntries = τ.arpEntries := by rw [hA.eq]
    have h2 : σ.findARPEntry (arpSender data) = τ.findARPEntry (arpSender data) := by
      simp only [findARPEntry, h1]
    unfold learnARP
    rw [h2]
    cases τ.findARPEntry (arpSender data) with
    | none => exact h1
    | some i => simp only [setARPEntry, h1, hA.timerCounter]
  have hid : (learnARP σ data).identificationCounter = (learnARP τ data).identificationCounter := by
    have h1 : ∀ s : NetworkStackHandler n h l,
        (learnARP s data).identificationCounter = s.identificationCounter := by
      intro s
      unfold learnARP
      split
      · rfl
      · rfl
    rw [h1, h1, hA.eq]
  refine ⟨⟨?_, fun y hy => ?_⟩, ⟨[], by simp⟩, ?_, fun z _ => by rw [hs.eq]⟩
  · rw [hs.eq, harp, hid, hA.eq, hs'.eq]
  · rw [hs.eq, hs'.eq]
    exact hA.next y hy
  · rw [if_neg (by tauto), hs.eq]

/-- An interrupt handler on both memories. -/
theorem call_ahead [NeZero h] (i : Interrupt) (hA : Ahead (x :: xs) rs τ σ) (hr : Rep τ a)
    (hready : a.ready = (x :: xs) :: rs) :
    ∃ τ' σ' rs', τ.call i.call = some τ' ∧ σ.call i.call = some σ' ∧
      (a.after τ i.call).ready = (x :: xs) :: rs' ∧ Followed x xs rs rs' σ τ' σ' := by
  cases i with
  | packet f =>
    have hip : σ.myIP = τ.myIP := by rw [hA.eq]
    simp only [Interrupt.call, NetworkStackHandler.call, incoming, Buffers.after]
    by_cases h1 : IsIPv4For f.data τ.myIP f.dataLen
    · rw [handleIncoming_of_isIPv4For τ f.data f.dataLen h1,
        handleIncoming_of_isIPv4For σ f.data f.dataLen (hip ▸ h1), if_pos h1]
      obtain ⟨τ', σ', rs', k1, k2, k3, k4⟩ := acceptFrame_ahead f.data hA hr hready
      exact ⟨τ', σ', rs', by rw [k1]; rfl, by rw [k2]; rfl, k3, k4⟩
    · rw [if_neg h1]
      by_cases h2 : IsARPReply f.data f.dataLen
      · rw [handleIncoming_of_isARPReply τ f.data f.dataLen h2,
          handleIncoming_of_isARPReply σ f.data f.dataLen h2]
        exact ⟨_, _, rs, rfl, rfl, hready, learnARP_ahead f.data hA⟩
      · obtain ⟨t, ht⟩ := handleIncoming_of_other τ f.data f.dataLen h1 h2
        obtain ⟨t', ht'⟩ := handleIncoming_of_other σ f.data f.dataLen (hip ▸ h1) h2
        exact ⟨τ, σ, rs, by rw [ht]; rfl, by rw [ht']; rfl, hready, .refl hA⟩
  | timer =>
    refine ⟨_, _, rs, rfl, rfl, hready, ⟨?_, hA.next⟩, ⟨[], by simp⟩, ?_, fun _ _ => rfl⟩
    · unfold incrementTimerCounter
      rw [hA.eq]
    · rw [if_neg (by tauto)]; rfl

end Interrupt

end CpuScheduler.L5
