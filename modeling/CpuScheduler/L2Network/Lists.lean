import CpuScheduler.L2Network.Reassembly

/-!
# The unused list and the incomplete chains

`Lists s u cs`: in the handler `s` the unused list is `u` and the incomplete
chains are `cs`. One lemma per operation of the source says what it does to
these lists, in the terms of `Reassembly`: `relinkLoop` (freeing a chain),
`findLoop` (`scan`), `placeLoop` and `linkFragment` (`placed`), `fullLoop`
(`complete`), put together in `collectFragment` (`insertFragment`), and
`takeUnusedPacket` (`take`).

Each lemma also says which links the operation may have written
(`Relinked`, `Gathered`). The ready list is kept by that, and the links of
elements in no list, which nothing relies on, are known too: the interrupt
results compare states field by field.
-/
namespace CpuScheduler.L2

open Links Word NetworkStackHandler

variable {n h l : Nat}

/-- The first elements of the chains. -/
def heads {ι : Type} (cs : List (List ι)) : List ι := cs.filterMap List.head?

@[simp] theorem heads_nil {ι : Type} : heads ([] : List (List ι)) = [] := rfl

@[simp] theorem heads_cons_cons {ι : Type} (x : ι) (xs : List ι) (cs : List (List ι)) :
    heads ((x :: xs) :: cs) = x :: heads cs := rfl

@[simp] theorem heads_append {ι : Type} (cs ds : List (List ι)) :
    heads (cs ++ ds) = heads cs ++ heads ds := List.filterMap_append

theorem mem_flatten_of_mem_heads {ι : Type} {x : ι} {cs : List (List ι)} (hx : x ∈ heads cs) :
    x ∈ cs.flatten := by
  obtain ⟨c, hc, hxc⟩ := List.mem_filterMap.mp hx
  exact List.mem_flatten.mpr ⟨c, hc, List.mem_of_head? hxc⟩

/-- The unused list is `u` and the incomplete chains are `cs`. -/
structure Lists (s : NetworkStackHandler n h l) (u : List (Fin n)) (cs : List (List (Fin n))) :
    Prop where
  unused : Seg s.next s.unusedPacketsHead u none
  incomplete : Chains s.next s.nextFragment s.incompleteFragmentedDatagramsHead cs none

theorem Lists.congr {s s' : NetworkStackHandler n h l} {u : List (Fin n)}
    {cs : List (List (Fin n))} (hL : Lists s u cs)
    (hu : s'.unusedPacketsHead = s.unusedPacketsHead)
    (hi : s'.incompleteFragmentedDatagramsHead = s.incompleteFragmentedDatagramsHead)
    (hn : ∀ x ∈ u, s'.next x = s.next x)
    (hc : ∀ x ∈ cs.flatten, s'.next x = s.next x ∧ s'.nextFragment x = s.nextFragment x) :
    Lists s' u cs := by
  refine ⟨?_, ?_⟩
  · rw [hu]; exact hL.unused.congr hn
  · rw [hi]; exact hL.incomplete.congr hc

/-! ## Freeing a chain -/

theorem length_le_of_nodup {c : List (Fin n)} (hc : c.Nodup) : c.length ≤ n := by
  simpa using hc.length_le_card

/-- The relink loop copies the fragment links of the chain into `next` and
ends on its last element. -/
theorem relinkLoop_spec {frag : Fin n → Ptr n} {c : List (Fin n)} {x : Fin n}
    (next : Fin n → Ptr n) {fuel : Nat} (hc : Seg frag (frag x) c none) (hnd : (x :: c).Nodup)
    (hf : c.length < fuel) : ∃ nx last, relinkLoop frag fuel next x = some (nx, last) ∧
      (x :: c).getLast? = some last ∧ (∀ y, y ∉ x :: c → nx y = next y) ∧
      ∀ y ∈ x :: c, nx y = frag y := by
  induction c generalizing x next fuel with
  | nil =>
    rw [seg_nil] at hc
    obtain ⟨fuel, rfl⟩ := Nat.exists_eq_succ_of_ne_zero (Nat.ne_zero_of_lt hf)
    refine ⟨Function.update next x none, x, by rw [relinkLoop, hc], rfl, ?_, ?_⟩
    · intro y hy; exact Function.update_of_ne (by simpa using hy) _ _
    · intro y hy; rw [List.mem_singleton.mp hy, Function.update_self, hc]
  | cons z c ih =>
    obtain ⟨fuel, rfl⟩ := Nat.exists_eq_succ_of_ne_zero (Nat.ne_zero_of_lt hf)
    obtain ⟨hx, hnd'⟩ := List.nodup_cons.mp hnd
    obtain ⟨nx, last, h1, h2, h3, h4⟩ := ih (Function.update next x (frag x)) hc.2 hnd'
      (by simpa using hf)
    refine ⟨nx, last, by rw [relinkLoop, hc.1]; rw [hc.1] at h1; exact h1, ?_, ?_, ?_⟩
    · rw [List.getLast?_cons_cons]; exact h2
    · intro y hy
      rw [List.mem_cons, not_or] at hy
      rw [h3 y hy.2, Function.update_of_ne hy.1]
    · intro y hy
      rcases List.mem_cons.mp hy with rfl | hy
      · rw [h3 _ hx, Function.update_self]
      · exact h4 y hy

/-- Freeing a chain writes the `next` links of its elements only and puts it
in front of the unused list. -/
theorem insertFragmentedPackets_spec {s : NetworkStackHandler n h l} {x : Fin n} {c : List (Fin n)}
    (hc : Seg s.nextFragment (s.nextFragment x) c none) (hnd : (x :: c).Nodup) :
    ∃ nx, insertFragmentedPacketsInUnusedPacketsList s (some x) =
        some { s with next := nx, unusedPacketsHead := some x } ∧
      (∀ y, y ∉ x :: c → nx y = s.next y) ∧ Seg nx (some x) (x :: c) s.unusedPacketsHead := by
  have hlen : c.length < n := by
    have := length_le_of_nodup hnd
    rwa [List.length_cons] at this
  obtain ⟨nx, last, h1, h2, h3, h4⟩ := relinkLoop_spec s.next hc hnd hlen
  obtain ⟨ys, hys⟩ := List.getLast?_eq_some_iff.mp h2
  refine ⟨Function.update nx last s.unusedPacketsHead, ?_, ?_, ?_⟩
  · rw [insertFragmentedPacketsInUnusedPacketsList, h1]; rfl
  · intro y hy
    rw [Function.update_of_ne, h3 y hy]
    rintro rfl
    exact hy (by rw [hys]; simp)
  · have h0 : Seg s.nextFragment (some x) (x :: c) none := ⟨rfl, hc⟩
    have hseg := h0.congr h4
    rw [hys] at hseg hnd ⊢
    exact hseg.update_last (List.disjoint_of_nodup_append hnd · (by simp))

/-! ## The slot of a chain -/

/-- The slot that follows the chains `pre` in the incomplete list. -/
def SlotAfter (pre : List (List (Fin n))) : Slot n → Prop
  | .head => pre = []
  | .next i => ∃ pre' xs, pre = pre' ++ [i :: xs]

theorem chains_load {s : NetworkStackHandler n h l} {pre cs : List (List (Fin n))} {p : Slot n}
    (hp : SlotAfter pre p) (hc : Chains s.next s.nextFragment
      s.incompleteFragmentedDatagramsHead (pre ++ cs) none) :
    Chains s.next s.nextFragment s.incompleteFragmentedDatagramsHead pre (s.load p) ∧
      Chains s.next s.nextFragment (s.load p) cs none := by
  obtain ⟨m, h1, h2⟩ := chains_append.mp hc
  suffices hm : m = s.load p by subst hm; exact ⟨h1, h2⟩
  cases p with
  | head => simp only [SlotAfter] at hp; subst hp; exact h1.symm
  | next i =>
    obtain ⟨pre', xs, rfl⟩ := hp
    obtain ⟨k, -, hk⟩ := chains_append.mp h1
    exact (chains_cons.mp hk).2.2.symm

@[simp] theorem load_store (s : NetworkStackHandler n h l) (v : Ptr n) (p : Slot n) :
    (s.store v p).load p = v := by
  cases p with
  | head => rfl
  | next i => simp [store, load]

/-- A store through a slot writes two fields of the state. -/
theorem store_eq (s : NetworkStackHandler n h l) (v : Ptr n) (p : Slot n) :
    s.store v p = { s with
      next := (s.store v p).next
      incompleteFragmentedDatagramsHead := (s.store v p).incompleteFragmentedDatagramsHead } := by
  cases p <;> rfl

/-- A store through the slot after `pre` moves the end of `pre` and leaves
every link outside the heads of `pre` alone. -/
theorem chains_store {s : NetworkStackHandler n h l} {pre : List (List (Fin n))} {p : Slot n}
    {q : Ptr n} (v : Ptr n) (hp : SlotAfter pre p) (hnd : pre.flatten.Nodup)
    (hc : Chains s.next s.nextFragment s.incompleteFragmentedDatagramsHead pre q) :
    Chains (s.store v p).next s.nextFragment (s.store v p).incompleteFragmentedDatagramsHead pre v ∧
      ∀ x, x ∉ heads pre → (s.store v p).next x = s.next x := by
  cases p with
  | head => simp only [SlotAfter] at hp; subst hp; exact ⟨rfl, fun x _ => rfl⟩
  | next i =>
    obtain ⟨pre', xs, rfl⟩ := hp
    refine ⟨hc.update_last ?_, fun x hx => Function.update_of_ne ?_ _ _⟩
    · rw [List.flatten_append] at hnd
      exact (List.disjoint_of_nodup_append hnd · (by simp))
    · rintro rfl
      exact hx (by simp)

/-! ## The search -/

/-- From `s` to `s'` at most the `next` links of `ws` and the heads of the
unused and the incomplete list were written. -/
structure Relinked (ws : List (Fin n)) (s s' : NetworkStackHandler n h l) : Prop where
  eq : s' = { s with
    next := s'.next
    unusedPacketsHead := s'.unusedPacketsHead
    incompleteFragmentedDatagramsHead := s'.incompleteFragmentedDatagramsHead }
  next : ∀ x, x ∉ ws → s'.next x = s.next x

theorem Relinked.refl (ws : List (Fin n)) (s : NetworkStackHandler n h l) : Relinked ws s s :=
  ⟨rfl, fun _ _ => rfl⟩

theorem Relinked.trans {ws ws' : List (Fin n)} {s s' s'' : NetworkStackHandler n h l}
    (h1 : Relinked ws s s') (h2 : Relinked ws' s' s'') (hsub : ws ⊆ ws') : Relinked ws' s s'' := by
  refine ⟨?_, fun x hx => (h2.next x hx).trans (h1.next x fun hm => hx (hsub hm))⟩
  rw [h2.eq, h1.eq]

theorem Relinked.value {ws : List (Fin n)} {s s' : NetworkStackHandler n h l}
    (h1 : Relinked ws s s') : s'.value = s.value := by rw [h1.eq]

theorem Relinked.nextFragment {ws : List (Fin n)} {s s' : NetworkStackHandler n h l}
    (h1 : Relinked ws s s') : s'.nextFragment = s.nextFragment := by rw [h1.eq]

theorem Relinked.timedOut {ws : List (Fin n)} {s s' : NetworkStackHandler n h l}
    (h1 : Relinked ws s s') : s'.timedOut = s.timedOut := by rw [h1.eq]; rfl

/-- Unlinking the first of the chains at a slot and freeing it. -/
theorem free_at_slot {s : NetworkStackHandler n h l} {u : List (Fin n)} {x : Fin n}
    {c : List (Fin n)} {pre cs : List (List (Fin n))} {p : Slot n} (hp : SlotAfter pre p)
    (hL : Lists s u (pre ++ (x :: c) :: cs)) (hnd : (u ++ (pre ++ (x :: c) :: cs).flatten).Nodup) :
    ∃ s', insertFragmentedPacketsInUnusedPacketsList (s.store (s.next x) p) (some x) = some s' ∧
      Lists s' (x :: c ++ u) (pre ++ cs) ∧ Relinked (x :: c ++ u ++ heads pre) s s' := by
  rw [List.flatten_append, List.flatten_cons, List.nodup_append, List.nodup_append,
    List.nodup_append] at hnd
  obtain ⟨-, ⟨hpre, ⟨hx, -, hxc⟩, hpc⟩, hu⟩ := hnd
  obtain ⟨h1, h2⟩ := chains_load hp hL.incomplete
  obtain ⟨-, hfrag, hcs⟩ := chains_cons.mp h2
  obtain ⟨h3, h4⟩ := chains_store (s.next x) hp hpre h1
  have hfr : (s.store (s.next x) p).nextFragment = s.nextFragment := by rw [store_eq]
  have hun : (s.store (s.next x) p).unusedPacketsHead = s.unusedPacketsHead := by rw [store_eq]
  rw [← hfr] at hfrag
  obtain ⟨nx, h5, h6, h7⟩ := insertFragmentedPackets_spec hfrag hx
  have hheads : ∀ y ∈ heads pre, y ∈ pre.flatten := fun y => mem_flatten_of_mem_heads
  -- off the freed chain and the heads of `pre` nothing was written
  have hnx : ∀ y, y ∉ x :: c → y ∉ heads pre → nx y = s.next y := fun y hy hy' => by
    rw [h6 y hy, h4 y hy']
  refine ⟨_, h5, ⟨?_, ?_⟩, ?_, ?_⟩
  · refine seg_append.mpr ⟨_, h7, ?_⟩
    rw [hun]
    refine hL.unused.congr fun y hy => hnx y ?_ ?_
    · intro hm
      exact hu y hy y (List.mem_append_right _ (List.mem_append_left _ hm)) rfl
    · intro hm
      exact hu y hy y (List.mem_append_left _ (hheads y hm)) rfl
  · refine chains_append.mpr ⟨s.next x, ?_, ?_⟩
    · refine h3.congr fun y hy => ⟨h6 y ?_, by rw [hfr]⟩
      intro hm
      exact hpc y hy y (List.mem_append_left _ hm) rfl
    · refine hcs.congr fun y hy => ⟨hnx y ?_ ?_, by rw [hfr]⟩
      · intro hm
        exact hxc y hm y hy rfl
      · intro hm
        exact hpc y (hheads y hm) y (List.mem_append_right _ hy) rfl
  · rw [store_eq]
  · intro y hy
    simp only [List.mem_append, not_or] at hy
    exact hnx y hy.1.1 hy.2

/-- `scan` only adds to what it has freed and passed. -/
theorem scan_mono {ι : Type} (expired same : List ι → Bool) (u : List ι) (pre cs : List (List ι)) :
    u ⊆ (scan expired same u pre cs).1 ∧ pre ⊆ (scan expired same u pre cs).2.1 := by
  induction cs generalizing u pre with
  | nil => exact ⟨fun _ h => h, fun _ h => h⟩
  | cons c cs ih =>
    unfold scan
    split
    · exact ⟨fun x hx => (ih (c ++ u) pre).1 (by simp [hx]), (ih (c ++ u) pre).2⟩
    · split
      · exact ⟨fun _ h => h, fun _ h => h⟩
      · exact ⟨(ih u (pre ++ [c])).1, fun d hd => (ih u (pre ++ [c])).2 (by simp [hd])⟩

theorem heads_subset {ι : Type} {cs ds : List (List ι)} (hs : cs ⊆ ds) : heads cs ⊆ heads ds := by
  intro x hx
  obtain ⟨c, hc, hxc⟩ := List.mem_filterMap.mp hx
  exact List.mem_filterMap.mpr ⟨c, hs hc, hxc⟩

/-- The search loop computes `scan`. -/
theorem findLoop_spec {e : Fin n} {cs : List (List (Fin n))} :
    ∀ {s : NetworkStackHandler n h l} {u : List (Fin n)} {pre : List (List (Fin n))} {p : Slot n}
      {fuel : Nat}, SlotAfter pre p → Lists s u (pre ++ cs) →
      (u ++ (pre ++ cs).flatten).Nodup → cs.length < fuel →
    ∃ s' p' u' pre' rest,
      scan (headIs s.value s.timedOut) (headIs s.value (sameDatagram (s.value e))) u pre cs =
        (u', pre', rest) ∧
      findLoop e fuel s p = some (s', p') ∧ SlotAfter pre' p' ∧ Lists s' u' (pre' ++ rest) ∧
      Relinked (u' ++ heads pre') s s' := by
  induction cs with
  | nil =>
    intro s u pre p fuel hp hL hnd hf
    obtain ⟨fuel, rfl⟩ := Nat.exists_eq_succ_of_ne_zero (Nat.ne_zero_of_lt hf)
    have hload : s.load p = none := (chains_load hp hL.incomplete).2
    exact ⟨s, p, u, pre, [], rfl, by rw [findLoop, hload], hp, hL, .refl _ s⟩
  | cons c cs ih =>
    intro s u pre p fuel hp hL hnd hf
    obtain ⟨fuel, rfl⟩ := Nat.exists_eq_succ_of_ne_zero (Nat.ne_zero_of_lt hf)
    rw [List.length_cons, Nat.succ_lt_succ_iff] at hf
    obtain ⟨x, c, rfl, hload, -⟩ := (chains_load hp hL.incomplete).2
    rw [scan, findLoop, hload]
    simp only [headIs_cons]
    by_cases hto : s.timedOut (s.value x) = true
    · obtain ⟨s1, h1, h2, h3⟩ := free_at_slot hp hL hnd
      have hnd1 : (x :: c ++ u ++ (pre ++ cs).flatten).Nodup := by
        refine (List.Perm.nodup_iff ?_).mpr hnd
        rw [List.perm_iff_count]
        intro y
        simp only [List.flatten_append, List.flatten_cons, List.count_append]
        omega
      obtain ⟨s', p', u', pre', rest, k1, k2, k3, k4, k5⟩ := ih hp h2 hnd1 hf
      rw [h3.value, h3.timedOut] at k1
      refine ⟨s', p', u', pre', rest, by rw [if_pos hto]; exact k1, ?_, k3, k4, h3.trans k5 ?_⟩
      · rw [if_pos hto, h1]; exact k2
      · have hm := scan_mono (headIs s.value s.timedOut)
          (headIs s.value (sameDatagram (s.value e))) (x :: c ++ u) pre cs
        rw [k1] at hm
        exact List.append_subset.mpr ⟨fun y hy => List.mem_append_left _ (hm.1 hy),
          fun y hy => List.mem_append_right _ (heads_subset hm.2 hy)⟩
    · rw [if_neg hto, if_neg hto]
      by_cases hsm : sameDatagram (s.value e) (s.value x) = true
      · exact ⟨s, p, u, pre, (x :: c) :: cs, by rw [if_pos hsm], by rw [if_pos hsm], hp, hL,
          .refl _ s⟩
      · rw [if_neg hsm, if_neg hsm]
        have hL1 : Lists s u (pre ++ [x :: c] ++ cs) := by
          rw [List.append_assoc]; exact hL
        have hnd1 : (u ++ (pre ++ [x :: c] ++ cs).flatten).Nodup := by
          rw [List.append_assoc]; exact hnd
        exact ih ⟨pre, c, rfl⟩ hL1 hnd1 hf

/-! ## Filing a fragment in its chain -/

/-- The walk stops early on a fragment without more fragments in front of the
place of the new one. -/
theorem placeLoop_stop {s : NetworkStackHandler n h l} {e : Fin n} {d : List (Fin n)} {w : Walk n}
    {fuel : Nat} (hd : Seg s.nextFragment w.current d none) (hf : d.length < fuel)
    (hm : (before s.value e d).all (fun f => (s.value f).moreFragments) = false) :
    placeLoop s e fuel w = some none := by
  induction d generalizing w fuel with
  | nil => cases hm
  | cons c d ih =>
    obtain ⟨fuel, rfl⟩ := Nat.exists_eq_succ_of_ne_zero (Nat.ne_zero_of_lt hf)
    rw [placeLoop, hd.1]
    dsimp only
    by_cases hlt : (s.value c).fragmentOffset < (s.value e).fragmentOffset
    · rw [if_pos hlt]
      split
      · rfl
      · rename_i hmore
        rw [Bool.not_eq_true, Bool.not_eq_false'] at hmore
        refine ih hd.2 (by simpa using hf) ?_
        simpa [before, hlt, hmore] using hm
    · simp [before, hlt] at hm

/-- The walk to the place of the new fragment, over the fragments in front
of it. -/
theorem placeLoop_pass {s : NetworkStackHandler n h l} {e : Fin n} {d : List (Fin n)} {w : Walk n}
    {fuel : Nat} (hd : Seg s.nextFragment w.current d none) (hf : d.length < fuel)
    (hm : (before s.value e d).all (fun f => (s.value f).moreFragments) = true) :
    ∃ w', placeLoop s e fuel w = some (some w') ∧
      w'.listIsFullSoFar = (w.listIsFullSoFar &&
        contiguous s.value (w.previousOffset + w.previousSize) (before s.value e d)) ∧
      w'.previous = (before s.value e d).getLast?.or w.previous ∧
      w'.current = (after s.value e d).head? ∧
      w'.previousOffset + w'.previousSize =
        endOf s.value (w.previousOffset + w.previousSize) (before s.value e d) := by
  induction d generalizing w fuel with
  | nil =>
    obtain ⟨fuel, rfl⟩ := Nat.exists_eq_succ_of_ne_zero (Nat.ne_zero_of_lt hf)
    rw [seg_nil] at hd
    exact ⟨w, by rw [placeLoop, hd], by simp [before, contiguous], by simp [before],
      by simp [after, hd], by simp [before, endOf]⟩
  | cons c d ih =>
    obtain ⟨fuel, rfl⟩ := Nat.exists_eq_succ_of_ne_zero (Nat.ne_zero_of_lt hf)
    rw [placeLoop, hd.1]
    dsimp only
    by_cases hlt : (s.value c).fragmentOffset < (s.value e).fragmentOffset
    · have hb : before s.value e (c :: d) = c :: before s.value e d := by simp [before, hlt]
      have ha : after s.value e (c :: d) = after s.value e d := by simp [after, hlt]
      rw [hb, List.all_cons, Bool.and_eq_true] at hm
      rw [if_pos hlt, if_neg (by simp [hm.1])]
      obtain ⟨w', h1, h2, h3, h4, h5⟩ := ih (w := { listIsFullSoFar := w.listIsFullSoFar &&
              (s.value c).fragmentOffset == w.previousOffset + w.previousSize
                                                    previous := some c
                                                    current := s.nextFragment c
                                                    previousOffset := (s.value c).fragmentOffset
                                                    previousSize := (s.value c).dataSize })
        hd.2 (by simpa using hf) hm.2
      refine ⟨w', h1, ?_, ?_, ?_, ?_⟩
      · rw [h2, hb, contiguous, Bool.and_assoc]
      · rw [h3, hb]
        cases hl : (before s.value e d).getLast? with
        | none => simp [List.getLast?_eq_none_iff.mp hl]
        | some z => simp [List.getLast?_cons, hl]
      · rw [h4, ha]
      · rw [h5, hb, endOf]
    · have hb : before s.value e (c :: d) = [] := by simp [before, hlt]
      have ha : after s.value e (c :: d) = c :: d := by simp [after, hlt]
      rw [if_neg hlt, hb, ha]
      exact ⟨w, rfl, by simp [contiguous], by simp, hd.1, rfl⟩

/-- The completeness scan over the rest `d` of a chain. -/
theorem fullLoop_spec {s : NetworkStackHandler n h l} {d : List (Fin n)} {w : Walk n} {fuel : Nat}
    (hd : Seg s.nextFragment w.current d none) (hf : d.length < fuel) :
    ∃ w', fullLoop s fuel w = some w' ∧ w'.complete s = (w.listIsFullSoFar &&
      contiguous s.value (w.previousOffset + w.previousSize) d &&
      (d.getLast?.or w.previous).any fun f => !(s.value f).moreFragments) := by
  induction d generalizing w fuel with
  | nil =>
    obtain ⟨fuel, rfl⟩ := Nat.exists_eq_succ_of_ne_zero (Nat.ne_zero_of_lt hf)
    rw [seg_nil] at hd
    refine ⟨w, ?_, ?_⟩
    · rw [fullLoop, hd]
      split <;> simp_all
    · cases hw : w.previous <;> simp [Walk.complete, hd, contiguous, hw]
  | cons c d ih =>
    obtain ⟨fuel, rfl⟩ := Nat.exists_eq_succ_of_ne_zero (Nat.ne_zero_of_lt hf)
    rw [fullLoop, hd.1]
    cases hw : w.listIsFullSoFar with
    | false =>
      exact ⟨w, rfl, by simp [Walk.complete, hw]⟩
    | true =>
      obtain ⟨w', h1, h2⟩ := ih (w := { listIsFullSoFar :=
              (s.value c).fragmentOffset == w.previousOffset + w.previousSize
                                        previous := some c
                                        current := s.nextFragment c
                                        previousOffset := (s.value c).fragmentOffset
                                        previousSize := (s.value c).dataSize })
        hd.2 (by simpa using hf)
      refine ⟨w', h1, ?_⟩
      rw [h2, contiguous]
      cases hl : d.getLast? with
      | none => simp [List.getLast?_eq_none_iff.mp hl]
      | some z => simp [List.getLast?_cons, hl]

/-- What filing the fragment `e` has done to the handler: the lists are `u`
and `cs`, the chains `dn` (one or none) have left them, and no other link was
written. -/
structure Gathered (s s' : NetworkStackHandler n h l) (u : List (Fin n))
    (cs dn : List (List (Fin n))) : Prop where
  eq : s' = { s with
    next := s'.next
    nextFragment := s'.nextFragment
    value := s'.value
    unusedPacketsHead := s'.unusedPacketsHead
    incompleteFragmentedDatagramsHead := s'.incompleteFragmentedDatagramsHead }
  next : ∀ x, x ∉ u → x ∉ heads cs → x ∉ heads dn → s'.next x = s.next x
  frag : ∀ x, x ∉ cs.flatten → x ∉ dn.flatten → s'.nextFragment x = s.nextFragment x
  lists : Lists s' u cs
  gone : ∀ c ∈ dn, ∃ x xs, c = x :: xs ∧ Seg s'.nextFragment (s'.nextFragment x) xs none

/-- The chain `c` at the slot after `pre` has become `placed s.value e c`. -/
structure Linked (s s' : NetworkStackHandler n h l) (e : Fin n) (pre : List (List (Fin n)))
    (c : List (Fin n)) (cs : List (List (Fin n))) : Prop where
  eq : s' = { s with
    next := s'.next
    nextFragment := s'.nextFragment
    value := inherit s.value e c
    incompleteFragmentedDatagramsHead := s'.incompleteFragmentedDatagramsHead }
  next : ∀ x, x ∉ heads pre → x ∉ heads [placed s.value e c] → s'.next x = s.next x
  frag : ∀ x, x ∉ placed s.value e c → s'.nextFragment x = s.nextFragment x
  chains : Chains s'.next s'.nextFragment s'.incompleteFragmentedDatagramsHead
    (pre ++ placed s.value e c :: cs) none

section Link
variable {s : NetworkStackHandler n h l} {e : Fin n} {pre cs : List (List (Fin n))}
  {c : List (Fin n)} {p : Slot n} {w : Walk n}

theorem linkFragment_none (hcur : w.current = (after s.value e c).head?)
    (hm : ((after s.value e c).isEmpty || (s.value e).moreFragments) = false) :
    linkFragment s e p w = none := by
  rw [Bool.or_eq_false_iff] at hm
  obtain ⟨y, d, hd⟩ := List.exists_cons_of_ne_nil (by simpa using hm.1)
  rw [hd] at hcur
  unfold linkFragment
  rw [hcur]
  cases w.previous with
  | none => simp [hm.2]
  | some y => simp [hm.2]

/-- Linking the new fragment in front of the chain. -/
theorem linkFragment_front (hp : SlotAfter pre p) (hnd : ((pre ++ c :: cs).flatten).Nodup)
    (he : e ∉ (pre ++ c :: cs).flatten)
    (hc : Chains s.next s.nextFragment s.incompleteFragmentedDatagramsHead (pre ++ c :: cs) none)
    (hb : before s.value e c = []) (hprev : w.previous = none) (hcur : w.current = c.head?)
    (hm : (s.value e).moreFragments = true) :
    ∃ s', linkFragment s e p w = some s' ∧ Linked s s' e pre c cs := by
  obtain ⟨h1, h2⟩ := chains_load hp hc
  obtain ⟨x, xs, rfl, -, hfrag, hcs⟩ := h2
  have ha : after s.value e (x :: xs) = x :: xs := by
    have := before_append_after s.value e (x :: xs)
    rwa [hb, List.nil_append] at this
  have hpl : placed s.value e (x :: xs) = e :: x :: xs := by rw [placed, hb, ha]; rfl
  have hin : inherit s.value e (x :: xs) = Function.update s.value e
      { s.value e with createdTime := (s.value x).createdTime } := by unfold inherit; rw [hb]
  rw [List.flatten_append, List.mem_append, not_or, List.flatten_cons, List.mem_append, not_or] at he
  rw [List.flatten_append, List.nodup_append, List.flatten_cons] at hnd
  obtain ⟨hndp, -, hpx⟩ := hnd
  obtain ⟨hep, hex, hecs⟩ := he
  -- the state before the store through the slot
  let s1 : NetworkStackHandler n h l :=
    { s with
      value := Function.update s.value e { s.value e with createdTime := (s.value x).createdTime }
      nextFragment := Function.update s.nextFragment e (some x)
      next := Function.update s.next e (s.next x) }
  have k1 : Chains s1.next s1.nextFragment s1.incompleteFragmentedDatagramsHead pre (s.load p) :=
    (h1.update_next hep).update_frag hep
  obtain ⟨k2, k3⟩ := chains_store (some e) hp hndp k1
  have hst : (s1.store (some e) p).nextFragment = s1.nextFragment := by rw [store_eq]
  have hhead : ∀ y ∈ heads pre, y ∈ pre.flatten := fun y => mem_flatten_of_mem_heads
  refine ⟨s1.store (some e) p, ?_, ?_, ?_, ?_, ?_⟩
  · rw [linkFragment, hprev, hcur]
    simp only [List.head?_cons]
    rw [if_neg (by simp [hm])]
  · rw [store_eq, hin]
  · intro y hy hy'
    rw [hpl, heads_cons_cons, List.mem_cons, not_or] at hy'
    rw [k3 y hy]
    exact Function.update_of_ne hy'.1 _ _
  · intro y hy
    rw [hpl, List.mem_cons, not_or] at hy
    rw [hst]
    exact Function.update_of_ne hy.1 _ _
  · rw [hst, hpl]
    refine chains_append.mpr ⟨_, k2, chains_cons.mpr ⟨rfl, ?_, ?_⟩⟩
    · show Seg s1.nextFragment (Function.update s.nextFragment e (some x) e) (x :: xs) none
      rw [Function.update_self]
      have h0 : Seg s.nextFragment (some x) (x :: xs) none := ⟨rfl, hfrag⟩
      exact h0.update hex
    · rw [k3 e fun hm => hep (hhead e hm)]
      show Chains _ _ (Function.update s.next e (s.next x) e) cs none
      rw [Function.update_self]
      refine hcs.congr fun y hy => ⟨?_, ?_⟩
      · have hye : y ≠ e := by rintro rfl; exact hecs hy
        rw [k3 y fun hm => hpx y (hhead y hm) y (List.mem_append_right _ hy) rfl]
        exact Function.update_of_ne hye _ _
      · exact Function.update_of_ne (by rintro rfl; exact hecs hy) _ _

/-- Linking the new fragment in behind the fragment `y`, in the middle or at
the end of the chain. -/
theorem linkFragment_behind {b : List (Fin n)} {y : Fin n}
    (hnd : ((pre ++ c :: cs).flatten).Nodup) (he : e ∉ (pre ++ c :: cs).flatten)
    (hefrag : s.nextFragment e = none)
    (hc : Chains s.next s.nextFragment s.incompleteFragmentedDatagramsHead (pre ++ c :: cs) none)
    (hb : before s.value e c = b ++ [y]) (hprev : w.previous = some y)
    (hcur : w.current = (after s.value e c).head?)
    (hm : ((after s.value e c).isEmpty || (s.value e).moreFragments) = true) :
    ∃ s', linkFragment s e p w = some s' ∧ Linked s s' e pre c cs := by
  have hsplit : b ++ y :: after s.value e c = c := by
    have := before_append_after s.value e c
    rwa [hb, List.append_assoc] at this
  have hpl : placed s.value e c = b ++ y :: e :: after s.value e c := by rw [placed, hb]; simp
  have hin : inherit s.value e c = s.value := by
    unfold inherit
    split
    · rename_i h0; rw [hb] at h0; simp at h0
    · rfl
  rw [List.flatten_append, List.mem_append, not_or, List.flatten_cons, List.mem_append, not_or] at he
  rw [List.flatten_append, List.nodup_append, List.flatten_cons, List.nodup_append] at hnd
  obtain ⟨-, ⟨hndc, -, hccs⟩, hpc⟩ := hnd
  obtain ⟨hep, hec, hecs⟩ := he
  have hyc : y ∈ c := by rw [← hsplit]; simp
  obtain ⟨m, h1, h2⟩ := chains_append.mp hc
  let frag := Function.update (Function.update s.nextFragment e (after s.value e c).head?) y (some e)
  have hfrag : ∀ z, z ≠ e → z ≠ y → frag z = s.nextFragment z := fun z hz hz' => by
    simp only [frag]
    rw [Function.update_of_ne hz', Function.update_of_ne hz]
  refine ⟨{ s with nextFragment := frag }, ?_, by rw [hin], fun _ _ _ => rfl, ?_, ?_⟩
  · -- at the end of the chain the code leaves the null link of `e` alone
    cases ha : after s.value e c with
    | nil =>
      have hup : Function.update s.nextFragment e none = s.nextFragment := by
        rw [← hefrag]; exact Function.update_eq_self e _
      simp only [linkFragment, hprev, hcur, frag, ha, List.head?_nil, hup]
    | cons z zs =>
      have hm' : (s.value e).moreFragments = true := by simpa [ha] using hm
      simp only [linkFragment, hprev, hcur, frag, ha, List.head?_cons, hm', Bool.not_true,
        Bool.false_eq_true, if_false]
  · intro z hz
    rw [hpl] at hz
    simp only [List.mem_append, List.mem_cons, not_or] at hz
    exact hfrag z hz.2.2.1 hz.2.1
  · refine chains_append.mpr ⟨m, h1.congr fun z hz => ⟨rfl, hfrag z ?_ ?_⟩, ?_⟩
    · rintro rfl; exact hep hz
    · rintro rfl; exact hpc _ hz _ (List.mem_append_left _ hyc) rfl
    · obtain ⟨x, xs, rfl, hx, hseg, hcs⟩ := h2
      have h0 : Seg s.nextFragment (some x) (b ++ y :: after s.value e (x :: xs)) none := by
        rw [hsplit]; exact ⟨rfl, hseg⟩
      rw [← hsplit] at hndc hec
      have hins := h0.insert hndc hec
      rw [hsplit] at hndc
      -- the head of the chain is still `x`
      obtain ⟨xs', hxs⟩ : ∃ xs', b ++ y :: e :: after s.value e (x :: xs) = x :: xs' := by
        cases b with
        | nil =>
          rw [List.nil_append, List.cons.injEq] at hsplit
          rw [List.nil_append, hsplit.1]; exact ⟨_, rfl⟩
        | cons z zs =>
          rw [List.cons_append, List.cons.injEq] at hsplit
          rw [List.cons_append, hsplit.1]; exact ⟨_, rfl⟩
      rw [hxs] at hins
      rw [hpl, hxs, hx]
      refine chains_cons.mpr ⟨rfl, hins.2, hcs.congr fun z hz => ⟨rfl, hfrag z ?_ ?_⟩⟩
      · rintro rfl; exact hecs hz
      · rintro rfl; exact hccs _ hyc _ hz rfl

/-- Linking a fragment that fits. -/
theorem linkFragment_spec (hp : SlotAfter pre p) (hnd : ((pre ++ c :: cs).flatten).Nodup)
    (he : e ∉ (pre ++ c :: cs).flatten) (hefrag : s.nextFragment e = none)
    (hc : Chains s.next s.nextFragment s.incompleteFragmentedDatagramsHead (pre ++ c :: cs) none)
    (hprev : w.previous = (before s.value e c).getLast?)
    (hcur : w.current = (after s.value e c).head?)
    (hm : ((after s.value e c).isEmpty || (s.value e).moreFragments) = true) :
    ∃ s', linkFragment s e p w = some s' ∧ Linked s s' e pre c cs := by
  rcases List.eq_nil_or_concat (before s.value e c) with hb | ⟨b, y, hb⟩
  · have ha : after s.value e c = c := by
      have := before_append_after s.value e c
      rwa [hb, List.nil_append] at this
    rw [ha] at hcur hm
    rw [hb] at hprev
    have hne : c ≠ [] := hc.ne_nil c (by simp)
    refine linkFragment_front hp hnd he hc hb hprev hcur ?_
    simpa [hne] using hm
  · rw [List.concat_eq_append] at hb
    rw [hb, List.getLast?_concat] at hprev
    exact linkFragment_behind hnd he hefrag hc hb hprev hcur hm

end Link

/-- The fragment links of one of the chains. -/
theorem Chains.seg_of_mem {next frag : Fin n → Ptr n} {q r : Ptr n} {cs : List (List (Fin n))}
    {c : List (Fin n)} (hcs : Chains next frag q cs r) (hc : c ∈ cs) :
    ∃ x xs, c = x :: xs ∧ Seg frag (frag x) xs none := by
  induction cs generalizing q with
  | nil => cases hc
  | cons d ds ih =>
    obtain ⟨x, xs, rfl, -, h1, h2⟩ := hcs
    rcases List.mem_cons.mp hc with rfl | hc
    · exact ⟨x, xs, rfl, h1⟩
    · exact ih h2 hc

section Attach
variable {s : NetworkStackHandler n h l} {e : Fin n} {u : List (Fin n)}
  {pre cs : List (List (Fin n))} {c : List (Fin n)} {p : Slot n}

/-- A fragment of a new datagram starts a chain at the end of the list. -/
theorem attachFragment_fresh (hp : SlotAfter pre p) (hL : Lists s u pre)
    (hnd : (u ++ pre.flatten).Nodup) (he : e ∉ pre.flatten) (hen : s.next e = none)
    (hef : s.nextFragment e = none) :
    ∃ s', attachFragment s e p = some (none, s') ∧ s'.value = s.value ∧
      Gathered s s' u (pre ++ [[e]]) [] := by
  have hL' : Lists s u (pre ++ []) := by rw [List.append_nil]; exact hL
  obtain ⟨h1, h2⟩ := chains_load hp hL'.incomplete
  rw [List.nodup_append] at hnd
  obtain ⟨h3, h4⟩ := chains_store (some e) hp hnd.2.1 h1
  have hheads : ∀ y ∈ heads pre, y ∈ pre.flatten := fun y => mem_flatten_of_mem_heads
  refine ⟨s.store (some e) p, by rw [attachFragment, show s.load p = none from h2], by rw [store_eq],
    by rw [store_eq], ?_, fun x _ _ => by rw [store_eq], ⟨?_, ?_⟩, by simp⟩
  · intro x _ hx _
    exact h4 x fun hm => hx (by simp [hm])
  · rw [show (s.store (some e) p).unusedPacketsHead = s.unusedPacketsHead by rw [store_eq]]
    exact hL.unused.congr fun x hx => h4 x fun hm => hnd.2.2 x hx x (hheads x hm) rfl
  · rw [show (s.store (some e) p).nextFragment = s.nextFragment by rw [store_eq]]
    refine chains_append.mpr ⟨some e, h3, chains_cons.mpr ⟨rfl, by rw [hef]; rfl, ?_⟩⟩
    rw [h4 e fun hm => he (hheads e hm), hen]; rfl

/-- The walk and the early returns: a fragment that does not fit leaves the
state as it is, one that fits is linked in, and `fullLoop` then computes
`complete`. -/
theorem attachFragment_walk (hp : SlotAfter pre p)
    (hc : Chains s.next s.nextFragment s.incompleteFragmentedDatagramsHead (pre ++ c :: cs) none)
    (hnd : ((pre ++ c :: cs).flatten).Nodup) (he : e ∉ (pre ++ c :: cs).flatten)
    (hef : s.nextFragment e = none) :
    if fits s.value e c then
      ∃ s', Linked s s' e pre c cs ∧ attachFragment s e p =
        if complete s.value (placed s.value e c) then
          match s'.load p with
          | none => none
          | some pNewPacket => some (some pNewPacket, s'.store (s'.next pNewPacket) p)
        else some (none, s')
    else attachFragment s e p = some (none, s) := by
  obtain ⟨h1, h2⟩ := chains_load hp hc
  obtain ⟨x, xs, rfl, hload, hseg, -⟩ := h2
  have h0 : Seg s.nextFragment (some x) (x :: xs) none := ⟨rfl, hseg⟩
  have hlen : (x :: xs).length < n + 1 := by
    have : (x :: xs).Nodup := hnd.sublist (List.sublist_flatten_of_mem (by simp))
    have := length_le_of_nodup this
    omega
  rw [attachFragment, hload]
  dsimp only
  by_cases hb : (before s.value e (x :: xs)).all (fun f => (s.value f).moreFragments) = true
  · obtain ⟨w, k1, k2, k3, k4, k5⟩ :=
      placeLoop_pass (w := ⟨true, none, some x, 0, 0⟩) h0 hlen hb
    rw [k1, Option.bind_some]
    dsimp only at k2 k3 k5 ⊢
    rw [Option.or_none] at k3
    by_cases hm : ((after s.value e (x :: xs)).isEmpty || (s.value e).moreFragments) = true
    · rw [if_pos (by rw [fits, hb, hm]; rfl)]
      obtain ⟨s', l1, l2⟩ := linkFragment_spec hp hnd he hef hc k3 k4 hm
      rw [l1]
      dsimp only
      -- the scan runs over the new fragment and what follows it
      have hfr : Seg s'.nextFragment (some e) (e :: after s.value e (x :: xs)) none := by
        obtain ⟨y, ys, hy, hys⟩ := Chains.seg_of_mem l2.chains (c := placed s.value e (x :: xs))
          (by simp)
        have h3 : Seg s'.nextFragment (some y) (placed s.value e (x :: xs)) none := by
          rw [hy]; exact ⟨rfl, hys⟩
        obtain ⟨m, -, h4⟩ := seg_append.mp h3
        rwa [h4.1] at h4
      have hlen' : (e :: after s.value e (x :: xs)).length < n + 1 := by
        have hnd' : (placed s.value e (x :: xs)).Nodup := by
          refine (placed_perm s.value e (x :: xs)).nodup_iff.mpr (List.nodup_cons.mpr ⟨?_, ?_⟩)
          · intro hm; exact he (List.mem_flatten.mpr ⟨x :: xs, by simp, hm⟩)
          · exact hnd.sublist (List.sublist_flatten_of_mem (by simp))
        have := length_le_of_nodup (List.nodup_append.mp hnd').2.1
        omega
      obtain ⟨w', m1, m2⟩ := fullLoop_spec (w := { w with current := some e }) hfr hlen'
      have hcomp : w'.complete s' = complete s.value (placed s.value e (x :: xs)) := by
        have hval : s'.value = inherit s.value e (x :: xs) := by rw [l2.eq]
        have hal := inherit_alike s.value e (x :: xs)
        have hl : (placed s.value e (x :: xs)).getLast? =
            (e :: after s.value e (x :: xs)).getLast? := by
          rw [placed, List.getLast?_append_of_ne_nil _ (by simp)]
        rw [m2, hval, contiguous_congr hal, complete, placed, contiguous_append, k2, k5]
        have hcl := closed_congr hal (placed s.value e (x :: xs))
        rw [placed] at hcl hl
        rw [← hcl, closed, hl, List.getLast?_cons]
        simp
      rw [m1, Option.bind_some, hcomp]
      exact ⟨s', l2, rfl⟩
    · rw [if_neg (by rw [fits, hb]; simpa using hm),
        linkFragment_none k4 (by simpa using hm)]
  · rw [if_neg (by rw [fits]; simp at hb ⊢; intro hb'; obtain ⟨f, hf, hm⟩ := hb; simp [hb' f hf] at hm),
      placeLoop_stop (w := ⟨true, none, some x, 0, 0⟩) h0 hlen (by simpa using hb)]
    rfl

/-- The chain stays incomplete. -/
theorem Linked.grown {s' : NetworkStackHandler n h l} (hK : Linked s s' e pre c cs)
    (hL : Lists s u (pre ++ c :: cs)) (hnd : (u ++ (pre ++ c :: cs).flatten).Nodup) (he : e ∉ u) :
    Gathered s s' u (pre ++ placed s.value e c :: cs) [] := by
  rw [List.nodup_append] at hnd
  have hsub : ∀ x ∈ u, x ∉ heads pre ∧ x ∉ heads [placed s.value e c] := by
    intro x hx
    refine ⟨fun hm => hnd.2.2 x hx x ?_ rfl, fun hm => ?_⟩
    · rw [List.flatten_append]; exact List.mem_append_left _ (mem_flatten_of_mem_heads hm)
    · have := mem_flatten_of_mem_heads hm
      rw [List.flatten_singleton] at this
      rcases mem_placed.mp this with rfl | hm
      · exact he hx
      · exact hnd.2.2 x hx x (List.mem_flatten.mpr ⟨c, by simp, hm⟩) rfl
  refine ⟨?_, ?_, ?_, ⟨?_, hK.chains⟩, by simp⟩
  · rw [hK.eq]
  · intro x _ hx _
    rw [← List.singleton_append, heads_append, heads_append, List.mem_append, not_or,
      List.mem_append, not_or] at hx
    exact hK.next x hx.1 hx.2.1
  · intro x hx _
    refine hK.frag x fun hm => hx (List.mem_flatten.mpr ⟨_, by simp, hm⟩)
  · rw [show s'.unusedPacketsHead = s.unusedPacketsHead by rw [hK.eq]]
    exact hL.unused.congr fun x hx => hK.next x (hsub x hx).1 (hsub x hx).2

/-- The chain is complete and leaves the list. -/
theorem Linked.done {s' : NetworkStackHandler n h l} (hK : Linked s s' e pre c cs)
    (hp : SlotAfter pre p) (hL : Lists s u (pre ++ c :: cs))
    (hnd : (u ++ (pre ++ c :: cs).flatten).Nodup) (he : e ∉ u) :
    ∃ x xs, placed s.value e c = x :: xs ∧ s'.load p = some x ∧
      (s'.store (s'.next x) p).value = s'.value ∧
      Gathered s (s'.store (s'.next x) p) u (pre ++ cs) [placed s.value e c] := by
  have hG := (hK.grown hL hnd he).lists
  obtain ⟨h1, h2⟩ := chains_load hp hK.chains
  obtain ⟨x, xs, hx, hload, hseg, hcs⟩ := h2
  rw [List.nodup_append, List.flatten_append, List.flatten_cons, List.nodup_append] at hnd
  obtain ⟨-, ⟨hpre, -, hpc⟩, hu⟩ := hnd
  obtain ⟨h3, h4⟩ := chains_store (s'.next x) hp hpre h1
  have hheads : ∀ y ∈ heads pre, y ∈ pre.flatten := fun y => mem_flatten_of_mem_heads
  have hfr : (s'.store (s'.next x) p).nextFragment = s'.nextFragment := by rw [store_eq]
  refine ⟨x, xs, hx, hload, by rw [store_eq], ?_, ?_, ?_, ⟨?_, ?_⟩, ?_⟩
  · rw [store_eq, hK.eq]
  · intro y hy hy' hy''
    rw [heads_append, List.mem_append, not_or] at hy'
    rw [h4 y hy'.1]
    exact hK.next y hy'.1 hy''
  · intro y hy hy'
    rw [hfr]
    exact hK.frag y (by simpa using hy')
  · rw [show (s'.store (s'.next x) p).unusedPacketsHead = s'.unusedPacketsHead by rw [store_eq]]
    refine hG.unused.congr fun y hy => h4 y fun hm => ?_
    exact hu y hy y (List.mem_append_left _ (hheads y hm)) rfl
  · rw [hfr]
    refine chains_append.mpr ⟨_, h3, hcs.congr fun y hy => ⟨h4 y fun hm => ?_, rfl⟩⟩
    exact hpc y (hheads y hm) y (List.mem_append_right _ hy) rfl
  · intro d hd
    rw [List.mem_singleton.mp hd, hfr]
    exact ⟨x, xs, hx, hseg⟩

end Attach

theorem Relinked.gathered {s s1 s' : NetworkStackHandler n h l} {u : List (Fin n)}
    {pre cs dn : List (List (Fin n))} (hR : Relinked (u ++ heads pre) s s1)
    (hG : Gathered s1 s' u cs dn) (hsub : ∀ x ∈ heads pre, x ∈ heads cs) : Gathered s s' u cs dn := by
  refine ⟨?_, ?_, ?_, hG.lists, hG.gone⟩
  · rw [hG.eq, hR.eq]
  · intro x h1 h2 h3
    rw [hG.next x h1 h2 h3]
    refine hR.next x fun hm => ?_
    rcases List.mem_append.mp hm with hm | hm
    · exact h1 hm
    · exact h2 (hsub x hm)
  · intro x h1 h2
    rw [hG.frag x h1 h2, hR.nextFragment]

/-- Filing a fragment: the code computes `insertFragment`, up to the last
step that appends the completed chain to the ready list. -/
theorem collectFragment_spec {s : NetworkStackHandler n h l} {a : Buffers (Fin n)} {e : Fin n}
    (hv : s.value = a.val) (hL : Lists s a.unused a.incomplete)
    (hnd : (a.unused ++ a.incomplete.flatten).Nodup) (he : e ∉ a.unused ++ a.incomplete.flatten)
    (hen : s.next e = none) (hef : s.nextFragment e = none) :
    ∃ s' dn, collectFragment s e = some ((heads dn).head?, s') ∧
      (a.insertFragment s.timedOut e).ready = a.ready ++ dn ∧ (dn = [] ∨ ∃ c, dn = [c]) ∧
      s'.value = (a.insertFragment s.timedOut e).val ∧
      Gathered s s' (a.insertFragment s.timedOut e).unused
        (a.insertFragment s.timedOut e).incomplete dn := by
  have hlen : a.incomplete.length < n + 1 := by
    have h1 := length_le_length_flatten hL.incomplete.ne_nil
    have h2 := length_le_of_nodup (List.nodup_append.mp hnd).2.1
    omega
  have hp0 : SlotAfter ([] : List (List (Fin n))) .head := rfl
  obtain ⟨s1, p, u, pre, rest, k1, k2, k3, k4, k5⟩ := findLoop_spec (e := e) hp0 hL hnd hlen
  have hperm := (scan_spec (headIs s.value s.timedOut)
    (headIs s.value (sameDatagram (s.value e))) a.unused [] a.incomplete).perm
  rw [k1] at hperm
  have hnd1 : (u ++ (pre ++ rest).flatten).Nodup := hperm.nodup_iff.mpr hnd
  have he1 : e ∉ u ++ (pre ++ rest).flatten := fun hm => he (hperm.mem_iff.mp hm)
  rw [List.mem_append, not_or] at he1
  have hen1 : s1.next e = none := by
    rw [k5.next e, hen]
    intro hm
    rcases List.mem_append.mp hm with hm | hm
    · exact he1.1 hm
    · refine he1.2 ?_
      rw [List.flatten_append]
      exact List.mem_append_left _ (mem_flatten_of_mem_heads hm)
  have hef1 : s1.nextFragment e = none := by rw [k5.nextFragment, hef]
  have hv1 : s1.value = a.val := by rw [k5.value, hv]
  rw [hv] at k1
  rw [collectFragment, k2, Option.bind_some]
  unfold Buffers.insertFragment
  rw [Buffers.search, k1]
  cases rest with
  | nil =>
    rw [List.append_nil] at k4 hnd1 he1
    obtain ⟨s', l1, l2, l3⟩ := attachFragment_fresh k3 k4 hnd1 he1.2 hen1 hef1
    exact ⟨s', [], l1, by simp, .inl rfl, by rw [l2, hv1], k5.gathered l3 (by simp +contextual)⟩
  | cons c cs =>
    have hw := attachFragment_walk k3 k4.incomplete (List.nodup_append.mp hnd1).2.1 he1.2 hef1
    rw [hv1] at hw
    dsimp only
    by_cases hfit : fits a.val e c = true
    · rw [if_pos hfit] at hw ⊢
      obtain ⟨s2, l1, l2⟩ := hw
      have hv2 : s2.value = inherit a.val e c := by rw [l1.eq, hv1]
      rw [l2]
      by_cases hdone : complete a.val (placed a.val e c) = true
      · obtain ⟨x, xs, m1, m2, m3, m4⟩ := l1.done k3 k4 hnd1 he1.1
        rw [hv1] at m1 m4
        rw [if_pos hdone, if_pos hdone, m2]
        refine ⟨_, [placed a.val e c], by rw [m1]; rfl, rfl, .inr ⟨_, rfl⟩, by rw [m3, hv2],
          k5.gathered m4 (by simp +contextual)⟩
      · rw [if_neg hdone, if_neg hdone]
        have hG := l1.grown k4 hnd1 he1.1
        rw [hv1] at hG
        exact ⟨s2, [], rfl, by simp, .inl rfl, hv2, k5.gathered hG (by simp +contextual)⟩
    · rw [if_neg hfit] at hw ⊢
      refine ⟨s1, [], hw, by simp, .inl rfl, hv1, k5.gathered ?_ (by simp +contextual)⟩
      exact ⟨rfl, fun _ _ _ _ => rfl, fun _ _ _ => rfl, k4, by simp⟩

/-! ## Taking an unused element -/

/-- The state after `unusedPacketsHead = unusedPacketsHead->next` and
`unusedPacketListElement->next = nullptr`. -/
theorem Lists.tail {s : NetworkStackHandler n h l} {e : Fin n} {u : List (Fin n)}
    {cs : List (List (Fin n))} (hL : Lists s (e :: u) cs) (hnd : (e :: u ++ cs.flatten).Nodup) :
    Lists { s with unusedPacketsHead := s.next e, next := Function.update s.next e none } u cs := by
  rw [List.cons_append] at hnd
  have he := (List.nodup_cons.mp hnd).1
  rw [List.mem_append, not_or] at he
  exact ⟨hL.unused.2.update he.1, hL.incomplete.update_next he.2⟩

theorem relinked_tail (s : NetworkStackHandler n h l) (e : Fin n) (u : List (Fin n)) :
    Relinked (e :: u) s
      { s with unusedPacketsHead := s.next e, next := Function.update s.next e none } := by
  refine ⟨rfl, fun x hx => Function.update_of_ne ?_ _ _⟩
  rintro rfl; exact hx (by simp)

/-- The element taken has a null `next`; besides it only the unused list was
relinked. -/
theorem takeUnusedPacket_spec {s : NetworkStackHandler n h l} {a : Buffers (Fin n)}
    (hL : Lists s a.unused a.incomplete) (hnd : (a.unused ++ a.incomplete.flatten).Nodup) :
    ∃ s', takeUnusedPacket s = some (a.take.1, s') ∧
      Lists s' a.take.2.unused a.take.2.incomplete ∧
      Relinked (a.take.1.toList ++ a.take.2.unused) s s' ∧
      ∀ e, a.take.1 = some e → s'.next e = none := by
  unfold takeUnusedPacket Buffers.take
  rcases hu : a.unused with _ | ⟨e, u⟩
  · have hun : s.unusedPacketsHead = none := by have := hL.unused; rwa [hu] at this
    rcases hi : a.incomplete with _ | ⟨c, cs⟩
    · have hin : s.incompleteFragmentedDatagramsHead = none := by
        have := hL.incomplete; rwa [hi] at this
      refine ⟨s, ?_, hL, .refl _ s, by simp⟩
      simp only [makeSureUnusedPacketsHeadIsntNullptr, hun, hin]
      rfl
    · rw [hu, hi] at hL hnd
      obtain ⟨e, c, rfl, hin, -⟩ := hL.incomplete
      have hp0 : SlotAfter ([] : List (List (Fin n))) .head := rfl
      obtain ⟨s1, h1, h2, h3⟩ := free_at_slot hp0 hL hnd
      rw [List.append_nil, List.nil_append] at h2
      have hmk : makeSureUnusedPacketsHeadIsntNullptr s = some (0, s1) := by
        rw [makeSureUnusedPacketsHeadIsntNullptr, if_neg (by simp [hun]), hin]
        change Option.map _ (insertFragmentedPacketsInUnusedPacketsList
          (s.store (s.next e) .head) (some e)) = _
        rw [h1]
        rfl
      rw [hmk]
      simp only [Nat.zero_ne_one, if_false, h2.unused.1]
      refine ⟨_, rfl, h2.tail hnd, ?_, ?_⟩
      · refine h3.trans (relinked_tail s1 e c) ?_
        simp
      · rintro _ ⟨⟩; exact Function.update_self _ _ _
  · rw [hu] at hL hnd
    have hun : s.unusedPacketsHead = some e := hL.unused.1
    have hmk : makeSureUnusedPacketsHeadIsntNullptr s = some (0, s) := by
      rw [makeSureUnusedPacketsHeadIsntNullptr, hun]; rfl
    rw [hmk]
    simp only [Nat.zero_ne_one, if_false, hun]
    refine ⟨_, rfl, hL.tail hnd, relinked_tail s e u, ?_⟩
    rintro _ ⟨⟩; exact Function.update_self _ _ _

end CpuScheduler.L2
