import CpuScheduler.L2Network.Delivery

/-!
# Datagrams of different protocols

RFC 791 identifies a datagram by source, destination, protocol and
identification. `insertInIncompleteFragmentedDatagramsList` compares source,
destination and identification (lines 227-229) and not the protocol, although
it stores it, so a fragment is filed in the chain of another protocol's
datagram if such a chain is there. Without such an encounter every chain
consists of fragments of one datagram (`separate_without_encounter`); the
first fragment that meets a chain of another protocol, and fits, mixes the two.
-/
namespace CpuScheduler.L2

open Links Word NetworkStackHandler

/-- Fragments of one datagram, by RFC 791. -/
structure SameOrigin (p q : IPv4Packet) : Prop where
  sourceIP : p.sourceIP = q.sourceIP
  destIP : p.destIP = q.destIP
  protocol : p.protocol = q.protocol
  identification : p.identification = q.identification

theorem sameOrigin_iff (p q : IPv4Packet) : SameOrigin p q ↔ p.key = q.key ∧ p.protocol = q.protocol := by
  constructor
  · intro h
    refine ⟨?_, h.protocol⟩
    simp only [IPv4Packet.key, h.sourceIP, h.destIP, h.identification]
  · rintro ⟨hkey, hprotocol⟩
    simp only [IPv4Packet.key, Prod.mk.injEq] at hkey
    exact ⟨hkey.1, hkey.2.1, hprotocol, hkey.2.2⟩

instance (p q : IPv4Packet) : Decidable (SameOrigin p q) :=
  decidable_of_iff _ (sameOrigin_iff p q).symm

theorem Alike.protocol {p q : IPv4Packet} (h : Alike p q) : q.protocol = p.protocol := by
  obtain ⟨t, rfl⟩ := h
  rfl

namespace Buffers

variable {ι : Type} {exp : IPv4Packet → Bool} {a b : Buffers ι} {e : ι}

/-- Every chain is of one protocol. -/
def Unmixed (a : Buffers ι) : Prop :=
  ∀ c ∈ a.incomplete ++ a.ready, ∀ f ∈ c, ∀ g ∈ c, (a.val f).protocol = (a.val g).protocol

/-- The fragment `p` finds a live chain that has its source, destination and
identification, but another protocol. -/
def Encounter (exp : IPv4Packet → Bool) (val : ι → IPv4Packet) (cs : List (List ι)) (p : IPv4Packet) : Prop :=
  p.isFragment = true ∧ ∃ c ∈ cs, headIs val exp c = false ∧ (∀ f ∈ c, (val f).key = p.key) ∧
    ∃ f ∈ c, (val f).protocol ≠ p.protocol

theorem unmixed_of_alike {val val' : ι → IPv4Packet} {c : List ι} (h : ∀ f, Alike (val f) (val' f))
    (hc : ∀ f ∈ c, ∀ g ∈ c, (val f).protocol = (val g).protocol) :
    ∀ f ∈ c, ∀ g ∈ c, (val' f).protocol = (val' g).protocol := by
  intro f hf g hg
  rw [(h f).protocol, (h g).protocol]
  exact hc f hf g hg

theorem Encounter.congr {val val' : ι → IPv4Packet} {cs : List (List ι)} {p : IPv4Packet}
    (he : Encounter exp val cs p) (hv : ∀ c ∈ cs, ∀ f ∈ c, val' f = val f) : Encounter exp val' cs p := by
  obtain ⟨hfr, c, hc, hlive, hkey, f, hf, hne⟩ := he
  refine ⟨hfr, c, hc, ?_, fun g hg => by rw [hv c hc g hg]; exact hkey g hg, f, hf, by rwa [hv c hc f hf]⟩
  rcases c with _ | ⟨x, xs⟩
  · exact hlive
  · rw [headIs_cons] at hlive ⊢
    rwa [hv _ hc x (by simp)]

section Filed
variable [DecidableEq ι]

/-- A fragment that meets no chain of another protocol leaves every chain with
one protocol. -/
theorem Filed.unmixed (hF : Filed exp a e b) (hu : a.Unmixed) (hfr : (a.val e).isFragment = true)
    (hno : ¬ Encounter exp a.val a.incomplete (a.val e)) : b.Unmixed := by
  -- the chain the fragment is filed in is of its protocol
  have hplaced {u : List ι} {pre cs : List (List ι)} {c : List ι} (hS : Searched exp a e u pre (c :: cs)) :
      ∀ f ∈ placed a.val e c, ∀ g ∈ placed a.val e c, (a.val f).protocol = (a.val g).protocol := by
    have hc : c ∈ a.incomplete := hS.sub.subset (by simp)
    obtain ⟨hkey, hlive⟩ := hS.found c cs rfl
    have hown (f : ι) (hf : f ∈ placed a.val e c) : (a.val f).protocol = (a.val e).protocol := by
      rcases mem_placed.mp hf with rfl | hf
      · rfl
      · by_contra hne
        exact hno ⟨hfr, c, hc, hlive, hkey, f, hf, hne⟩
    intro f hf g hg
    rw [hown f hf, hown g hg]
  cases hF with
  | @fresh u pre hS =>
    intro c hc
    simp only [List.mem_append, List.mem_singleton] at hc
    rcases hc with (hc | rfl) | hc
    · exact hu c (List.mem_append_left _ (hS.sub.subset (by simpa using hc)))
    · intro f hf g hg
      rw [List.mem_singleton.mp hf, List.mem_singleton.mp hg]
    · exact hu c (List.mem_append_right _ hc)
  | @lost u pre c cs hS hx =>
    intro d hd
    rcases List.mem_append.mp hd with hd | hd
    · exact hu d (List.mem_append_left _ (hS.sub.subset hd))
    · exact hu d (List.mem_append_right _ hd)
  | @grown u pre c cs hS hf hd =>
    intro d hm
    refine unmixed_of_alike (inherit_alike a.val e c) ?_
    simp only [List.mem_append, List.mem_cons] at hm
    rcases hm with (hm | rfl | hm) | hm
    · exact hu d (List.mem_append_left _ (hS.sub.subset (by simp [hm])))
    · exact hplaced hS
    · exact hu d (List.mem_append_left _ (hS.sub.subset (by simp [hm])))
    · exact hu d (List.mem_append_right _ hm)
  | @done u pre c cs hS hf hd =>
    intro d hm
    refine unmixed_of_alike (inherit_alike a.val e c) ?_
    simp only [List.mem_append, List.mem_singleton] at hm
    rcases hm with (hm | hm) | hm | rfl
    · exact hu d (List.mem_append_left _ (hS.sub.subset (by simp [hm])))
    · exact hu d (List.mem_append_left _ (hS.sub.subset (by simp [hm])))
    · exact hu d (List.mem_append_right _ hm)
    · exact hplaced hS

/-- A fragment that meets a chain of another protocol and does not contradict
it is spliced into it. -/
theorem Filed.mixed (hF : Filed exp a e b) (hw : WF a) (hmeet : Encounter exp a.val a.incomplete (a.val e))
    (hclash : ¬ Clash exp a.val a.incomplete (a.val e)) : ¬ b.Unmixed := by
  obtain ⟨hfr, c, hc, hlive, hkey, f, hf, hne⟩ := hmeet
  have hmix : (inherit a.val e c f).protocol ≠ (inherit a.val e c e).protocol := by
    rw [(inherit_alike a.val e c f).protocol, (inherit_alike a.val e c e).protocol]
    exact hne
  have hmem (g : ι) : g ∈ placed a.val e c ↔ g = e ∨ g ∈ c := mem_placed
  intro hu
  cases hF with
  | fresh hS =>
    obtain ⟨cs, h⟩ := hS.rest_of_mem hw hc hlive hkey
    cases h
  | lost hS hx =>
    obtain ⟨cs, h⟩ := hS.rest_of_mem hw hc hlive hkey
    cases h
    exact hclash ⟨hfr, c, hc, hlive, hkey, hx⟩
  | grown hS _ _ =>
    obtain ⟨cs, h⟩ := hS.rest_of_mem hw hc hlive hkey
    cases h
    exact hmix (hu (placed a.val e c) (by simp) f ((hmem f).mpr (.inr hf)) e ((hmem e).mpr (.inl rfl)))
  | done hS _ _ =>
    obtain ⟨cs, h⟩ := hS.rest_of_mem hw hc hlive hkey
    cases h
    exact hmix (hu (placed a.val e c) (by simp) f ((hmem f).mpr (.inr hf)) e ((hmem e).mpr (.inl rfl)))

theorem Taken.fill_val_eq {a1 : Buffers ι} (ht : Taken a e a1) (p : IPv4Packet) {c : List ι}
    (hc : c ∈ a1.incomplete ++ a1.ready) {f : ι} (hf : f ∈ c) : (a1.fill e p).val f = a.val f := by
  rw [fill_val_of_ne, ht.val]
  rintro rfl
  refine ht.fresh ?_
  rw [all, List.append_assoc, ← List.flatten_append]
  exact List.mem_append_right _ (List.mem_flatten.mpr ⟨c, hc, hf⟩)

/-- The contents of an element outside the lists do not matter. -/
theorem Taken.unmixed {a1 : Buffers ι} (ht : Taken a e a1) (hu : a.Unmixed) (p : IPv4Packet) : (a1.fill e p).Unmixed := by
  intro c hc f hf g hg
  rw [ht.fill_val_eq p hc hf, ht.fill_val_eq p hc hg]
  refine hu c ?_ f hf g hg
  rcases List.mem_append.mp hc with hc | hc
  · exact List.mem_append_left _ (ht.incomplete_subset hc)
  · have hready : c ∈ a1.ready := hc
    rw [ht.ready] at hready
    exact List.mem_append_right _ hready

end Filed

end Buffers

variable {n h l : Nat}

/-- The frame is an accepted fragment that finds a chain of its source,
destination and identification which has not timed out and is of another
protocol. -/
def MeetsOtherProtocol (s : NetworkStackHandler n h l) (f : RxFrame) : Prop :=
  IsIPv4For f.data s.myIP f.dataLen ∧ ∃ old, Buffers.Encounter s.timedOut s.value (survivingChains s)
    (packetOf f.data s.timerCounter old)

/-- A call that does not hand over such a frame. -/
def OwnProtocol (s : NetworkStackHandler n h l) : Call → Prop
  | .incoming f => ¬ MeetsOtherProtocol s f
  | _ => True

/-- Every chain, incomplete or ready, consists of fragments of one datagram. -/
def Separate (s : NetworkStackHandler n h l) : Prop :=
  ∀ c ∈ incompleteChains s ++ readyChains s, ∀ f ∈ c, ∀ g ∈ c, SameOrigin (s.value f) (s.value g)

instance (s : NetworkStackHandler n h l) : Decidable (Separate s) :=
  inferInstanceAs (Decidable (∀ c ∈ _, ∀ f ∈ c, ∀ g ∈ c, SameOrigin (s.value f) (s.value g)))

theorem Rep.separate_iff {s : NetworkStackHandler n h l} {a : Buffers (Fin n)} (hr : Rep s a) :
    Separate s ↔ a.Unmixed := by
  obtain ⟨-, hincomplete, hready⟩ := hr.lists_eq
  unfold Separate Buffers.Unmixed
  rw [hincomplete, hready, hr.val]
  constructor
  · intro hs c hc f hf g hg
    exact (hs c hc f hf g hg).protocol
  · intro hu c hc f hf g hg
    refine (sameOrigin_iff _ _).mpr ⟨?_, hu c hc f hf g hg⟩
    rcases List.mem_append.mp hc with hc | hc
    · exact (hr.wf.parts c hc).key f hf g hg
    · exact (hr.wf.whole c hc).key f hf g hg

theorem encounter_packetOf {exp : IPv4Packet → Bool} {val : Fin n → IPv4Packet} {cs : List (List (Fin n))}
    {data : Nat → UInt8} {t : Int} {old : IPv4Packet} (old' : IPv4Packet)
    (he : Buffers.Encounter exp val cs (packetOf data t old)) : Buffers.Encounter exp val cs (packetOf data t old') := he

/-- An accepted frame that meets no chain of another protocol. -/
theorem unmixed_accept {exp : IPv4Packet → Bool} {a : Buffers (Fin n)} {data : Nat → UInt8} {t : Int} (hw : a.WF)
    (hu : a.Unmixed) (hno : ∀ e a1, Buffers.Taken a e a1 →
      ¬ Buffers.Encounter exp a.val a1.incomplete (packetOf data t (a.val e))) :
    (a.accept exp (packetOf data t)).Unmixed := by
  have hA := Buffers.accept_accepted exp hw (packetOf data t)
  generalize a.accept exp (packetOf data t) = b at hA
  cases hA with
  | dropped => exact hu
  | @whole e a1 ht hfr =>
    have hu1 := ht.unmixed hu (packetOf data t (a.val e))
    intro c hc
    simp only [List.mem_append, List.mem_singleton] at hc
    rcases hc with hc | hc | rfl
    · exact hu1 c (List.mem_append_left _ hc)
    · rw [← ht.ready] at hc
      exact hu1 c (List.mem_append_right _ hc)
    · intro f hf g hg
      rw [List.mem_singleton.mp hf, List.mem_singleton.mp hg]
  | @fragment e a1 b ht hfr hF =>
    have hu1 := ht.unmixed hu (packetOf data t (a.val e))
    refine hF.unmixed hu1 (by rwa [Buffers.fill_val_self]) fun hmeet => ?_
    rw [Buffers.fill_val_self] at hmeet
    refine hno e a1 ht (hmeet.congr fun c hc f hf => ?_)
    exact (ht.fill_val_eq _ (List.mem_append_left _ hc) hf).symm

/-- An accepted frame that meets a chain of another protocol and fits. -/
theorem mixed_accept {exp : IPv4Packet → Bool} {a a1 : Buffers (Fin n)} {e : Fin n} {data : Nat → UInt8} {t : Int}
    (hw : a.WF) (ht : Buffers.Taken a e a1) (hmeet : Buffers.Encounter exp a.val a1.incomplete (packetOf data t (a.val e)))
    (hclash : ¬ Buffers.Clash exp a.val a1.incomplete (packetOf data t (a.val e))) :
    ¬ (a.accept exp (packetOf data t)).Unmixed := by
  have hA := Buffers.accept_accepted exp hw (packetOf data t)
  generalize a.accept exp (packetOf data t) = b at hA
  have huniq {e' : Fin n} {a1' : Buffers (Fin n)} (ht' : Buffers.Taken a e' a1') : e = e' ∧ a1 = a1' := by
    have := ht.eq.symm.trans ht'.eq
    simpa using this
  cases hA with
  | dropped hunused hincomplete =>
    rcases ht.lists with ⟨h1, -⟩ | ⟨-, h1⟩
    · rw [hunused] at h1
      cases h1
    · rw [hincomplete] at h1
      cases h1
  | whole ht' hfr =>
    obtain ⟨rfl, rfl⟩ := huniq ht'
    rw [hmeet.1] at hfr
    cases hfr
  | fragment ht' hfr hF =>
    obtain ⟨rfl, rfl⟩ := huniq ht'
    have hval (c : List (Fin n)) (hc : c ∈ a1.incomplete) (f : Fin n) (hf : f ∈ c) :
        (a1.fill e (packetOf data t (a.val e))).val f = a.val f := ht.fill_val_eq _ (List.mem_append_left _ hc) hf
    refine hF.mixed (ht.wf.setVal ht.fresh _) ?_ fun hc => ?_
    · rw [Buffers.fill_val_self]
      exact hmeet.congr hval
    · rw [Buffers.fill_val_self] at hc
      exact hclash (hc.congr fun c hc f hf => (hval c hc f hf).symm)

theorem separate_step [NeZero h] {s t : NetworkStackHandler n h l} {a : Buffers (Fin n)} (hr : Rep s a)
    (hs : Separate s) {c : Call} (hc : OwnProtocol s c) (hst : s.call c = some t) : Separate t := by
  obtain ⟨t', h1, h2⟩ := call_refines hr c
  rw [hst, Option.some.injEq] at h1
  subst h1
  rw [h2.separate_iff]
  rw [hr.separate_iff] at hs
  cases c with
  | incoming f =>
    simp only [Buffers.after]
    split
    · rename_i hf
      refine unmixed_accept hr.wf hs fun e a1 ht hmeet => hc ⟨hf, a.val e, ?_⟩
      rw [hr.val, hr.surviving ht]
      exact hmeet
    · exact hs
  | pop =>
    simp only [Buffers.after, Buffers.pop]
    split
    · exact hs
    · rename_i c cs hready
      intro d hd
      refine hs d ?_
      rw [hready]
      simp only [List.mem_append, List.mem_cons] at hd ⊢
      tauto
  | outgoing | tick => exact hs

/-- In every run in which no fragment meets a chain of another protocol, all
fragments of a chain agree on source, destination, protocol and
identification; the first fragment that does meet one, without contradicting
it, breaks this. -/
theorem separate_without_encounter [NeZero n] [NeZero h] :
    (∀ s : NetworkStackHandler n h l, ((handlerLTS n h l).Guarded OwnProtocol).Reachable s →
      ReadyList s (readyChains s) ∧ Separate s) ∧
    ∀ (s t : NetworkStackHandler n h l) (f : RxFrame), ((handlerLTS n h l).Guarded OwnProtocol).Reachable s →
      s.call (.incoming f) = some t → MeetsOtherProtocol s f → ¬ ContradictsChain s f → ¬ Separate t := by
  have hinv : ∀ s, ((handlerLTS n h l).Guarded OwnProtocol).Reachable s → (∃ a, Rep s a) ∧ Separate s := by
    refine LTS.Inductive.reachable ⟨?_, ?_⟩
    · intro s hs
      obtain ⟨mem, myMac, myIP, gatewayIP, networkMask, rfl⟩ := hs
      have hr := rep_init mem myMac myIP gatewayIP networkMask
      refine ⟨⟨_, hr⟩, hr.separate_iff.mpr ?_⟩
      intro c hc
      cases hc
    · intro s c t hs hstep
      obtain ⟨⟨a, hr⟩, hsep⟩ := hs
      obtain ⟨hown, hcall⟩ := hstep
      have hsome : s.call c = some t := hcall
      obtain ⟨t', h1, h2⟩ := call_refines hr c
      rw [h1, Option.some.injEq] at hsome
      subst hsome
      exact ⟨⟨_, h2⟩, separate_step hr hsep hown h1⟩
  refine ⟨fun s hs => ?_, fun s t f hs hcall hmeet hcontra => ?_⟩
  · obtain ⟨⟨a, hr⟩, hsep⟩ := hinv s hs
    rw [hr.lists_eq.2.2]
    exact ⟨hr.ready, hsep⟩
  · obtain ⟨⟨a, hr⟩, -⟩ := hinv s hs
    obtain ⟨t', h1, h2⟩ := call_refines hr (.incoming f)
    rw [hcall, Option.some.injEq] at h1
    subst h1
    rw [h2.separate_iff]
    obtain ⟨hf, old, hmeet⟩ := hmeet
    simp only [Buffers.after]
    rw [if_pos hf]
    rcases Buffers.take_cases hr.wf with ⟨-, hincomplete, -⟩ | ⟨e, a1, ht⟩
    · obtain ⟨-, c, hc, -⟩ := hmeet
      rw [survivingChains, hr.lists_eq.2.1, hincomplete] at hc
      simp at hc
    · rw [hr.val, hr.surviving ht] at hmeet
      refine mixed_accept hr.wf ht (encounter_packetOf _ hmeet) fun hclash => hcontra ⟨hf, a.val e, ?_⟩
      rw [hr.val, hr.surviving ht]
      exact hclash

/-- `smallFrame` with protocol 6 (TCP). -/
def tcpFrame (flags offset : UInt8) : RxFrame where
  data i := if i = 23 then 6 else (smallFrame flags offset).data i
  dataLen := 42
  fits := fits_42

theorem separate_without_encounter_twoBuffers :
    ∃ t, twoBuffers.call (.incoming (smallFrame 0x20 0)) = some t ∧ ReadyList t (readyChains t) ∧ Separate t := by
  obtain ⟨t, ht⟩ := Option.isSome_iff_exists.mp
    (show (twoBuffers.call (.incoming (smallFrame 0x20 0))).isSome = true by decide +kernel)
  have hown : OwnProtocol twoBuffers (.incoming (smallFrame 0x20 0)) := by
    rintro ⟨-, old, -, c, hc, -⟩
    rw [show survivingChains twoBuffers = [] by decide] at hc
    cases hc
  exact ⟨t, ht, separate_without_encounter.1 t ⟨twoBuffers, _, init_twoBuffers, .cons ⟨hown, ht⟩ (.nil t)⟩⟩

/-- The first half of a UDP datagram and the second half of a TCP segment with
the same identification are delivered as one datagram. -/
theorem spliced_across_protocols :
    ∃ s : NetworkStackHandler 2 1 1, (handlerLTS 2 1 1).Reachable s ∧ readyChains s = [[0, 1]] ∧
      (s.value 0).protocol = 17 ∧ (s.value 1).protocol = 6 ∧ ¬ Separate s := by
  have hrun : (twoBuffers.calls [.incoming (smallFrame 0x20 0), .incoming (tcpFrame 0 1)]).any
      (fun s => decide (readyChains s = [[0, 1]] ∧ (s.value 0).protocol = 17 ∧ (s.value 1).protocol = 6 ∧ ¬ Separate s)) =
      true := by decide +kernel
  rw [Option.any_eq_true] at hrun
  obtain ⟨s, hs, hmixed⟩ := hrun
  exact ⟨s, reachable_of_calls init_twoBuffers hs, of_decide_eq_true hmixed⟩

end CpuScheduler.L2
