import CpuScheduler.L2Network.Handler

/-!
# Reassembly on lists

What the packet buffers of a `NetworkStackHandler` are for, without
pointers: three lists over the elements `ι`, two of them lists of chains,
and the packet each element holds.

* `take` removes an unused element, evicting the oldest incomplete chain if
  there is none; `put` stores a packet in it and files it; `accept` is both.
* `insertFragment` files a fragment: `scan` drops the timed-out chains in
  front of the chain with the same key, and the fragment is put in offset
  order (`placed`) into that chain, which moves to the end of the ready list
  when it is `complete`.
* `pop` frees the front of the ready list.

`WF` is the invariant: no element occurs twice, no two incomplete chains
have the same key, incomplete chains are in offset order with the
more-fragments flag on all but the last fragment and not complete, and ready
chains are whole datagrams. A fragment that does not fit (`fits`) is put nowhere; for a chain
in offset order that is `Contradicts`: it lies beyond a last fragment, or is
a last fragment that does not come last.
-/
namespace CpuScheduler.L2

open NetworkStackHandler

variable {ι : Type}

/-- What identifies a datagram for the code: source, destination and
identification. -/
def IPv4Packet.key (p : IPv4Packet) : UInt32 × UInt32 × Nat :=
  (p.sourceIP, p.destIP, p.identification)

theorem sameDatagram_iff (p q : IPv4Packet) : sameDatagram p q = true ↔ p.key = q.key := by
  simp [sameDatagram, IPv4Packet.key, and_assoc]

/-- A packet that is not a whole datagram. -/
def IPv4Packet.isFragment (p : IPv4Packet) : Bool := p.moreFragments || p.fragmentOffset != 0

/-- The packet buffers: what each element holds, and the three lists. -/
structure Buffers (ι : Type) where
  val : ι → IPv4Packet
  unused : List ι
  incomplete : List (List ι)
  ready : List (List ι)

/-! ## Chains of fragments -/

section Chain
variable (val : ι → IPv4Packet)

/-- The fragments of `c` in front of the place of `e`. -/
def before (e : ι) (c : List ι) : List ι :=
  c.takeWhile fun f => decide ((val f).fragmentOffset < (val e).fragmentOffset)

def after (e : ι) (c : List ι) : List ι :=
  c.dropWhile fun f => decide ((val f).fragmentOffset < (val e).fragmentOffset)

def placed (e : ι) (c : List ι) : List ι := before val e c ++ e :: after val e c

/-- Every fragment in front of `e` has more fragments, and so has `e` itself
unless it comes last. -/
def fits (e : ι) (c : List ι) : Bool :=
  (before val e c).all (fun f => (val f).moreFragments) &&
    ((after val e c).isEmpty || (val e).moreFragments)

/-- Each fragment starts where the one before it ends, the first at `o`. -/
def contiguous : Nat → List ι → Bool
  | _, [] => true
  | o, f :: fs => (val f).fragmentOffset == o &&
      contiguous ((val f).fragmentOffset + (val f).dataSize) fs

/-- Where the fragments that follow `c` have to start. -/
def endOf : Nat → List ι → Nat
  | o, [] => o
  | _, f :: fs => endOf ((val f).fragmentOffset + (val f).dataSize) fs

/-- The last fragment of `c` has no more fragments. -/
def closed (c : List ι) : Bool := c.getLast?.any fun f => !(val f).moreFragments

def complete (c : List ι) : Bool := contiguous val 0 c && closed val c

/-- Fragments of one datagram in offset order, none but the last marked as
the last. -/
structure PartialChain (c : List ι) : Prop where
  ne_nil : c ≠ []
  key : ∀ f ∈ c, ∀ g ∈ c, (val f).key = (val g).key
  sorted : c.Pairwise fun f g => (val f).fragmentOffset ≤ (val g).fragmentOffset
  more : ∀ f ∈ c.dropLast, (val f).moreFragments = true

/-- A whole datagram: the first fragment starts at 0, each other where the
one before it ends, and exactly the last has no more fragments. -/
structure CompleteChain (c : List ι) : Prop where
  ne_nil : c ≠ []
  key : ∀ f ∈ c, ∀ g ∈ c, (val f).key = (val g).key
  first : ∀ f, c.head? = some f → (val f).fragmentOffset = 0
  follow : c.IsChain fun f g => (val g).fragmentOffset = (val f).fragmentOffset + (val f).dataSize
  more : ∀ f ∈ c.dropLast, (val f).moreFragments = true
  last : ∀ f, c.getLast? = some f → (val f).moreFragments = false

/-- No fragment of `c` belongs to the same datagram as one of `d`. -/
def KeysApart (c d : List ι) : Prop := ∀ f ∈ c, ∀ g ∈ d, (val f).key ≠ (val g).key

/-- `p` contradicts `c` about where the datagram ends: it lies beyond a last
fragment, or is a last fragment and does not lie beyond all others. -/
def Contradicts (p : IPv4Packet) (c : List ι) : Prop :=
  (∃ f ∈ c, (val f).fragmentOffset < p.fragmentOffset ∧ (val f).moreFragments = false) ∨
    (p.moreFragments = false ∧ ∃ f ∈ c, p.fragmentOffset ≤ (val f).fragmentOffset)

end Chain

/-- The two packets differ in `createdTime` at most. -/
def Alike (p q : IPv4Packet) : Prop := ∃ t, q = { p with createdTime := t }

theorem Alike.refl (p : IPv4Packet) : Alike p p := ⟨p.createdTime, rfl⟩

section Chain
variable {val val' : ι → IPv4Packet}

theorem before_append_after (val : ι → IPv4Packet) (e : ι) (c : List ι) :
    before val e c ++ after val e c = c := List.takeWhile_append_dropWhile

theorem mem_placed {e f : ι} {c : List ι} : f ∈ placed val e c ↔ f = e ∨ f ∈ c := by
  have h : f ∈ c ↔ f ∈ before val e c ∨ f ∈ after val e c := by
    rw [← List.mem_append, before_append_after]
  simp only [placed, List.mem_append, List.mem_cons, h]; tauto

theorem placed_perm (val : ι → IPv4Packet) (e : ι) (c : List ι) : (placed val e c).Perm (e :: c) := by
  have h : (placed val e c).Perm (e :: (before val e c ++ after val e c)) := List.perm_middle
  rwa [before_append_after] at h

theorem lt_of_mem_before {e f : ι} {c : List ι} (h : f ∈ before val e c) :
    (val f).fragmentOffset < (val e).fragmentOffset := by
  have := List.mem_takeWhile_imp h
  simpa using this

/-- In a chain in offset order, everything behind the place of `e` has at
least its offset. -/
theorem le_of_mem_after {e f : ι} {c : List ι}
    (hs : c.Pairwise fun f g => (val f).fragmentOffset ≤ (val g).fragmentOffset)
    (h : f ∈ after val e c) : (val e).fragmentOffset ≤ (val f).fragmentOffset := by
  have hsub : (after val e c).Sublist c := List.dropWhile_sublist _
  cases ha : after val e c with
  | nil => rw [ha] at h; cases h
  | cons g gs =>
    have hg : ¬ (val g).fragmentOffset < (val e).fragmentOffset := by
      have := List.head?_dropWhile_not
        (fun f => decide ((val f).fragmentOffset < (val e).fragmentOffset)) c
      rw [show c.dropWhile _ = g :: gs from ha] at this
      simpa using this
    have hp := hs.sublist hsub
    rw [ha] at h hp
    rcases List.mem_cons.mp h with rfl | h
    · omega
    · have := (List.pairwise_cons.mp hp).1 f h; omega

theorem contiguous_append (o : Nat) (c d : List ι) :
    contiguous val o (c ++ d) = (contiguous val o c && contiguous val (endOf val o c) d) := by
  induction c generalizing o with
  | nil => simp [contiguous, endOf]
  | cons f fs ih => simp [contiguous, endOf, ih, Bool.and_assoc]

theorem contiguous_cons_iff (o : Nat) (f : ι) (fs : List ι) : contiguous val o (f :: fs) = true ↔
    (val f).fragmentOffset = o ∧ (f :: fs).IsChain fun f g =>
      (val g).fragmentOffset = (val f).fragmentOffset + (val f).dataSize := by
  induction fs generalizing o f with
  | nil => simp [contiguous]
  | cons g gs ih =>
    rw [contiguous, Bool.and_eq_true, beq_iff_eq, ih, List.isChain_cons_cons]

theorem contiguous_congr (h : ∀ f, Alike (val f) (val' f)) (o : Nat) (c : List ι) :
    contiguous val' o c = contiguous val o c := by
  induction c generalizing o with
  | nil => rfl
  | cons f fs ih =>
    obtain ⟨t, ht⟩ := h f
    simp only [contiguous, ih, ht]

theorem closed_congr (h : ∀ f, Alike (val f) (val' f)) (c : List ι) :
    closed val' c = closed val c := by
  unfold closed
  congr 1
  funext f
  obtain ⟨t, ht⟩ := h f
  rw [ht]

theorem complete_congr (h : ∀ f, Alike (val f) (val' f)) (c : List ι) :
    complete val' c = complete val c := by
  rw [complete, complete, contiguous_congr h, closed_congr h]

/-- Only the packets of the chain decide whether it is complete. -/
theorem complete_eq_of_mem {c : List ι} (h : ∀ f ∈ c, val' f = val f) :
    complete val' c = complete val c := by
  have hc : ∀ o, contiguous val' o c = contiguous val o c := by
    induction c with
    | nil => exact fun _ => rfl
    | cons f fs ih =>
      intro o
      rw [contiguous, contiguous, h f (by simp), ih fun g hg => h g (by simp [hg])]
  have hl : closed val' c = closed val c := by
    unfold closed
    cases hg : c.getLast? with
    | none => rfl
    | some f => simp only [Option.any_some, h f (List.mem_of_getLast? hg)]
  rw [complete, complete, hc, hl]

theorem complete_singleton (val : ι → IPv4Packet) (e : ι) :
    complete val [e] = !(val e).isFragment := by
  cases hm : (val e).moreFragments <;>
    simp [complete, contiguous, closed, IPv4Packet.isFragment, hm, bne]

theorem PartialChain.congr {c : List ι} (hc : PartialChain val c)
    (h : ∀ f ∈ c, Alike (val f) (val' f)) : PartialChain val' c where
  ne_nil := hc.ne_nil
  key f hf g hg := by
    obtain ⟨t, ht⟩ := h f hf
    obtain ⟨u, hu⟩ := h g hg
    rw [ht, hu]; exact hc.key f hf g hg
  sorted := hc.sorted.imp_of_mem fun {f g} hf hg hle => by
    obtain ⟨t, ht⟩ := h f hf
    obtain ⟨u, hu⟩ := h g hg
    rw [ht, hu]; exact hle
  more f hf := by
    obtain ⟨t, ht⟩ := h f (List.mem_of_mem_dropLast hf)
    rw [ht]; exact hc.more f hf

theorem CompleteChain.congr {c : List ι} (hc : CompleteChain val c)
    (h : ∀ f ∈ c, val' f = val f) : CompleteChain val' c where
  ne_nil := hc.ne_nil
  key f hf g hg := by rw [h f hf, h g hg]; exact hc.key f hf g hg
  first f hf := by rw [h f (List.mem_of_head? hf)]; exact hc.first f hf
  follow := hc.follow.imp_of_mem_imp fun f g hf hg e => by rw [h f hf, h g hg]; exact e
  more f hf := by rw [h f (List.mem_of_mem_dropLast hf)]; exact hc.more f hf
  last f hf := by rw [h f (List.mem_of_getLast? hf)]; exact hc.last f hf

theorem PartialChain.singleton (val : ι → IPv4Packet) (e : ι) : PartialChain val [e] :=
  ⟨by simp, by simp, List.pairwise_singleton _ _, by simp⟩

theorem CompleteChain.singleton {e : ι} (hm : (val e).moreFragments = false)
    (ho : (val e).fragmentOffset = 0) : CompleteChain val [e] :=
  ⟨by simp, by simp, by simpa using ho, .singleton _, by simp, by simpa using hm⟩

/-- A partial chain that passes the completeness test is a whole datagram. -/
theorem PartialChain.toComplete {c : List ι} (hc : PartialChain val c)
    (h : complete val c = true) : CompleteChain val c := by
  rw [complete, Bool.and_eq_true] at h
  obtain ⟨h1, h2⟩ := h
  obtain ⟨f, fs, rfl⟩ := List.exists_cons_of_ne_nil hc.ne_nil
  rw [contiguous_cons_iff] at h1
  refine ⟨hc.ne_nil, hc.key, ?_, h1.2, hc.more, ?_⟩
  · intro g hg
    simp only [List.head?_cons, Option.some.injEq] at hg; subst hg; exact h1.1
  · intro g hg
    simpa [closed, hg] using h2

/-- Filing a fragment that fits keeps the chain in order. -/
theorem PartialChain.placed {e : ι} {c : List ι} (hc : PartialChain val c)
    (hk : ∀ f ∈ c, (val f).key = (val e).key) (hf : fits val e c = true) :
    PartialChain val (placed val e c) := by
  rw [fits, Bool.and_eq_true, List.all_eq_true] at hf
  obtain ⟨hb, ha⟩ := hf
  have hsplit := before_append_after val e c
  have hs := hc.sorted
  rw [← hsplit, List.pairwise_append] at hs
  refine ⟨by simp [L2.placed], ?_, ?_, ?_⟩
  · intro f hf g hg
    rcases mem_placed.mp hf with rfl | hf' <;> rcases mem_placed.mp hg with rfl | hg'
    · rfl
    · exact (hk g hg').symm
    · exact hk f hf'
    · exact hc.key f hf' g hg'
  · rw [L2.placed, List.pairwise_append]
    refine ⟨hs.1, List.pairwise_cons.mpr ⟨fun f hf => le_of_mem_after hc.sorted hf, hs.2.1⟩, ?_⟩
    intro f hf g hg
    rcases List.mem_cons.mp hg with rfl | hg
    · exact (lt_of_mem_before hf).le
    · exact hs.2.2 f hf g hg
  · intro f hf
    rw [L2.placed, List.dropLast_append_of_ne_nil (by simp), List.mem_append] at hf
    rcases hf with hf | hf
    · exact hb f hf
    · cases hd : after val e c with
      | nil => rw [hd] at hf; cases hf
      | cons g gs =>
        rw [hd, List.dropLast_cons_of_ne_nil (by simp), List.mem_cons] at hf
        rcases hf with rfl | hf
        · simpa [hd] using ha
        · apply hc.more f
          rw [← hsplit, hd, List.dropLast_append_of_ne_nil (by simp)]
          exact List.mem_append_right _ hf

/-- A fragment that does not fit contradicts the chain, and conversely. -/
theorem fits_eq_false_iff {e : ι} {c : List ι} (hc : PartialChain val c) :
    fits val e c = false ↔ Contradicts val (val e) c := by
  have hmem : ∀ f, f ∈ c ↔ f ∈ before val e c ∨ f ∈ after val e c := fun f => by
    rw [← List.mem_append, before_append_after]
  rw [fits, Bool.and_eq_false_iff, Bool.or_eq_false_iff, List.all_eq_false]
  constructor
  · rintro (⟨f, hf, hm⟩ | ⟨ha, hm⟩)
    · exact .inl ⟨f, (hmem f).mpr (.inl hf), lt_of_mem_before hf, by simpa using hm⟩
    · obtain ⟨f, hf⟩ := List.exists_mem_of_ne_nil _ (by simpa using ha)
      exact .inr ⟨hm, f, (hmem f).mpr (.inr hf), le_of_mem_after hc.sorted hf⟩
  · rintro (⟨f, hf, hlt, hm⟩ | ⟨hm, f, hf, hle⟩)
    · left
      refine ⟨f, ?_, by simpa using hm⟩
      rcases (hmem f).mp hf with hf | hf
      · exact hf
      · have := le_of_mem_after hc.sorted hf; omega
    · right
      refine ⟨?_, hm⟩
      rcases (hmem f).mp hf with hf | hf
      · have := lt_of_mem_before hf; omega
      · cases h : after val e c with
        | nil => rw [h] at hf; cases hf
        | cons => rfl

theorem KeysApart.congr {c d : List ι} (h : KeysApart val c d)
    (hv : ∀ f, (val' f).key = (val f).key) : KeysApart val' c d := by
  intro f hf g hg
  rw [hv, hv]
  exact h f hf g hg

/-- A fragment filed in the chain of its datagram keeps the chain apart from
the others. -/
theorem keysApart_placed {e : ι} {c : List ι} (hne : c ≠ [])
    (hk : ∀ f ∈ c, (val f).key = (val e).key) {d : List ι} :
    (KeysApart val c d → KeysApart val (placed val e c) d) ∧
      (KeysApart val d c → KeysApart val d (placed val e c)) := by
  obtain ⟨x, hx⟩ := List.exists_mem_of_ne_nil c hne
  constructor
  · intro h f hf g hg
    rcases mem_placed.mp hf with rfl | hf
    · rw [← hk x hx]; exact h x hx g hg
    · exact h f hf g hg
  · intro h f hf g hg
    rcases mem_placed.mp hg with rfl | hg
    · rw [← hk x hx]; exact h f hf x hx
    · exact h f hf g hg

end Chain

/-! ## The search for a chain -/

section Scan
variable (expired same : List ι → Bool)

/-- Go over the incomplete chains `cs`, freeing the expired ones, up to the
first one that is the same datagram. The result is the unused list, the
chains passed and the chains from the one found on. -/
def scan : List ι → List (List ι) → List (List ι) → List ι × List (List ι) × List (List ι)
  | u, pre, [] => (u, pre, [])
  | u, pre, c :: cs =>
    if expired c then scan (c ++ u) pre cs
    else if same c then (u, pre, c :: cs)
    else scan u (pre ++ [c]) cs

/-- What `scan` returns, in terms of what it was given. -/
structure Scanned (u : List ι) (pre cs : List (List ι))
    (r : List ι × List (List ι) × List (List ι)) : Prop where
  perm : (r.1 ++ (r.2.1 ++ r.2.2).flatten).Perm (u ++ (pre ++ cs).flatten)
  unused : u <:+ r.1
  sub : (r.2.1 ++ r.2.2).Sublist (pre ++ cs)
  kept : ∀ c ∈ pre ++ cs, c ∈ r.2.1 ++ r.2.2 ∨ expired c = true
  passed : ∀ c ∈ r.2.1, c ∈ pre ∨ same c = false ∧ expired c = false
  found : ∀ c ds, r.2.2 = c :: ds → same c = true ∧ expired c = false

theorem scan_spec (u : List ι) (pre cs : List (List ι)) :
    Scanned expired same u pre cs (scan expired same u pre cs) := by
  induction cs generalizing u pre with
  | nil =>
    exact ⟨.refl _, List.suffix_refl u, .refl _, fun c hc => .inl hc, fun c hc => .inl hc, fun c ds h => by cases h⟩
  | cons c cs ih =>
    unfold scan
    split
    · rename_i hexp
      have h := ih (c ++ u) pre
      refine ⟨h.perm.trans ?_, (List.suffix_append c u).trans h.unused, h.sub.trans ?_, ?_, h.passed, h.found⟩
      · simp only [List.flatten_append, List.flatten_cons, List.append_assoc]
        exact List.perm_append_comm_assoc c u _ |>.trans
          (.append_left u (List.perm_append_comm_assoc c pre.flatten _))
      · exact (List.sublist_cons_self c cs).append_left pre
      · intro d hd
        simp only [List.mem_append, List.mem_cons] at hd
        rcases hd with hd | rfl | hd
        · exact h.kept d (by simp [hd])
        · exact .inr hexp
        · exact h.kept d (by simp [hd])
    · rename_i hexp
      split
      · rename_i hsame
        refine ⟨.refl _, List.suffix_refl u, .refl _, fun d hd => .inl hd, fun d hd => .inl hd, ?_⟩
        rintro d ds h
        cases h
        exact ⟨hsame, by simpa using hexp⟩
      · rename_i hsame
        have h := ih u (pre ++ [c])
        refine ⟨by simpa using h.perm, h.unused, by simpa using h.sub, by simpa using h.kept,
          fun d hd => ?_, h.found⟩
        rcases h.passed d hd with hd | hd
        · rcases List.mem_append.mp hd with hd | hd
          · exact .inl hd
          · rw [List.mem_singleton.mp hd]
            exact .inr ⟨by simpa using hsame, by simpa using hexp⟩
        · exact .inr hd

end Scan

/-! ## The operations -/

/-- A test on the packet in the head of a chain. -/
def headIs (val : ι → IPv4Packet) (P : IPv4Packet → Bool) (c : List ι) : Bool :=
  c.head?.any fun x => P (val x)

@[simp] theorem headIs_cons (val : ι → IPv4Packet) (P : IPv4Packet → Bool) (x : ι) (xs : List ι) :
    headIs val P (x :: xs) = P (val x) := by
  simp [headIs]

/-- A new first fragment takes over the time of the old one. -/
def inherit [DecidableEq ι] (val : ι → IPv4Packet) (e : ι) (c : List ι) : ι → IPv4Packet :=
  match before val e c, c with
  | [], x :: _ => Function.update val e { val e with createdTime := (val x).createdTime }
  | _, _ => val

namespace Buffers

/-- Every element in one of the lists. -/
def all (a : Buffers ι) : List ι := a.unused ++ a.incomplete.flatten ++ a.ready.flatten

/-- The chains passed and found by `scan` for the fragment in `e`; `exp` is
the timeout test. -/
def search (exp : IPv4Packet → Bool) (a : Buffers ι) (e : ι) :
    List ι × List (List ι) × List (List ι) :=
  scan (headIs a.val exp) (headIs a.val (sameDatagram (a.val e))) a.unused [] a.incomplete

def insertFragment [DecidableEq ι] (exp : IPv4Packet → Bool) (a : Buffers ι) (e : ι) : Buffers ι :=
  match a.search exp e with
  | (u, pre, []) => { a with unused := u, incomplete := pre ++ [[e]] }
  | (u, pre, c :: cs) =>
    if fits a.val e c then
      if complete a.val (placed a.val e c) then
        { val := inherit a.val e c, unused := u, incomplete := pre ++ cs,
          ready := a.ready ++ [placed a.val e c] }
      else
        { val := inherit a.val e c, unused := u, incomplete := pre ++ placed a.val e c :: cs,
          ready := a.ready }
    else { a with unused := u, incomplete := pre ++ c :: cs }

/-- An unused element, or the first of the oldest incomplete chain (the rest
of which becomes unused). -/
def take (a : Buffers ι) : Option ι × Buffers ι :=
  match a.unused, a.incomplete with
  | e :: u, _ => (some e, { a with unused := u })
  | [], (e :: u) :: cs => (some e, { a with unused := u, incomplete := cs })
  | [], _ => (none, a)

def put [DecidableEq ι] (exp : IPv4Packet → Bool) (a : Buffers ι) (e : ι) (p : IPv4Packet) :
    Buffers ι :=
  let a := { a with val := Function.update a.val e p }
  if p.isFragment then a.insertFragment exp e else { a with ready := a.ready ++ [[e]] }

/-- Take a buffer and file the packet `mk` makes of its old content. -/
def accept [DecidableEq ι] (exp : IPv4Packet → Bool) (a : Buffers ι) (mk : IPv4Packet → IPv4Packet) :
    Buffers ι :=
  match a.take with
  | (none, a) => a
  | (some e, a) => a.put exp e (mk (a.val e))

def pop (a : Buffers ι) : Buffers ι :=
  match a.ready with
  | [] => a
  | c :: cs => { a with unused := c ++ a.unused, ready := cs }

/-- The invariant of the packet buffers. -/
structure WF (a : Buffers ι) : Prop where
  nodup : a.all.Nodup
  keys : a.incomplete.Pairwise (KeysApart a.val)
  parts : ∀ c ∈ a.incomplete, PartialChain a.val c
  pending : ∀ c ∈ a.incomplete, complete a.val c = false
  whole : ∀ c ∈ a.ready, CompleteChain a.val c

end Buffers

theorem inherit_cases [DecidableEq ι] (val : ι → IPv4Packet) (e : ι) (c : List ι) :
    inherit val e c = val ∨
      ∃ t, inherit val e c = Function.update val e { val e with createdTime := t } := by
  unfold inherit
  split
  · exact .inr ⟨_, rfl⟩
  · exact .inl rfl

theorem inherit_of_ne [DecidableEq ι] (val : ι → IPv4Packet) {e f : ι} (c : List ι) (h : f ≠ e) :
    inherit val e c f = val f := by
  rcases inherit_cases val e c with h' | ⟨t, h'⟩ <;> rw [h']
  exact Function.update_of_ne h _ _

theorem inherit_alike [DecidableEq ι] (val : ι → IPv4Packet) (e : ι) (c : List ι) (f : ι) :
    Alike (val f) (inherit val e c f) := by
  by_cases h : f = e
  · subst h
    rcases inherit_cases val f c with h' | ⟨t, h'⟩ <;> rw [h']
    · exact .refl _
    · rw [Function.update_self]; exact ⟨t, rfl⟩
  · rw [inherit_of_ne val c h]; exact .refl _

theorem Alike.key {p q : IPv4Packet} (h : Alike p q) : q.key = p.key := by
  obtain ⟨t, rfl⟩ := h; rfl

namespace Buffers

/-- A search in well-formed buffers: the passed chains are of other datagrams
and alive, the found one is of the same datagram and alive. -/
structure Searched (exp : IPv4Packet → Bool) (a : Buffers ι) (e : ι) (u : List ι)
    (pre rest : List (List ι)) : Prop where
  perm : (u ++ (pre ++ rest).flatten).Perm (a.unused ++ a.incomplete.flatten)
  unused : a.unused <:+ u
  sub : (pre ++ rest).Sublist a.incomplete
  kept : ∀ c ∈ a.incomplete, c ∈ pre ++ rest ∨ headIs a.val exp c = true
  passed : ∀ c ∈ pre, (∀ f ∈ c, (a.val f).key ≠ (a.val e).key) ∧ headIs a.val exp c = false
  found : ∀ c ds, rest = c :: ds →
    (∀ f ∈ c, (a.val f).key = (a.val e).key) ∧ headIs a.val exp c = false

/-- The key of the head is the key of every fragment of the chain. -/
theorem headIs_sameDatagram {val : ι → IPv4Packet} {c : List ι} (hc : PartialChain val c) (p : IPv4Packet) {f : ι}
    (hf : f ∈ c) : headIs val (sameDatagram p) c = true ↔ (val f).key = p.key := by
  obtain ⟨x, xs, rfl⟩ := List.exists_cons_of_ne_nil hc.ne_nil
  rw [headIs_cons, sameDatagram_iff, hc.key f hf x (by simp), eq_comm]

theorem search_spec (exp : IPv4Packet → Bool) {a : Buffers ι} (e : ι)
    (hp : ∀ c ∈ a.incomplete, PartialChain a.val c) :
    ∃ u pre rest, a.search exp e = (u, pre, rest) ∧ Searched exp a e u pre rest := by
  have h := scan_spec (headIs a.val exp) (headIs a.val (sameDatagram (a.val e))) a.unused []
    a.incomplete
  have hkey : ∀ c ∈ a.incomplete, ∀ f ∈ c,
      (headIs a.val (sameDatagram (a.val e)) c = true ↔ (a.val f).key = (a.val e).key) :=
    fun c hc f hf => headIs_sameDatagram (hp c hc) (a.val e) hf
  refine ⟨_, _, _, rfl, h.perm, h.unused, h.sub, h.kept, ?_, ?_⟩
  · intro c hc
    obtain ⟨h1, h2⟩ := (h.passed c hc).resolve_left (by simp)
    refine ⟨fun f hf e' => ?_, h2⟩
    rw [← hkey c (h.sub.subset (List.mem_append_left _ hc)) f hf, h1] at e'
    cases e'
  · intro c ds e'
    obtain ⟨h1, h2⟩ := h.found c ds e'
    have hm : c ∈ a.incomplete := h.sub.subset (List.mem_append_right _ (by rw [e']; simp))
    exact ⟨fun f hf => (hkey c hm f hf).mp h1, h2⟩

/-- A live chain of the fragment's datagram is found. -/
theorem Searched.rest_of_mem {exp : IPv4Packet → Bool} {a : Buffers ι} {e : ι} {u : List ι}
    {pre rest : List (List ι)} (hS : Searched exp a e u pre rest)
    (hw : WF a) {c : List ι} (hc : c ∈ a.incomplete) (hlive : headIs a.val exp c = false)
    (hkey : ∀ f ∈ c, (a.val f).key = (a.val e).key) : ∃ cs, rest = c :: cs := by
  obtain ⟨x, hx⟩ := List.exists_mem_of_ne_nil c (hw.parts c hc).ne_nil
  have hm : c ∈ pre ++ rest := (hS.kept c hc).resolve_right (by simp [hlive])
  rcases List.mem_append.mp hm with hm | hm
  · exact absurd (hkey x hx) ((hS.passed c hm).1 x hx)
  · obtain ⟨d, cs, rfl⟩ := List.exists_cons_of_ne_nil (List.ne_nil_of_mem hm)
    rcases List.mem_cons.mp hm with rfl | hm
    · exact ⟨cs, rfl⟩
    · have hd : d ∈ a.incomplete := hS.sub.subset (by simp)
      obtain ⟨y, hy⟩ := List.exists_mem_of_ne_nil d (hw.parts d hd).ne_nil
      have hap := List.rel_of_pairwise_cons
        (List.pairwise_append.mp (hw.keys.sublist hS.sub)).2.1 hm
      have := (hS.found d cs rfl).1 y hy
      exact absurd (this.trans (hkey x hx).symm) (hap y hy x hx)

/-- The four ways a fragment is filed. -/
inductive Filed [DecidableEq ι] (exp : IPv4Packet → Bool) (a : Buffers ι) (e : ι) :
    Buffers ι → Prop where
  | fresh {u pre} : Searched exp a e u pre [] →
      Filed exp a e { a with unused := u, incomplete := pre ++ [[e]] }
  | lost {u pre c cs} : Searched exp a e u pre (c :: cs) → Contradicts a.val (a.val e) c →
      Filed exp a e { a with unused := u, incomplete := pre ++ c :: cs }
  | grown {u pre c cs} : Searched exp a e u pre (c :: cs) → fits a.val e c = true →
      complete a.val (placed a.val e c) = false →
      Filed exp a e { val := inherit a.val e c, unused := u,
                      incomplete := pre ++ placed a.val e c :: cs, ready := a.ready }
  | done {u pre c cs} : Searched exp a e u pre (c :: cs) → fits a.val e c = true →
      complete a.val (placed a.val e c) = true →
      Filed exp a e { val := inherit a.val e c, unused := u, incomplete := pre ++ cs,
                      ready := a.ready ++ [placed a.val e c] }

theorem insertFragment_filed [DecidableEq ι] (exp : IPv4Packet → Bool) {a : Buffers ι} (e : ι)
    (hp : ∀ c ∈ a.incomplete, PartialChain a.val c) : Filed exp a e (a.insertFragment exp e) := by
  obtain ⟨u, pre, rest, hs, hS⟩ := search_spec exp e hp
  unfold insertFragment
  rw [hs]
  cases rest with
  | nil => exact .fresh hS
  | cons c cs =>
    have hc : c ∈ a.incomplete := hS.sub.subset (by simp)
    dsimp only
    split
    · rename_i hf
      split
      · rename_i hd
        exact .done hS hf hd
      · rename_i hd
        exact .grown hS hf (by simpa using hd)
    · rename_i hf
      exact .lost hS ((fits_eq_false_iff (hp c hc)).mp (by simpa using hf))

/-! ## The invariant is kept -/

theorem WF.not_mem_of_ready {a : Buffers ι} (h : WF a) {x : ι} (hx : x ∈ a.ready.flatten) :
    x ∉ a.unused ∧ x ∉ a.incomplete.flatten := by
  have hd := List.disjoint_of_nodup_append h.nodup
  exact ⟨fun hm => hd (List.mem_append_left _ hm) hx, fun hm => hd (List.mem_append_right _ hm) hx⟩

theorem WF.nodup_lists {a : Buffers ι} (h : WF a) : (a.unused ++ a.incomplete.flatten).Nodup :=
  (List.nodup_append.mp h.nodup).1

theorem WF.nodup_ready {a : Buffers ι} (h : WF a) : a.ready.flatten.Nodup :=
  (List.nodup_append.mp h.nodup).2.1

theorem WF.sub {a : Buffers ι} (h : WF a) {cs : List (List ι)} (hs : cs.Sublist a.incomplete) :
    cs.Pairwise (KeysApart a.val) ∧ (∀ c ∈ cs, PartialChain a.val c) ∧
      ∀ c ∈ cs, complete a.val c = false :=
  ⟨h.keys.sublist hs, fun c hc => h.parts c (hs.subset hc), fun c hc => h.pending c (hs.subset hc)⟩

/-- What `take` does: the packet contents and the ready list stay, and the
element taken is the only one that leaves the lists. -/
theorem WF.take {a a' : Buffers ι} (h : WF a) {o : Option ι} (ht : a.take = (o, a')) :
    WF a' ∧ a'.val = a.val ∧ a'.ready = a.ready ∧ (o.toList ++ a'.all).Perm a.all := by
  unfold Buffers.take at ht
  split at ht
  · rename_i e u hu
    cases ht
    refine ⟨⟨?_, h.keys, h.parts, h.pending, h.whole⟩, rfl, rfl, ?_⟩
    · have := h.nodup
      rw [Buffers.all, hu] at this
      exact (List.nodup_cons.mp this).2
    · rw [Buffers.all, Buffers.all, hu]; exact .refl _
  · rename_i e u cs hu hi
    cases ht
    have hall : (e :: Buffers.all { a with unused := u, incomplete := cs }).Perm a.all := by
      rw [Buffers.all, Buffers.all, hu, hi]; simp
    have hsub : cs.Sublist a.incomplete := by rw [hi]; exact List.sublist_cons_self _ _
    obtain ⟨hk, hp, hq⟩ := h.sub hsub
    exact ⟨⟨(List.nodup_cons.mp (hall.nodup_iff.mpr h.nodup)).2, hk, hp, hq, h.whole⟩, rfl, rfl, hall⟩
  · cases ht
    exact ⟨h, rfl, rfl, .refl _⟩

section Kept
variable [DecidableEq ι] {exp : IPv4Packet → Bool} {a a' : Buffers ι} {e : ι}

/-- Filing a fragment loses no element but, at most, the fragment itself. -/
theorem Filed.all_perm (hF : Filed exp a e a') :
    a'.all.Perm (e :: a.all) ∨ a'.all.Perm a.all ∧ ∃ c ∈ a.incomplete, headIs a.val exp c = false ∧
      (∀ f ∈ c, (a.val f).key = (a.val e).key) ∧ Contradicts a.val (a.val e) c := by
  cases hF with
  | fresh hS =>
    left
    rw [List.perm_iff_count]
    intro x
    have hp := hS.perm.count_eq x
    simp only [all, List.count_append, List.flatten_append, List.flatten_cons, List.flatten_nil,
      List.append_nil, List.count_cons, List.count_nil] at hp ⊢
    omega
  | @lost u pre c cs hS hx =>
    refine .inr ⟨?_, c, hS.sub.subset (by simp), (hS.found c cs rfl).2, (hS.found c cs rfl).1, hx⟩
    exact hS.perm.append_right _
  | @grown u pre c cs hS hf hd =>
    left
    rw [List.perm_iff_count]
    intro x
    have hp := hS.perm.count_eq x
    have hq := (placed_perm a.val e c).count_eq x
    simp only [all, List.count_append, List.flatten_append, List.flatten_cons,
      List.count_cons] at hp ⊢
    rw [hq, List.count_cons]
    omega
  | @done u pre c cs hS hf hd =>
    left
    rw [List.perm_iff_count]
    intro x
    have hp := hS.perm.count_eq x
    have hq := (placed_perm a.val e c).count_eq x
    simp only [all, List.count_append, List.flatten_append, List.flatten_cons, List.flatten_nil,
      List.append_nil, List.count_cons] at hp ⊢
    rw [hq, List.count_cons]
    omega

/-- A fragment that contradicts the live chain of its datagram is lost. -/
theorem Filed.all_of_contradicts (hF : Filed exp a e a') (hw : WF a) {c : List ι}
    (hc : c ∈ a.incomplete) (hlive : headIs a.val exp c = false)
    (hkey : ∀ f ∈ c, (a.val f).key = (a.val e).key) (hx : Contradicts a.val (a.val e) c) :
    a'.all.Perm a.all := by
  have hfit := (fits_eq_false_iff (hw.parts c hc)).mpr hx
  cases hF with
  | fresh hS => obtain ⟨cs, h⟩ := hS.rest_of_mem hw hc hlive hkey; cases h
  | lost hS _ => exact hS.perm.append_right _
  | grown hS hf _ =>
    obtain ⟨cs, h⟩ := hS.rest_of_mem hw hc hlive hkey; cases h
    rw [hfit] at hf; cases hf
  | done hS hf _ =>
    obtain ⟨cs, h⟩ := hS.rest_of_mem hw hc hlive hkey; cases h
    rw [hfit] at hf; cases hf

theorem Filed.wf (hF : Filed exp a e a') (h : WF a) (he : e ∉ a.all)
    (hfr : (a.val e).isFragment = true) : WF a' := by
  have hnd : a'.all.Nodup := by
    rcases hF.all_perm with hp | ⟨hp, -⟩
    · exact hp.nodup_iff.mpr (List.nodup_cons.mpr ⟨he, h.nodup⟩)
    · exact hp.nodup_iff.mpr h.nodup
  have hready : ∀ c ∈ a.ready, ∀ f ∈ c, f ≠ e := by
    rintro c hc f hf rfl
    exact he (List.mem_append_right _ (List.mem_flatten.mpr ⟨c, hc, hf⟩))
  cases hF with
  | @fresh u pre hS =>
    obtain ⟨hk, hp, hq⟩ := h.sub hS.sub
    rw [List.append_nil] at hk hp hq
    refine ⟨hnd, ?_, ?_, ?_, h.whole⟩
    · refine List.pairwise_append.mpr ⟨hk, List.pairwise_singleton _ _, ?_⟩
      rintro c hc d hd f hf g hg
      rw [List.mem_singleton.mp hd, List.mem_singleton] at hg
      rw [hg]; exact (hS.passed c hc).1 f hf
    · intro c hc
      rcases List.mem_append.mp hc with hc | hc
      · exact hp c hc
      · rw [List.mem_singleton.mp hc]; exact .singleton a.val e
    · intro c hc
      rcases List.mem_append.mp hc with hc | hc
      · exact hq c hc
      · rw [List.mem_singleton.mp hc, complete_singleton, hfr]; rfl
  | @lost u pre c cs hS hx =>
    obtain ⟨hk, hp, hq⟩ := h.sub hS.sub
    exact ⟨hnd, hk, hp, hq, h.whole⟩
  | @grown u pre c cs hS hf hd =>
    obtain ⟨hk, hp, hq⟩ := h.sub hS.sub
    have hc := hp c (by simp)
    have hkey := (hS.found c cs rfl).1
    have hv : ∀ f, (inherit a.val e c f).key = (a.val f).key :=
      fun f => (inherit_alike a.val e c f).key
    rw [List.pairwise_append, List.pairwise_cons] at hk
    refine ⟨hnd, ?_, ?_, ?_, ?_⟩
    · refine List.Pairwise.imp (fun h => KeysApart.congr h hv) ?_
      rw [List.pairwise_append, List.pairwise_cons]
      refine ⟨hk.1, ⟨fun d hd => (keysApart_placed hc.ne_nil hkey).1 (hk.2.1.1 d hd), hk.2.1.2⟩, ?_⟩
      intro d hd d' hd'
      rcases List.mem_cons.mp hd' with rfl | hd'
      · exact (keysApart_placed hc.ne_nil hkey).2 (hk.2.2 d hd c (by simp))
      · exact hk.2.2 d hd d' (by simp [hd'])
    · intro d hd
      refine PartialChain.congr ?_ fun f _ => inherit_alike a.val e c f
      simp only [List.mem_append, List.mem_cons] at hd
      rcases hd with hd | rfl | hd
      · exact hp d (by simp [hd])
      · exact hc.placed hkey hf
      · exact hp d (by simp [hd])
    · intro d hm
      rw [complete_congr (inherit_alike a.val e c)]
      simp only [List.mem_append, List.mem_cons] at hm
      rcases hm with hm | rfl | hm
      · exact hq d (by simp [hm])
      · exact hd
      · exact hq d (by simp [hm])
    · intro d hd
      exact (h.whole d hd).congr fun f hf => inherit_of_ne a.val c (hready d hd f hf)
  | @done u pre c cs hS hf hd =>
    have hsub : (pre ++ cs).Sublist a.incomplete :=
      (List.Sublist.append_left (List.sublist_cons_self c cs) pre).trans hS.sub
    obtain ⟨hk, hp, hq⟩ := h.sub hsub
    have hc := h.parts c (hS.sub.subset (by simp))
    have hkey := (hS.found c cs rfl).1
    have hal := inherit_alike a.val e c
    refine ⟨hnd, hk.imp fun h => KeysApart.congr h fun f => (hal f).key,
      fun d hd => (hp d hd).congr fun f _ => hal f,
      fun d hd => by rw [complete_congr hal]; exact hq d hd, ?_⟩
    intro d hd
    rcases List.mem_append.mp hd with hd | hd
    · exact (h.whole d hd).congr fun f hf => inherit_of_ne a.val c (hready d hd f hf)
    · rw [List.mem_singleton.mp hd]
      refine PartialChain.toComplete ((hc.placed hkey hf).congr fun f _ => hal f) ?_
      rwa [complete_congr hal]

/-- The content of an element outside the lists does not matter. -/
theorem WF.setVal (h : WF a) (he : e ∉ a.all) (p : IPv4Packet) :
    WF { a with val := Function.update a.val e p } := by
  have hne : ∀ f ∈ a.all, Function.update a.val e p f = a.val f := by
    intro f hf
    exact Function.update_of_ne (by rintro rfl; exact he hf) _ _
  have hinc : ∀ c ∈ a.incomplete, ∀ f ∈ c, f ∈ a.all := fun c hc f hf =>
    List.mem_append_left _ (List.mem_append_right _ (List.mem_flatten.mpr ⟨c, hc, hf⟩))
  have hrdy : ∀ c ∈ a.ready, ∀ f ∈ c, f ∈ a.all := fun c hc f hf =>
    List.mem_append_right _ (List.mem_flatten.mpr ⟨c, hc, hf⟩)
  refine ⟨h.nodup, ?_, ?_, ?_, ?_⟩
  · refine h.keys.imp_of_mem fun {c d} hc hd hk f hf g hg => ?_
    show (Function.update a.val e p f).key ≠ (Function.update a.val e p g).key
    rw [hne f (hinc c hc f hf), hne g (hinc d hd g hg)]
    exact hk f hf g hg
  · intro c hc
    refine (h.parts c hc).congr fun f hf => ?_
    show Alike (a.val f) (Function.update a.val e p f)
    rw [hne f (hinc c hc f hf)]; exact .refl _
  · intro c hc
    rw [complete_eq_of_mem fun f hf => hne f (hinc c hc f hf)]
    exact h.pending c hc
  · intro c hc
    exact (h.whole c hc).congr fun f hf => hne f (hrdy c hc f hf)

theorem WF.put (h : WF a) (he : e ∉ a.all) (p : IPv4Packet) : WF (a.put exp e p) := by
  have h' := h.setVal he p
  unfold Buffers.put
  dsimp only
  split
  · rename_i hp
    exact (insertFragment_filed exp e h'.parts).wf h' he (by simpa using hp)
  · rename_i hp
    have hp' : p.moreFragments = false ∧ p.fragmentOffset = 0 := by
      simpa [IPv4Packet.isFragment] using hp
    refine ⟨?_, h'.keys, h'.parts, h'.pending, ?_⟩
    · have hall : (Buffers.all { a with val := Function.update a.val e p,
                                        ready := a.ready ++ [[e]] }).Perm (e :: a.all) := by
        simp only [Buffers.all, List.flatten_append, List.flatten_cons, List.flatten_nil,
          List.append_nil, ← List.append_assoc]
        exact (List.perm_append_singleton e _)
      exact hall.nodup_iff.mpr (List.nodup_cons.mpr ⟨he, h.nodup⟩)
    · intro c hc
      rcases List.mem_append.mp hc with hc | hc
      · exact h'.whole c hc
      · rw [List.mem_singleton.mp hc]
        exact .singleton (by simpa using hp'.1) (by simpa using hp'.2)

theorem WF.pop (h : WF a) : WF a.pop := by
  unfold Buffers.pop
  split
  · exact h
  · rename_i c cs hr
    refine ⟨?_, h.keys, h.parts, h.pending, fun d hd => h.whole d (by rw [hr]; simp [hd])⟩
    have hall : (Buffers.all { a with unused := c ++ a.unused, ready := cs }).Perm a.all := by
      rw [List.perm_iff_count]
      intro x
      simp only [Buffers.all, hr, List.flatten_cons, List.count_append]
      omega
    exact hall.nodup_iff.mpr h.nodup

theorem WF.accept (h : WF a) (mk : IPv4Packet → IPv4Packet) : WF (a.accept exp mk) := by
  unfold Buffers.accept
  split
  · rename_i b hb; exact (h.take hb).1
  · rename_i e b hb
    obtain ⟨hw, -, -, hp⟩ := h.take hb
    have he : e ∉ b.all := (List.nodup_cons.mp (hp.nodup_iff.mpr h.nodup)).1
    exact hw.put he _

end Kept

/-! ## Accepting a packet -/

/-- The element `e` was taken out of `a`, which leaves `a1`. -/
structure Taken (a : Buffers ι) (e : ι) (a1 : Buffers ι) : Prop where
  eq : a.take = (some e, a1)
  wf : WF a1
  val : a1.val = a.val
  ready : a1.ready = a.ready
  perm : (e :: a1.all).Perm a.all
  fresh : e ∉ a1.all
  lists : a.unused = e :: a1.unused ∧ a1.incomplete = a.incomplete ∨
    a.unused = [] ∧ a.incomplete = (e :: a1.unused) :: a1.incomplete

theorem Taken.incomplete_subset {a a1 : Buffers ι} {e : ι} (ht : Taken a e a1) : a1.incomplete ⊆ a.incomplete := by
  rcases ht.lists with ⟨-, h⟩ | ⟨-, h⟩
  · rw [h]
    exact fun _ hc => hc
  · rw [h]
    exact fun _ hc => List.mem_cons_of_mem _ hc

/-- Either every element is in the ready list or one can be taken. -/
theorem take_cases {a : Buffers ι} (h : WF a) :
    a.unused = [] ∧ a.incomplete = [] ∧ a.take = (none, a) ∨ ∃ e a1, Taken a e a1 := by
  rcases ht : a.take with ⟨o, a1⟩
  obtain ⟨hw, hv, hr, hp⟩ := h.take ht
  rcases hu : a.unused with _ | ⟨e, u⟩
  · rcases hi : a.incomplete with _ | ⟨c, cs⟩
    · rw [Buffers.take, hu, hi] at ht
      exact .inl ⟨rfl, rfl, ht.symm⟩
    · obtain ⟨e, u, rfl⟩ := List.exists_cons_of_ne_nil (h.parts c (by rw [hi]; simp)).ne_nil
      have ht' := ht
      rw [Buffers.take, hu, hi] at ht'
      obtain ⟨rfl, rfl⟩ := Prod.mk.inj ht'
      exact .inr ⟨e, _, ht, hw, hv, hr, hp,
        (List.nodup_cons.mp (hp.nodup_iff.mpr h.nodup)).1, .inr ⟨hu, hi⟩⟩
  · have ht' := ht
    rw [Buffers.take, hu] at ht'
    obtain ⟨rfl, rfl⟩ := Prod.mk.inj ht'
    exact .inr ⟨e, _, ht, hw, hv, hr, hp,
      (List.nodup_cons.mp (hp.nodup_iff.mpr h.nodup)).1, .inl ⟨hu, rfl⟩⟩

/-- The packet `p` is a fragment that contradicts a live chain of its
datagram. -/
def Clash (exp : IPv4Packet → Bool) (val : ι → IPv4Packet) (cs : List (List ι)) (p : IPv4Packet) :
    Prop :=
  p.isFragment = true ∧ ∃ c ∈ cs, headIs val exp c = false ∧ (∀ f ∈ c, (val f).key = p.key) ∧
    Contradicts val p c

theorem Clash.congr {exp : IPv4Packet → Bool} {val val' : ι → IPv4Packet} {cs : List (List ι)}
    {p : IPv4Packet} (hc : Clash exp val cs p) (hv : ∀ c ∈ cs, ∀ f ∈ c, val' f = val f) :
    Clash exp val' cs p := by
  obtain ⟨hp, c, hm, h1, h2, h3⟩ := hc
  refine ⟨hp, c, hm, ?_, fun f hf => by rw [hv c hm f hf]; exact h2 f hf, ?_⟩
  · rcases c with _ | ⟨x, xs⟩
    · exact h1
    · rw [headIs_cons] at h1 ⊢
      rw [hv _ hm x (by simp)]; exact h1
  · rcases h3 with ⟨f, hf, h4, h5⟩ | ⟨h4, f, hf, h5⟩
    · exact .inl ⟨f, hf, by rw [hv c hm f hf]; exact h4, by rw [hv c hm f hf]; exact h5⟩
    · exact .inr ⟨h4, f, hf, by rw [hv c hm f hf]; exact h5⟩

section Accept
variable [DecidableEq ι]

/-- The buffers with the packet `p` in the element `e`. -/
def fill (a : Buffers ι) (e : ι) (p : IPv4Packet) : Buffers ι :=
  { a with val := Function.update a.val e p }

@[simp] theorem fill_val_self (a : Buffers ι) (e : ι) (p : IPv4Packet) : (a.fill e p).val e = p :=
  Function.update_self _ _ _

theorem fill_val_of_ne (a : Buffers ι) {e x : ι} (p : IPv4Packet) (hx : x ≠ e) :
    (a.fill e p).val x = a.val x := Function.update_of_ne hx _ _

/-- Everything `accept` can do. -/
inductive Accepted (exp : IPv4Packet → Bool) (a : Buffers ι) (mk : IPv4Packet → IPv4Packet) :
    Buffers ι → Prop where
  | dropped : a.unused = [] → a.incomplete = [] → Accepted exp a mk a
  | whole {e : ι} {a1 : Buffers ι} : Taken a e a1 → (mk (a.val e)).isFragment = false →
      Accepted exp a mk { a1.fill e (mk (a.val e)) with ready := a.ready ++ [[e]] }
  | fragment {e : ι} {a1 b : Buffers ι} : Taken a e a1 → (mk (a.val e)).isFragment = true →
      Filed exp (a1.fill e (mk (a.val e))) e b → Accepted exp a mk b

theorem accept_accepted (exp : IPv4Packet → Bool) {a : Buffers ι} (h : WF a)
    (mk : IPv4Packet → IPv4Packet) : Accepted exp a mk (a.accept exp mk) := by
  rcases take_cases h with ⟨hu, hi, ht⟩ | ⟨e, a1, ht⟩
  · rw [Buffers.accept, ht]; exact .dropped hu hi
  · have hw := ht.wf.setVal ht.fresh (mk (a.val e))
    rw [Buffers.accept, ht.eq]
    dsimp only
    rw [ht.val, Buffers.put]
    cases hf : (mk (a.val e)).isFragment with
    | true => exact .fragment ht hf (insertFragment_filed exp e hw.parts)
    | false => rw [ht.ready]; exact .whole ht hf

/-- `accept` keeps every element in the lists unless the packet clashes with
one of the chains left after a buffer was taken; then it loses the buffer. -/
theorem accept_all (exp : IPv4Packet → Bool) {a : Buffers ι} (h : WF a)
    (mk : IPv4Packet → IPv4Packet) :
    (a.accept exp mk).all.Perm a.all ∧ (∀ e a1, ¬ (Taken a e a1 ∧
        Clash exp a.val a1.incomplete (mk (a.val e)))) ∨
      ∃ e a1, Taken a e a1 ∧ Clash exp a.val a1.incomplete (mk (a.val e)) ∧
        (a.accept exp mk).all.Perm a1.all := by
  have hA := accept_accepted exp h mk
  generalize a.accept exp mk = b at hA
  -- two takes give the same result
  have huniq : ∀ {e e' : ι} {a1 a1' : Buffers ι}, Taken a e a1 → Taken a e' a1' → e = e' ∧ a1 = a1' := by
    intro e e' a1 a1' h1 h2
    have := h1.eq.symm.trans h2.eq
    simpa using this
  cases hA with
  | dropped hu hi =>
    refine .inl ⟨.refl _, fun e a1 ⟨ht, _⟩ => ?_⟩
    rcases ht.lists with ⟨h1, -⟩ | ⟨-, h1⟩
    · rw [hu] at h1; cases h1
    · rw [hi] at h1; cases h1
  | @whole e a1 ht hfr =>
    refine .inl ⟨?_, fun e' a1' ⟨ht', hc⟩ => ?_⟩
    · have hp := ht.perm
      rw [Buffers.all, ht.ready] at hp
      refine List.Perm.trans ?_ hp
      simp only [Buffers.all, fill, List.flatten_append, List.flatten_cons, List.flatten_nil,
        List.append_nil, ← List.append_assoc]
      exact List.perm_append_singleton e _
    · obtain ⟨rfl, rfl⟩ := huniq ht ht'
      rw [hc.1] at hfr; cases hfr
  | @fragment e a1 b ht hfr hF =>
    have hv : ∀ c ∈ a1.incomplete, ∀ f ∈ c, (a1.fill e (mk (a.val e))).val f = a.val f := by
      intro c hc f hf
      rw [fill_val_of_ne, ht.val]
      rintro rfl
      exact ht.fresh (List.mem_append_left _ (List.mem_append_right _
        (List.mem_flatten.mpr ⟨c, hc, hf⟩)))
    have hw := ht.wf.setVal ht.fresh (mk (a.val e))
    by_cases hc : Clash exp a.val a1.incomplete (mk (a.val e))
    · refine .inr ⟨e, a1, ht, hc, ?_⟩
      obtain ⟨-, c, hm, h1, h2, h3⟩ := hc.congr hv
      exact hF.all_of_contradicts hw hm h1 (by rw [fill_val_self]; exact h2)
        (by rw [fill_val_self]; exact h3)
    · refine .inl ⟨?_, fun e' a1' ⟨ht', hc'⟩ => ?_⟩
      · rcases hF.all_perm with hp | ⟨-, c, hm, h1, h2, h3⟩
        · exact hp.trans ht.perm
        · rw [fill_val_self] at h2 h3
          refine absurd (Clash.congr ⟨hfr, c, hm, h1, h2, h3⟩ fun c hc f hf => ?_) hc
          exact (hv c hc f hf).symm
      · obtain ⟨rfl, rfl⟩ := huniq ht ht'
        exact hc hc'

end Accept

end Buffers

end CpuScheduler.L2
