import CpuScheduler.L2Network.Reassembly

/-!
# Fragments that arrive in any order

Datagrams `d : D`, each cut into `len d` packets `q d 0`, `q d 1`, ... that
tile it (`Tiles`). They arrive one by one, in any order and interleaved, and
each is handed to `Buffers.accept`. `Arrived` is the invariant of such a run:
the datagrams that are all there form the new part of the ready list, in the
order in which they became complete, every other one of which something has
arrived has one live incomplete chain with exactly its arrived packets, and
no other chain has one of their keys.

The element that holds packet `j` of `d` is `el d j`; a chain is then the
image of a list of packet numbers, and the questions about chains (where a
fragment goes, whether it fits, whether the chain is complete) are questions
about increasing lists of numbers.
-/
namespace CpuScheduler.L2

variable {ι D : Type}

/-- The buffer content `p` is the packet `q`, whatever its time and whatever
the buffer holds behind the packet's bytes. -/
structure Holds (q p : IPv4Packet) : Prop where
  eq : p = { q with createdTime := p.createdTime, data := p.data }
  data : ∀ i, i < q.dataSize → p.data i = q.data i

/-- The packets `q 0`, ..., `q (len - 1)` are one datagram, in offset order. -/
structure Tiles (q : Nat → IPv4Packet) (len : Nat) : Prop where
  pos : 0 < len
  key : ∀ j, j < len → (q j).key = (q 0).key
  first : (q 0).fragmentOffset = 0
  follow : ∀ j, j + 1 < len → (q (j + 1)).fragmentOffset = (q j).fragmentOffset + (q j).dataSize
  size : ∀ j, j + 1 < len → 0 < (q j).dataSize
  more : ∀ j, j < len → (q j).moreFragments = decide (j + 1 < len)

section Holds
variable {q p p' : IPv4Packet}

theorem Holds.key (h : Holds q p) : p.key = q.key := by rw [h.eq]; rfl

theorem Holds.fragmentOffset (h : Holds q p) : p.fragmentOffset = q.fragmentOffset := by rw [h.eq]

theorem Holds.dataSize (h : Holds q p) : p.dataSize = q.dataSize := by rw [h.eq]

theorem Holds.moreFragments (h : Holds q p) : p.moreFragments = q.moreFragments := by rw [h.eq]

theorem Holds.isFragment (h : Holds q p) : p.isFragment = q.isFragment := by rw [h.eq]; rfl

theorem Holds.refl (p : IPv4Packet) : Holds p p := ⟨rfl, fun _ _ => rfl⟩

theorem Holds.trans (h : Holds q p) (h' : Holds p p') : Holds q p' := by
  refine ⟨by rw [h'.eq, h.eq], fun i hi => ?_⟩
  rw [h'.data i (by rw [h.dataSize]; exact hi), h.data i hi]

theorem Holds.alike (h : Holds q p) (ha : Alike p p') : Holds q p' := by
  obtain ⟨t, rfl⟩ := ha
  exact ⟨by rw [h.eq], h.data⟩

end Holds

/-! ## Increasing lists of packet numbers -/

section Numbers
variable {q : Nat → IPv4Packet} {len : Nat}

theorem Tiles.offset_lt (h : Tiles q len) {i j : Nat} (hij : i < j) (hj : j < len) :
    (q i).fragmentOffset < (q j).fragmentOffset := by
  induction j with
  | zero => omega
  | succ j ih =>
    have h1 := h.follow j hj
    have h2 := h.size j hj
    rcases Nat.lt_succ_iff_lt_or_eq.mp hij with hlt | rfl
    · have := ih hlt (by omega); omega
    · omega

theorem Tiles.offset_lt_iff (h : Tiles q len) {i j : Nat} (hi : i < len) (hj : j < len) :
    (q i).fragmentOffset < (q j).fragmentOffset ↔ i < j := by
  constructor
  · intro hlt
    by_contra hge
    rcases Nat.lt_or_eq_of_le (Nat.le_of_not_lt hge) with hlt' | rfl
    · have := h.offset_lt hlt' hi; omega
    · omega
  · intro hlt; exact h.offset_lt hlt hj

theorem Tiles.offset_inj (h : Tiles q len) {i j : Nat} (hi : i < len) (hj : j < len)
    (he : (q i).fragmentOffset = (q j).fragmentOffset) : i = j := by
  have h1 := h.offset_lt_iff hi hj
  have h2 := h.offset_lt_iff hj hi
  omega

/-- A packet is a fragment unless it is the whole datagram. -/
theorem Tiles.isFragment (h : Tiles q len) {j : Nat} (hj : j < len) :
    (q j).isFragment = decide (1 < len) := by
  rw [IPv4Packet.isFragment, h.more j hj]
  rcases Nat.eq_zero_or_pos j with rfl | hj0
  · simp [h.first]
  · have := h.offset_lt hj0 hj
    have hne : (q j).fragmentOffset ≠ 0 := by omega
    have h1 : 1 < len := by omega
    simp [hne, h1]

variable {val : ι → IPv4Packet} {el : Nat → ι} {js : List Nat}

/-- The elements `js.map el` hold the packets with the numbers `js`, in
increasing order. -/
structure Numbered (q : Nat → IPv4Packet) (len : Nat) (val : ι → IPv4Packet) (el : Nat → ι)
    (js : List Nat) : Prop where
  sorted : js.Pairwise (· < ·)
  lt : ∀ j ∈ js, j < len
  holds : ∀ j ∈ js, Holds (q j) (val (el j))

theorem Numbered.before (hn : Numbered q len val el js) (h : Tiles q len) {j : Nat} (hj : j < len)
    (hh : Holds (q j) (val (el j))) :
    before val (el j) (js.map el) = (js.takeWhile (· < j)).map el ∧
      after val (el j) (js.map el) = (js.dropWhile (· < j)).map el := by
  have hcond : ∀ i ∈ js, decide ((val (el i)).fragmentOffset < (val (el j)).fragmentOffset) =
      decide (i < j) := by
    intro i hi
    rw [(hn.holds i hi).fragmentOffset, hh.fragmentOffset]
    exact decide_eq_decide.mpr (h.offset_lt_iff (hn.lt i hi) hj)
  have key : ∀ ks : List Nat, (∀ i ∈ ks, i ∈ js) →
      L2.before val (el j) (ks.map el) = (ks.takeWhile (· < j)).map el ∧
        after val (el j) (ks.map el) = (ks.dropWhile (· < j)).map el := by
    intro ks hks
    induction ks with
    | nil => exact ⟨rfl, rfl⟩
    | cons k ks ih =>
      obtain ⟨ih1, ih2⟩ := ih fun i hi => hks i (by simp [hi])
      have hk := hcond k (hks k (by simp))
      unfold L2.before after at *
      simp only [List.map_cons, List.takeWhile_cons, List.dropWhile_cons, hk]
      by_cases hlt : k < j
      · simp only [hlt, decide_true, if_true, ih1, ih2, List.map_cons, and_self]
      · simp [hlt]
  exact key js fun i hi => hi

/-- The list with one more number. -/
def insertNumber (j : Nat) (js : List Nat) : List Nat :=
  js.takeWhile (· < j) ++ j :: js.dropWhile (· < j)

theorem mem_insertNumber {j i : Nat} : i ∈ insertNumber j js ↔ i = j ∨ i ∈ js := by
  have h : i ∈ js ↔ i ∈ js.takeWhile (· < j) ∨ i ∈ js.dropWhile (· < j) := by
    rw [← List.mem_append, List.takeWhile_append_dropWhile]
  simp only [insertNumber, List.mem_append, List.mem_cons, h]; tauto

theorem le_of_mem_dropWhile {j i : Nat} (hs : js.Pairwise (· < ·)) (hi : i ∈ js.dropWhile (· < j)) :
    j ≤ i := by
  induction js with
  | nil => cases hi
  | cons k ks ih =>
    rw [List.dropWhile_cons] at hi
    split at hi
    · exact ih (List.pairwise_cons.mp hs).2 hi
    · rename_i hk
      have hk' : j ≤ k := by simpa using hk
      rcases List.mem_cons.mp hi with rfl | hi
      · exact hk'
      · have := (List.pairwise_cons.mp hs).1 i hi; omega

theorem insertNumber_sorted {j : Nat} (hs : js.Pairwise (· < ·)) (hj : j ∉ js) :
    (insertNumber j js).Pairwise (· < ·) := by
  have hsplit := List.takeWhile_append_dropWhile (p := fun i => decide (i < j)) (l := js)
  have hs' := hs
  rw [← hsplit, List.pairwise_append] at hs'
  rw [insertNumber, List.pairwise_append, List.pairwise_cons]
  refine ⟨hs'.1, ⟨fun i hi => ?_, hs'.2.1⟩, fun i hi k hk => ?_⟩
  · have h1 := le_of_mem_dropWhile hs hi
    have h2 : i ≠ j := by rintro rfl; exact hj ((List.dropWhile_sublist _).subset hi)
    omega
  · have h1 : i < j := by simpa using List.mem_takeWhile_imp hi
    rcases List.mem_cons.mp hk with rfl | hk
    · exact h1
    · exact hs'.2.2 i hi k hk

/-- Where packet `i` of the datagram has to start. -/
def startOf (q : Nat → IPv4Packet) : Nat → Nat
  | 0 => 0
  | i + 1 => (q i).fragmentOffset + (q i).dataSize

theorem Tiles.offset_eq (h : Tiles q len) {j : Nat} (hj : j < len) :
    (q j).fragmentOffset = startOf q j := by
  cases j with
  | zero => exact h.first
  | succ j => exact h.follow j hj

/-- Packets with increasing numbers are contiguous if the numbers are. -/
theorem Numbered.contiguous_iff (h : Tiles q len) (hn : Numbered q len val el js) {i : Nat}
    (hi : ∀ j ∈ js, i ≤ j) :
    contiguous val (startOf q i) (js.map el) = true ↔ js = List.range' i js.length := by
  induction js generalizing i with
  | nil => simp [contiguous]
  | cons j js ih =>
    have hj := hn.holds j (by simp)
    have hlt := hn.lt j (by simp)
    obtain ⟨hs1, hs2⟩ := List.pairwise_cons.mp hn.sorted
    have hn' : Numbered q len val el js :=
      ⟨hs2, fun k hk => hn.lt k (by simp [hk]), fun k hk => hn.holds k (by simp [hk])⟩
    have hnext : (val (el j)).fragmentOffset + (val (el j)).dataSize = startOf q (j + 1) := by
      rw [hj.fragmentOffset, hj.dataSize]; rfl
    have hhead : (val (el j)).fragmentOffset = startOf q i ↔ j = i := by
      rw [hj.fragmentOffset]
      have hij := hi j (by simp)
      constructor
      · intro he
        rw [← h.offset_eq (by omega : i < len)] at he
        exact h.offset_inj hlt (by omega) he
      · rintro rfl; exact h.offset_eq hlt
    rw [List.map_cons, contiguous, Bool.and_eq_true, beq_iff_eq, hnext,
      ih hn' (fun k hk => hs1 k hk), hhead, List.length_cons, List.range'_succ, List.cons.injEq]
    constructor
    · rintro ⟨rfl, h2⟩; exact ⟨rfl, h2⟩
    · rintro ⟨rfl, h2⟩; exact ⟨rfl, h2⟩

theorem Numbered.closed_iff (h : Tiles q len) (hn : Numbered q len val el js) :
    closed val (js.map el) = true ↔ ∃ j, js.getLast? = some j ∧ j + 1 = len := by
  unfold closed
  rw [List.getLast?_map]
  cases hl : js.getLast? with
  | none => simp
  | some j =>
    have hj := List.mem_of_getLast? hl
    have hlt := hn.lt j hj
    simp only [Option.map_some, Option.any_some, (hn.holds j hj).moreFragments, h.more j hlt,
      Option.some.injEq, exists_eq_left', Bool.not_eq_true', decide_eq_false_iff_not]
    omega

/-- A chain of packets of a datagram is complete if it has all of them. -/
theorem Numbered.complete_iff (h : Tiles q len) (hn : Numbered q len val el js) :
    complete val (js.map el) = true ↔ js = List.range len := by
  have h0 : startOf q 0 = 0 := rfl
  rw [complete, Bool.and_eq_true, ← h0, hn.contiguous_iff h fun j _ => Nat.zero_le j,
    hn.closed_iff h]
  constructor
  · rintro ⟨h1, j, h2, h3⟩
    rw [← List.range_eq_range'] at h1
    rw [h1, List.getLast?_range] at h2
    have hpos := h.pos
    split at h2
    · cases h2
    · cases h2
      rw [h1]; congr 1; omega
  · rintro rfl
    refine ⟨by rw [List.length_range, List.range_eq_range'], len - 1, ?_, ?_⟩
    · rw [List.getLast?_range, if_neg (by have := h.pos; omega)]
    · have := h.pos; omega

/-- A packet that has not arrived yet fits into the chain of those that
have. -/
theorem Numbered.fits (h : Tiles q len) (hn : Numbered q len val el js) {j : Nat} (hj : j < len)
    (hjs : j ∉ js) (hh : Holds (q j) (val (el j))) : fits val (el j) (js.map el) = true := by
  obtain ⟨hb, ha⟩ := hn.before h hj hh
  rw [L2.fits, hb, ha, Bool.and_eq_true, List.all_eq_true, Bool.or_eq_true]
  constructor
  · intro x hx
    obtain ⟨i, hi, rfl⟩ := List.mem_map.mp hx
    have hij : i < j := by simpa using List.mem_takeWhile_imp hi
    have him := (List.takeWhile_sublist _).subset hi
    rw [(hn.holds i him).moreFragments, h.more i (hn.lt i him), decide_eq_true_eq]
    omega
  · rcases hd : js.dropWhile (· < j) with _ | ⟨k, ks⟩
    · exact .inl rfl
    · right
      have hk : k ∈ js.dropWhile (· < j) := by rw [hd]; simp
      have h1 := le_of_mem_dropWhile hn.sorted hk
      have hkm := (List.dropWhile_sublist _).subset hk
      have h2 : k ≠ j := by rintro rfl; exact hjs hkm
      have h3 := hn.lt k hkm
      rw [hh.moreFragments, h.more j hj, decide_eq_true_eq]
      omega

theorem Numbered.placed (h : Tiles q len) (hn : Numbered q len val el js) {j : Nat} (hj : j < len)
    (hh : Holds (q j) (val (el j))) :
    placed val (el j) (js.map el) = (insertNumber j js).map el := by
  obtain ⟨hb, ha⟩ := hn.before h hj hh
  rw [L2.placed, hb, ha, insertNumber, List.map_append, List.map_cons]

theorem Numbered.insert (hn : Numbered q len val el js) {j : Nat} (hj : j < len) (hjs : j ∉ js)
    (hh : Holds (q j) (val (el j))) : Numbered q len val el (insertNumber j js) := by
  refine ⟨insertNumber_sorted hn.sorted hjs, fun i hi => ?_, fun i hi => ?_⟩
  · rcases mem_insertNumber.mp hi with rfl | hi
    · exact hj
    · exact hn.lt i hi
  · rcases mem_insertNumber.mp hi with rfl | hi
    · exact hh
    · exact hn.holds i hi

/-- An increasing list of the numbers below `len` that has all of them. -/
theorem eq_range_iff (hs : js.Pairwise (· < ·)) (hl : ∀ j ∈ js, j < len) :
    js = List.range len ↔ ∀ j, j < len → j ∈ js := by
  constructor
  · rintro rfl j hj; exact List.mem_range.mpr hj
  · intro hall
    refine List.Perm.eq_of_pairwise (fun a b _ _ h1 h2 => absurd h1 (Nat.lt_asymm h2)) hs
      List.pairwise_lt_range ?_
    refine (List.perm_ext_iff_of_nodup (hs.imp Nat.ne_of_lt) List.nodup_range).mpr fun j => ?_
    exact ⟨fun hj => List.mem_range.mpr (hl j hj), fun hj => hall j (List.mem_range.mp hj)⟩

end Numbers

/-! ## Filing a fragment that fits -/

/-- The fragment in `e` was filed in the chain `c` of its datagram (the empty
chain if there was none), and with that from `a` to `b`. -/
structure Placing [DecidableEq ι] (exp : IPv4Packet → Bool) (a : Buffers ι) (e : ι) (b : Buffers ι)
    (c : List ι) : Prop where
  found : (c = [] ∧ ∀ d ∈ a.incomplete, headIs a.val exp d = false →
      ∃ f ∈ d, (a.val f).key ≠ (a.val e).key) ∨
    (c ∈ a.incomplete ∧ headIs a.val exp c = false ∧ ∀ f ∈ c, (a.val f).key = (a.val e).key)
  val : b.val = inherit a.val e c
  ready : b.ready = a.ready ++
    if complete a.val (placed a.val e c) then [placed a.val e c] else []
  chain : ∀ d ∈ b.incomplete, d ∈ a.incomplete ∧ (∀ f ∈ d, (a.val f).key ≠ (a.val e).key) ∨
    d = placed a.val e c ∧ complete a.val (placed a.val e c) = false
  kept : ∀ d ∈ a.incomplete, headIs a.val exp d = false →
    (∀ f ∈ d, (a.val f).key ≠ (a.val e).key) → d ∈ b.incomplete
  new : complete a.val (placed a.val e c) = false → placed a.val e c ∈ b.incomplete
  unused : a.unused <:+ b.unused

theorem Buffers.Searched.not_same {exp : IPv4Packet → Bool} {a : Buffers ι} {e : ι} {u : List ι} {pre cs : List (List ι)} {c : List ι}
    (hS : Buffers.Searched exp a e u pre (c :: cs)) (hw : a.WF) :
    ∀ d ∈ pre ++ cs, d ∈ a.incomplete ∧ ∀ f ∈ d, (a.val f).key ≠ (a.val e).key := by
  intro d hd
  rcases List.mem_append.mp hd with hd | hd
  · exact ⟨hS.sub.subset (by simp [hd]), (hS.passed d hd).1⟩
  · refine ⟨hS.sub.subset (by simp [hd]), fun f hf he => ?_⟩
    have hc : c ∈ a.incomplete := hS.sub.subset (by simp)
    obtain ⟨x, hx⟩ := List.exists_mem_of_ne_nil c (hw.parts c hc).ne_nil
    have hap := List.rel_of_pairwise_cons
      (List.pairwise_append.mp (hw.keys.sublist hS.sub)).2.1 hd
    exact hap x hx f hf (((hS.found c cs rfl).1 x hx).trans he.symm)

section Placing
variable [DecidableEq ι] {exp : IPv4Packet → Bool} {a b : Buffers ι} {e : ι}

theorem inherit_nil (val : ι → IPv4Packet) (e : ι) : inherit val e [] = val := by
  unfold inherit before; rfl

theorem Buffers.Filed.placing (hF : Buffers.Filed exp a e b) (hw : a.WF)
    (hfr : (a.val e).isFragment = true)
    (hfit : ∀ c ∈ a.incomplete, headIs a.val exp c = false →
      (∀ f ∈ c, (a.val f).key = (a.val e).key) → fits a.val e c = true) :
    ∃ c, Placing exp a e b c := by
  -- a chain of another datagram is not the one found
  have hother : ∀ {u : List ι} {pre cs : List (List ι)} {c : List ι},
      Buffers.Searched exp a e u pre (c :: cs) → ∀ d ∈ a.incomplete, headIs a.val exp d = false →
      (∀ f ∈ d, (a.val f).key ≠ (a.val e).key) → d ∈ pre ++ cs := by
    intro u pre cs c hS d hd hl hk
    have hm := (hS.kept d hd).resolve_right (by simp [hl])
    simp only [List.mem_append, List.mem_cons] at hm ⊢
    rcases hm with hm | rfl | hm
    · exact .inl hm
    · obtain ⟨x, hx⟩ := List.exists_mem_of_ne_nil d (hw.parts d hd).ne_nil
      exact absurd ((hS.found d cs rfl).1 x hx) (hk x hx)
    · exact .inr hm
  cases hF with
  | @fresh u pre hS =>
    have hpl : placed a.val e [] = [e] := rfl
    have hnc : complete a.val (placed a.val e []) = false := by
      rw [hpl, complete_singleton, hfr]; rfl
    refine ⟨[], .inl ⟨rfl, ?_⟩, by rw [inherit_nil], by simp [hnc], ?_, ?_, ?_, hS.unused⟩
    · intro d hd hl
      have hm : d ∈ pre := by
        have := (hS.kept d hd).resolve_right (by simp [hl])
        simpa using this
      obtain ⟨x, hx⟩ := List.exists_mem_of_ne_nil d (hw.parts d hd).ne_nil
      exact ⟨x, hx, (hS.passed d hm).1 x hx⟩
    · intro d hd
      rcases List.mem_append.mp hd with hd | hd
      · exact .inl ⟨hS.sub.subset (by simp [hd]), (hS.passed d hd).1⟩
      · exact .inr ⟨List.mem_singleton.mp hd, hnc⟩
    · intro d hd hl _
      have := (hS.kept d hd).resolve_right (by simp [hl])
      rw [List.append_nil] at this
      exact List.mem_append_left _ this
    · intro _
      exact List.mem_append_right _ (by rw [hpl]; simp)
  | @lost u pre c cs hS hx =>
    have hc : c ∈ a.incomplete := hS.sub.subset (by simp)
    have h1 := hfit c hc (hS.found c cs rfl).2 (hS.found c cs rfl).1
    rw [(fits_eq_false_iff (hw.parts c hc)).mpr hx] at h1
    cases h1
  | @grown u pre c cs hS hf hd =>
    have hc : c ∈ a.incomplete := hS.sub.subset (by simp)
    refine ⟨c, .inr ⟨hc, (hS.found c cs rfl).2, (hS.found c cs rfl).1⟩, rfl, by simp [hd], ?_, ?_,
      fun _ => by simp, hS.unused⟩
    · intro d hm
      simp only [List.mem_append, List.mem_cons] at hm
      rcases hm with hm | rfl | hm
      · exact .inl (hS.not_same hw d (by simp [hm]))
      · exact .inr ⟨rfl, hd⟩
      · exact .inl (hS.not_same hw d (by simp [hm]))
    · intro d hm hl hk
      have := hother hS d hm hl hk
      simp only [List.mem_append, List.mem_cons] at this ⊢
      tauto
  | @done u pre c cs hS hf hd =>
    have hc : c ∈ a.incomplete := hS.sub.subset (by simp)
    refine ⟨c, .inr ⟨hc, (hS.found c cs rfl).2, (hS.found c cs rfl).1⟩, rfl, by simp [hd], ?_, ?_,
      fun h0 => absurd hd (by rw [h0]; simp), hS.unused⟩
    · intro d hm
      exact .inl (hS.not_same hw d hm)
    · intro d hm hl hk
      exact hother hS d hm hl hk

/-- The head of the chain keeps its time when a fragment is filed. -/
theorem createdTime_head_placed (val : ι → IPv4Packet) {e x : ι} {c : List ι} (hx : c.head? = some x)
    (he : e ∉ c) : ∃ y, (placed val e c).head? = some y ∧
      (inherit val e c y).createdTime = (val x).createdTime := by
  obtain ⟨xs, rfl⟩ := List.head?_eq_some_iff.mp hx
  by_cases hlt : (val x).fragmentOffset < (val e).fragmentOffset
  · refine ⟨x, by simp [placed, before, hlt], ?_⟩
    rw [inherit_of_ne]
    rintro rfl
    exact he (by simp)
  · refine ⟨e, by simp [placed, before, hlt], ?_⟩
    have hb : before val e (x :: xs) = [] := by simp [before, hlt]
    unfold inherit
    rw [hb]
    dsimp only
    rw [Function.update_self]

end Placing

/-! ## The run -/

/-- Datagrams with pairwise different keys. A datagram of one packet is not
looked up by its key, so its key is free. -/
structure Family (q : D → Nat → IPv4Packet) (len : D → Nat) : Prop where
  tiles : ∀ d, Tiles (q d) (len d)
  keys : ∀ d d', 1 < len d → 1 < len d' → (q d 0).key = (q d' 0).key → d = d'

/-- The packets `arr` have arrived, the datagrams `done` have become complete
in this order; `old` was the ready list at the start. -/
structure Arrived (q : D → Nat → IPv4Packet) (len : D → Nat) (young : Nat → Prop)
    (old : List (List ι)) (arr : List (D × Nat)) (done : List D) (el : D → Nat → ι)
    (b : Buffers ι) : Prop where
  wf : b.WF
  bound : ∀ d j, (d, j) ∈ arr → j < len d
  holds : ∀ d j, (d, j) ∈ arr → Holds (q d j) (b.val (el d j))
  ready : b.ready = old ++ done.map fun d => (List.range (len d)).map (el d)
  done_iff : ∀ d, d ∈ done ↔ ∀ j, j < len d → (d, j) ∈ arr
  nodup : done.Nodup
  chain : ∀ d, d ∉ done → (∃ j, (d, j) ∈ arr) → ∃ js : List Nat, js.Pairwise (· < ·) ∧
    (∀ j, j ∈ js ↔ (d, j) ∈ arr) ∧ js.map (el d) ∈ b.incomplete ∧
    ∃ x, (js.map (el d)).head? = some x ∧ young (b.val x).createdTime
  other : ∀ d, 1 < len d → (d ∈ done ∨ ∀ j, (d, j) ∉ arr) →
    ∀ c ∈ b.incomplete, ∀ f ∈ c, (b.val f).key ≠ (q d 0).key

theorem Buffers.WF.eq_of_key {a : Buffers ι} (hw : a.WF) {c d : List ι} (hc : c ∈ a.incomplete)
    (hd : d ∈ a.incomplete) {f g : ι} (hf : f ∈ c) (hg : g ∈ d)
    (hk : (a.val f).key = (a.val g).key) : c = d := by
  by_contra hne
  have : Std.Symm (KeysApart a.val) := ⟨fun x y h f hf g hg => (h g hg f hf).symm⟩
  exact hw.keys.forall hc hd hne f hf g hg hk

section Run
variable {q : D → Nat → IPv4Packet} {len : D → Nat} {young : Nat → Prop} {old : List (List ι)}
  {arr : List (D × Nat)} {done : List D} {el : D → Nat → ι} {b : Buffers ι}

/-- An arrived packet is in a chain, so it is not in an unused element. -/
theorem Arrived.mem (hA : Arrived q len young old arr done el b) {d : D} {j : Nat}
    (h : (d, j) ∈ arr) : el d j ∈ b.incomplete.flatten ++ b.ready.flatten := by
  by_cases hd : d ∈ done
  · refine List.mem_append_right _ (List.mem_flatten.mpr ⟨(List.range (len d)).map (el d), ?_, ?_⟩)
    · rw [hA.ready]
      exact List.mem_append_right _ (List.mem_map.mpr ⟨d, hd, rfl⟩)
    · exact List.mem_map.mpr ⟨j, List.mem_range.mpr (hA.bound d j h), rfl⟩
  · obtain ⟨js, -, h2, h3, -⟩ := hA.chain d hd ⟨j, h⟩
    exact List.mem_append_left _ (List.mem_flatten.mpr ⟨_, h3,
      List.mem_map.mpr ⟨j, (h2 j).mpr h, rfl⟩⟩)

/-- The numbers that have arrived of a datagram that is not complete, and its
chain. -/
theorem Arrived.numbers (hA : Arrived q len young old arr done el b) {d : D}
    (hlen : 1 < len d) (hd : d ∉ done) : ∃ js : List Nat,
      Numbered (q d) (len d) b.val (el d) js ∧ (∀ j, j ∈ js ↔ (d, j) ∈ arr) ∧
      ((js = [] ∧ ∀ c ∈ b.incomplete, ∀ f ∈ c, (b.val f).key ≠ (q d 0).key) ∨
        (js.map (el d) ∈ b.incomplete ∧
          ∃ x, (js.map (el d)).head? = some x ∧ young (b.val x).createdTime)) := by
  by_cases h : ∃ j, (d, j) ∈ arr
  · obtain ⟨js, h1, h2, h3, h4⟩ := hA.chain d hd h
    exact ⟨js, ⟨h1, fun j hj => hA.bound d j ((h2 j).mp hj), fun j hj => hA.holds d j ((h2 j).mp hj)⟩,
      h2, .inr ⟨h3, h4⟩⟩
  · rw [not_exists] at h
    exact ⟨[], ⟨.nil, by simp, by simp⟩, by simpa using h, .inl ⟨rfl, hA.other d hlen (.inr h)⟩⟩

/-- A datagram with a chain has more than one packet. -/
theorem Arrived.one_lt (hA : Arrived q len young old arr done el b) {d : D} (hd : d ∉ done)
    {j : Nat} (h : (d, j) ∈ arr) : 1 < len d := by
  by_contra hle
  refine hd ((hA.done_iff d).mpr fun i hi => ?_)
  have := hA.bound d j h
  have : i = j := by omega
  subst this; exact h

theorem not_mem_done (hA : Arrived q len young old arr done el b) {d : D} {j : Nat} (hj : j < len d)
    (hnew : (d, j) ∉ arr) : d ∉ done :=
  fun hd => hnew ((hA.done_iff d).mp hd j hj)

variable [DecidableEq D]

/-- The datagram `d` is complete once its packet `j` is there. -/
def completes (len : D → Nat) (arr : List (D × Nat)) (d : D) (j : Nat) : Bool :=
  decide (∀ i < len d, (d, i) ∈ (d, j) :: arr)

/-- The datagrams completed so far, after the arrival of packet `j` of `d`. -/
def doneAfter (len : D → Nat) (arr : List (D × Nat)) (done : List D) (d : D) (j : Nat) : List D :=
  if completes len arr d j then done ++ [d] else done

/-- The elements that hold the packets, after `e` was taken for packet `j` of
`d`. -/
def elAfter (el : D → Nat → ι) (d : D) (j : Nat) (e : ι) : D → Nat → ι :=
  fun d' j' => if (d', j') = (d, j) then e else el d' j'

@[simp] theorem elAfter_self (el : D → Nat → ι) (d : D) (j : Nat) (e : ι) :
    elAfter el d j e d j = e := if_pos rfl

theorem elAfter_of_ne {d d' : D} {j j' : Nat} (e : ι) (hne : (d', j') ≠ (d, j)) :
    elAfter el d j e d' j' = el d' j' := if_neg hne

theorem doneAfter_iff {d d' : D} {j : Nat} (hdone : ∀ d, d ∈ done ↔ ∀ j, j < len d → (d, j) ∈ arr) :
    d' ∈ doneAfter len arr done d j ↔ ∀ i, i < len d' → (d', i) ∈ (d, j) :: arr := by
  have hmem : d' ≠ d → ((∀ i, i < len d' → (d', i) ∈ (d, j) :: arr) ↔
      ∀ i, i < len d' → (d', i) ∈ arr) := by
    intro hne
    refine forall₂_congr fun i _ => ?_
    rw [List.mem_cons, Prod.mk.injEq]; tauto
  unfold doneAfter completes
  by_cases hc : ∀ i < len d, (d, i) ∈ (d, j) :: arr
  · rw [if_pos (by simpa using hc), List.mem_append, List.mem_singleton]
    by_cases hne : d' = d
    · subst hne; exact iff_of_true (.inr rfl) hc
    · rw [hmem hne, hdone]; tauto
  · rw [if_neg (by simpa using hc)]
    by_cases hne : d' = d
    · subst hne
      refine iff_of_false (fun hd => hc fun i hi => ?_) hc
      exact List.mem_cons_of_mem _ ((hdone d').mp hd i hi)
    · rw [hmem hne, hdone]

/-- The ready list after the completion of `d`. -/
theorem ready_doneAfter {d : D} {j : Nat} (e : ι) (hd : d ∉ done) :
    (doneAfter len arr done d j).map (fun d' => (List.range (len d')).map (elAfter el d j e d')) =
      done.map (fun d' => (List.range (len d')).map (el d')) ++
        if completes len arr d j then [(List.range (len d)).map (elAfter el d j e d)] else [] := by
  have hold : done.map (fun d' => (List.range (len d')).map (elAfter el d j e d')) =
      done.map fun d' => (List.range (len d')).map (el d') := by
    refine List.map_congr_left fun d' hd' => List.map_congr_left fun i _ => elAfter_of_ne e ?_
    intro he
    cases he
    exact hd hd'
  unfold doneAfter
  split
  · rw [List.map_append, hold]; rfl
  · rw [hold, List.append_nil]

theorem nodup_doneAfter {d : D} {j : Nat} (hn : done.Nodup) (hd : d ∉ done) :
    (doneAfter len arr done d j).Nodup := by
  unfold doneAfter
  split
  · exact hn.append (List.nodup_singleton d) (by simpa using hd)
  · exact hn

variable {b' : Buffers ι} {d : D} {j : Nat} {e : ι}

/-- What has to be shown of one more arrival: packet `j` of `d`, stored in
`e`, leads from `b` to `b'`. -/
structure Arrival (q : D → Nat → IPv4Packet) (len : D → Nat) (young : Nat → Prop)
    (arr : List (D × Nat)) (el : D → Nat → ι) (d : D) (j : Nat) (e : ι) (b b' : Buffers ι) :
    Prop where
  wf : b'.WF
  val : ∀ x ∈ b.incomplete.flatten ++ b.ready.flatten, b'.val x = b.val x
  holds : Holds (q d j) (b'.val e)
  ready : b'.ready = b.ready ++
    if completes len arr d j then [(List.range (len d)).map (elAfter el d j e d)] else []
  mine : completes len arr d j = false → ∃ js : List Nat, js.Pairwise (· < ·) ∧
    (∀ i, i ∈ js ↔ (d, i) ∈ (d, j) :: arr) ∧ js.map (elAfter el d j e d) ∈ b'.incomplete ∧
    ∃ x, (js.map (elAfter el d j e d)).head? = some x ∧ young (b'.val x).createdTime
  kept : ∀ c ∈ b.incomplete, (∃ x, c.head? = some x ∧ young (b.val x).createdTime) →
    (1 < len d → ∀ f ∈ c, (b.val f).key ≠ (q d 0).key) → c ∈ b'.incomplete
  chains : ∀ c ∈ b'.incomplete,
    c ∈ b.incomplete ∧ (1 < len d → ∀ f ∈ c, (b.val f).key ≠ (q d 0).key) ∨
    1 < len d ∧ completes len arr d j = false ∧ ∀ f ∈ c, (b'.val f).key = (q d 0).key

theorem Arrived.extend (hfam : Family q len) (hA : Arrived q len young old arr done el b)
    (hj : j < len d) (hnew : (d, j) ∉ arr) (hB : Arrival q len young arr el d j e b b') :
    Arrived q len young old ((d, j) :: arr) (doneAfter len arr done d j) (elAfter el d j e) b' := by
  have hd := not_mem_done hA hj hnew
  have hel : ∀ {d' j'}, (d', j') ∈ arr → elAfter el d j e d' j' = el d' j' := fun h =>
    elAfter_of_ne e fun he => hnew (he ▸ h)
  have hdone : ∀ d', d' ∈ doneAfter len arr done d j ↔
      ∀ i, i < len d' → (d', i) ∈ (d, j) :: arr := fun d' => doneAfter_iff hA.done_iff
  have hcomp : completes len arr d j = true ↔ d ∈ doneAfter len arr done d j := by
    rw [hdone, completes, decide_eq_true_eq]
  -- nothing changes for the other datagrams
  have hmem : ∀ {d'}, d' ≠ d → ∀ i, (d', i) ∈ (d, j) :: arr ↔ (d', i) ∈ arr := fun hne i => by
    rw [List.mem_cons, Prod.mk.injEq]; tauto
  have hdone' : ∀ {d'}, d' ≠ d → (d' ∈ doneAfter len arr done d j ↔ d' ∈ done) := fun hne => by
    rw [hdone, hA.done_iff]
    exact forall₂_congr fun i _ => hmem hne i
  refine ⟨hB.wf, ?_, ?_, ?_, hdone, nodup_doneAfter hA.nodup hd, ?_, ?_⟩
  · intro d' j' hm
    rcases List.mem_cons.mp hm with he | hm
    · cases he; exact hj
    · exact hA.bound d' j' hm
  · intro d' j' hm
    rcases List.mem_cons.mp hm with he | hm
    · cases he
      rw [elAfter_self]; exact hB.holds
    · rw [hel hm, hB.val _ (hA.mem hm)]
      exact hA.holds d' j' hm
  · rw [hB.ready, hA.ready, ready_doneAfter e hd, List.append_assoc]
  · intro d' hd' hex
    by_cases hne : d' = d
    · subst hne
      exact hB.mine (by simpa [← hcomp] using hd')
    · simp only [hmem hne] at hex ⊢
      have hd'' : d' ∉ done := fun hm => hd' ((hdone' hne).mpr hm)
      obtain ⟨js, h1, h2, h3, x, h4, h5⟩ := hA.chain d' hd'' hex
      have hmap : js.map (elAfter el d j e d') = js.map (el d') :=
        List.map_congr_left fun i hi => hel ((h2 i).mp hi)
      refine ⟨js, h1, h2, ?_, x, by rw [hmap]; exact h4, ?_⟩
      · rw [hmap]
        refine hB.kept _ h3 ⟨x, h4, h5⟩ fun hlen f hf he => hne ?_
        obtain ⟨i, hi, rfl⟩ := List.mem_map.mp hf
        obtain ⟨i', hi'⟩ := hex
        rw [(hA.holds d' i ((h2 i).mp hi)).key,
          (hfam.tiles d').key i (hA.bound d' i ((h2 i).mp hi))] at he
        exact hfam.keys d' d (hA.one_lt hd'' hi') hlen he
      · rw [hB.val x (List.mem_append_left _ (List.mem_flatten.mpr ⟨_, h3, List.mem_of_head? h4⟩))]
        exact h5
  · intro d' hlen' hcase c hc f hf
    rcases hB.chains c hc with ⟨hc', hk⟩ | ⟨hlen, hnc, hk⟩
    · rw [hB.val f (List.mem_append_left _ (List.mem_flatten.mpr ⟨c, hc', hf⟩))]
      by_cases hne : d' = d
      · subst hne; exact hk hlen' f hf
      · refine hA.other d' hlen' ?_ c hc' f hf
        rcases hcase with h1 | h1
        · exact .inl ((hdone' hne).mp h1)
        · exact .inr fun i hi => h1 i (List.mem_cons_of_mem _ hi)
    · rw [hk f hf]
      intro he
      have hne : d = d' := hfam.keys d d' hlen hlen' he
      subst hne
      rcases hcase with h1 | h1
      · rw [← hcomp, hnc] at h1; cases h1
      · exact h1 j (by simp)

variable [DecidableEq ι] {exp : IPv4Packet → Bool} {a1 : Buffers ι} {p : IPv4Packet}

/-- The elements in chains keep their packets when a buffer is filled. -/
theorem Buffers.Taken.fill_val (ht : Buffers.Taken b e a1) (hinc : a1.incomplete = b.incomplete)
    (p : IPv4Packet) {x : ι} (hx : x ∈ b.incomplete.flatten ++ b.ready.flatten) :
    (a1.fill e p).val x = b.val x := by
  rw [Buffers.fill_val_of_ne, ht.val]
  rintro rfl
  refine ht.fresh ?_
  rw [Buffers.all, ht.ready, hinc, List.append_assoc]
  exact List.mem_append_right _ hx

/-- The arrival of a datagram of one packet. -/
theorem arrival_whole (ht : Buffers.Taken b e a1) (hinc : a1.incomplete = b.incomplete)
    (hlen : len d = 1) (hj : j < len d) (hp : Holds (q d j) p)
    (hw : Buffers.WF { a1.fill e p with ready := b.ready ++ [[e]] }) :
    Arrival q len young arr el d j e b { a1.fill e p with ready := b.ready ++ [[e]] } := by
  have hj0 : j = 0 := by omega
  have hcomp : completes len arr d j = true := by
    rw [completes, decide_eq_true_eq]
    intro i hi
    have : i = j := by omega
    subst this; simp
  refine ⟨hw, fun x hx => ht.fill_val hinc p hx, ?_, ?_, fun h => absurd h (by rw [hcomp]; simp),
    ?_, ?_⟩
  · show Holds _ ((a1.fill e p).val e)
    rw [Buffers.fill_val_self]; exact hp
  · show b.ready ++ [[e]] = _
    rw [if_pos hcomp, hlen]
    simp [hj0, List.range_one]
  · intro c hc _ _
    show c ∈ a1.incomplete
    rw [hinc]; exact hc
  · intro c hc
    refine .inl ⟨?_, fun h => by omega⟩
    rw [← hinc]; exact hc

/-- The chains keep their packets. -/
theorem Buffers.Taken.fill_chain (ht : Buffers.Taken b e a1) (hinc : a1.incomplete = b.incomplete) (p : IPv4Packet)
    {c : List ι} (hc : c ∈ b.incomplete) {f : ι} (hf : f ∈ c) : (a1.fill e p).val f = b.val f :=
  ht.fill_val hinc p (List.mem_append_left _ (List.mem_flatten.mpr ⟨c, hc, hf⟩))

/-- A fragment is placed in the chain of the packets of its datagram that have
arrived. -/
theorem arrival_placing (hfam : Family q len) (hA : Arrived q len young old arr done el b)
    (ht : Buffers.Taken b e a1) (hinc : a1.incomplete = b.incomplete) (hlen : 1 < len d)
    (hj : j < len d) (hnew : (d, j) ∉ arr) (hp : Holds (q d j) p)
    (hexp : ∀ p, young p.createdTime → exp p = false)
    (hF : Buffers.Filed exp (a1.fill e p) e b') : ∃ js : List Nat,
    Numbered (q d) (len d) (a1.fill e p).val (elAfter el d j e d) js ∧ (∀ i, i ∈ js ↔ (d, i) ∈ arr) ∧
      ((js = [] ∧ ∀ c ∈ b.incomplete, ∀ f ∈ c, (b.val f).key ≠ (q d 0).key) ∨
        (js.map (el d) ∈ b.incomplete ∧
          ∃ x, (js.map (el d)).head? = some x ∧ young (b.val x).createdTime)) ∧
      js.map (elAfter el d j e d) = js.map (el d) ∧
      Placing exp (a1.fill e p) e b' (js.map (elAfter el d j e d)) := by
  have htile := hfam.tiles d
  have hinc2 : (a1.fill e p).incomplete = b.incomplete := hinc
  have hek : ((a1.fill e p).val e).key = (q d 0).key := by
    rw [Buffers.fill_val_self, hp.key, htile.key j hj]
  have hfr : ((a1.fill e p).val e).isFragment = true := by
    rw [Buffers.fill_val_self, hp.isFragment, htile.isFragment hj]; simpa using hlen
  obtain ⟨js, hn, hmem, halt⟩ := hA.numbers hlen (not_mem_done hA hj hnew)
  have hjs : j ∉ js := fun hm => hnew ((hmem j).mp hm)
  have hel : ∀ i ∈ js, elAfter el d j e d i = el d i := fun i hi =>
    elAfter_of_ne e fun he => hjs (by cases he; exact hi)
  have hmap : js.map (elAfter el d j e d) = js.map (el d) := List.map_congr_left hel
  have hn2 : Numbered (q d) (len d) (a1.fill e p).val (elAfter el d j e d) js := by
    refine ⟨hn.sorted, hn.lt, fun i hi => ?_⟩
    rw [hel i hi, ht.fill_val hinc p (hA.mem ((hmem i).mp hi))]
    exact hn.holds i hi
  have hh : Holds (q d j) ((a1.fill e p).val (elAfter el d j e d j)) := by
    rw [elAfter_self, Buffers.fill_val_self]; exact hp
  -- a chain with the key of `d` is the chain of the arrived packets
  have huniq : ∀ c ∈ b.incomplete, (∀ f ∈ c, ((a1.fill e p).val f).key = (q d 0).key) →
      c = js.map (el d) ∧ js.map (el d) ∈ b.incomplete := by
    intro c hc hk
    obtain ⟨x, hx⟩ := List.exists_mem_of_ne_nil c (hA.wf.parts c hc).ne_nil
    have hxk : (b.val x).key = (q d 0).key := by rw [← ht.fill_chain hinc p hc hx]; exact hk x hx
    rcases halt with ⟨-, hno⟩ | ⟨hm, y, hy, -⟩
    · exact absurd hxk (hno c hc x hx)
    · have hym := List.mem_of_head? hy
      obtain ⟨i, hi, rfl⟩ := List.mem_map.mp hym
      refine ⟨hA.wf.eq_of_key hc hm hx hym ?_, hm⟩
      rw [hxk, (hn.holds i hi).key, htile.key i (hn.lt i hi)]
  obtain ⟨c, hP⟩ := hF.placing (ht.wf.setVal ht.fresh p) hfr fun c hc _ hk => by
    rw [hinc2] at hc
    rw [hek] at hk
    rw [(huniq c hc hk).1, ← hmap]
    have := hn2.fits htile hj hjs hh
    rwa [elAfter_self] at this
  have hc : c = js.map (elAfter el d j e d) := by
    rw [hmap]
    rcases hP.found with ⟨rfl, hno⟩ | ⟨hc, -, hk⟩
    · rcases halt with ⟨rfl, -⟩ | ⟨hm, x, hx, hyx⟩
      · rfl
      · have hlive : headIs (a1.fill e p).val exp (js.map (el d)) = false := by
          rw [headIs, hx, Option.any_some, ht.fill_chain hinc p hm (List.mem_of_head? hx)]
          exact hexp _ hyx
        obtain ⟨f, hf, hne⟩ := hno _ (by rw [hinc2]; exact hm) hlive
        obtain ⟨i, hi, rfl⟩ := List.mem_map.mp hf
        rw [hek, ht.fill_chain hinc p hm hf, (hn.holds i hi).key, htile.key i (hn.lt i hi)] at hne
        exact absurd rfl hne
    · rw [hinc2] at hc
      rw [hek] at hk
      exact (huniq c hc hk).1
  exact ⟨js, hn2, hmem, halt, hmap, hc ▸ hP⟩

/-- The arrival of a packet of a fragmented datagram. -/
theorem arrival_fragment (hfam : Family q len) (hA : Arrived q len young old arr done el b)
    (ht : Buffers.Taken b e a1) (hinc : a1.incomplete = b.incomplete) (hlen : 1 < len d)
    (hj : j < len d) (hnew : (d, j) ∉ arr) (hp : Holds (q d j) p) (hy : young p.createdTime)
    (hexp : ∀ p, young p.createdTime → exp p = false)
    (hF : Buffers.Filed exp (a1.fill e p) e b') :
    Arrival q len young arr el d j e b b' ∧ a1.unused <:+ b'.unused := by
  have htile := hfam.tiles d
  have hw2 : (a1.fill e p).WF := ht.wf.setVal ht.fresh p
  have hinc2 : (a1.fill e p).incomplete = b.incomplete := hinc
  have hek : ((a1.fill e p).val e).key = (q d 0).key := by
    rw [Buffers.fill_val_self, hp.key, htile.key j hj]
  have hfr : ((a1.fill e p).val e).isFragment = true := by
    rw [Buffers.fill_val_self, hp.isFragment, htile.isFragment hj]; simpa using hlen
  obtain ⟨js, hn2, hmem, halt, hmap, hP⟩ := arrival_placing hfam hA ht hinc hlen hj hnew hp hexp hF
  generalize hc : js.map (elAfter el d j e d) = c at hP
  have hjs : j ∉ js := fun hm => hnew ((hmem j).mp hm)
  have hh : Holds (q d j) ((a1.fill e p).val (elAfter el d j e d j)) := by
    rw [elAfter_self, Buffers.fill_val_self]; exact hp
  have hpl : placed (a1.fill e p).val e c = (insertNumber j js).map (elAfter el d j e d) := by
    have := hn2.placed htile hj hh
    rwa [elAfter_self, hc] at this
  have hn3 := hn2.insert hj hjs hh
  have hmem3 : ∀ i, i ∈ insertNumber j js ↔ (d, i) ∈ (d, j) :: arr := fun i => by
    rw [mem_insertNumber, hmem, List.mem_cons, Prod.mk.injEq]; tauto
  have hcomp : complete (a1.fill e p).val (placed (a1.fill e p).val e c) = completes len arr d j := by
    rw [hpl, Bool.eq_iff_iff, hn3.complete_iff htile, eq_range_iff hn3.sorted hn3.lt, completes,
      decide_eq_true_eq]
    exact forall₂_congr fun i _ => hmem3 i
  have hval : ∀ x, x ≠ e → b'.val x = (a1.fill e p).val x := fun x hx => by
    rw [hP.val]; exact inherit_of_ne _ _ hx
  have hne : ∀ x ∈ b.incomplete.flatten ++ b.ready.flatten, x ≠ e := by
    rintro x hx rfl
    refine ht.fresh ?_
    rw [Buffers.all, ht.ready, hinc, List.append_assoc]
    exact List.mem_append_right _ hx
  have hvb : ∀ x ∈ b.incomplete.flatten ++ b.ready.flatten, b'.val x = b.val x := fun x hx => by
    rw [hval x (hne x hx), ht.fill_val hinc p hx]
  have hpk : ∀ f ∈ placed (a1.fill e p).val e c, (b'.val f).key = (q d 0).key := by
    intro f hf
    rw [hP.val, (inherit_alike _ _ _ f).key]
    rcases mem_placed.mp hf with rfl | hf
    · exact hek
    · rw [← hc] at hf
      obtain ⟨i, hi, rfl⟩ := List.mem_map.mp hf
      rw [(hn2.holds i hi).key, htile.key i (hn2.lt i hi)]
  refine ⟨⟨hF.wf hw2 ht.fresh hfr, hvb, ?_, ?_, ?_, ?_, ?_⟩, hP.unused⟩
  · rw [hP.val]
    refine Holds.alike ?_ (inherit_alike _ _ _ e)
    rw [Buffers.fill_val_self]; exact hp
  · have hall : completes len arr d j = true → insertNumber j js = List.range (len d) := fun h => by
      rw [← hcomp, hpl, hn3.complete_iff htile] at h; exact h
    rw [hP.ready, hcomp, hpl]
    change a1.ready ++ _ = _
    rw [ht.ready]
    split
    · rename_i h; rw [hall h]
    · rfl
  · intro hnc
    refine ⟨insertNumber j js, hn3.sorted, hmem3, ?_, ?_⟩
    · rw [← hpl]; exact hP.new (by rw [hcomp]; exact hnc)
    · rw [← hpl]
      rcases halt with ⟨rfl, -⟩ | ⟨hm, x, hx, hyx⟩
      · rw [List.map_nil] at hc
        subst hc
        refine ⟨e, rfl, ?_⟩
        rw [hP.val, inherit_nil, Buffers.fill_val_self]; exact hy
      · have hcx : c.head? = some x := by rw [← hc, hmap]; exact hx
        have hec : e ∉ c := by
          intro he
          rw [← hc, hmap] at he
          exact hne e (List.mem_append_left _ (List.mem_flatten.mpr ⟨_, hm, he⟩)) rfl
        obtain ⟨y, hy1, hy2⟩ := createdTime_head_placed (a1.fill e p).val hcx hec
        refine ⟨y, hy1, ?_⟩
        rw [hP.val, hy2, ht.fill_chain hinc p hm (List.mem_of_head? hx)]
        exact hyx
  · intro c0 hc0 hyoung hk
    obtain ⟨x, hx, hyx⟩ := hyoung
    refine hP.kept c0 (by rw [hinc2]; exact hc0) ?_ fun f hf => ?_
    · rw [headIs, hx, Option.any_some, ht.fill_chain hinc p hc0 (List.mem_of_head? hx)]
      exact hexp _ hyx
    · rw [hek, ht.fill_chain hinc p hc0 hf]; exact hk hlen f hf
  · intro c0 hc0
    rcases hP.chain c0 hc0 with ⟨h1, h2⟩ | ⟨h1, h2⟩
    · rw [hinc2] at h1
      refine .inl ⟨h1, fun _ f hf => ?_⟩
      have := h2 f hf
      rwa [hek, ht.fill_chain hinc p h1 hf] at this
    · rw [hcomp] at h2
      exact .inr ⟨hlen, h2, fun f hf => hpk f (by rw [← h1]; exact hf)⟩

/-- One more packet arrives: the invariant is kept, and at most one unused
element is gone. -/
theorem Arrived.accept (hfam : Family q len) (hA : Arrived q len young old arr done el b)
    (hu : b.unused ≠ []) (hj : j < len d) (hnew : (d, j) ∉ arr)
    {mk : IPv4Packet → IPv4Packet} (hmk : ∀ o, Holds (q d j) (mk o) ∧ young (mk o).createdTime)
    (hexp : ∀ p, young p.createdTime → exp p = false) :
    ∃ e, Arrived q len young old ((d, j) :: arr) (doneAfter len arr done d j) (elAfter el d j e)
        (b.accept exp mk) ∧
      b.unused.length ≤ (b.accept exp mk).unused.length + 1 := by
  have hw : (b.accept exp mk).WF := hA.wf.accept mk
  have hacc := Buffers.accept_accepted exp hA.wf mk
  generalize b.accept exp mk = b' at hacc hw
  have hlists : ∀ {e a1}, Buffers.Taken b e a1 →
      a1.incomplete = b.incomplete ∧ b.unused = e :: a1.unused := by
    intro e a1 ht
    rcases ht.lists with ⟨h1, h2⟩ | ⟨h1, -⟩
    · exact ⟨h2, h1⟩
    · exact absurd h1 hu
  have hpos := (hfam.tiles d).pos
  cases hacc with
  | dropped h1 _ => exact absurd h1 hu
  | @whole e a1 ht hfr =>
    obtain ⟨h1, h2⟩ := hlists ht
    obtain ⟨hh, -⟩ := hmk (b.val e)
    have hlen : len d = 1 := by
      rw [hh.isFragment, (hfam.tiles d).isFragment hj] at hfr
      have : ¬ 1 < len d := by simpa using hfr
      omega
    refine ⟨e, hA.extend hfam hj hnew (arrival_whole ht h1 hlen hj hh hw), ?_⟩
    rw [h2]; exact Nat.le_refl _
  | @fragment e a1 b' ht hfr hF =>
    obtain ⟨h1, h2⟩ := hlists ht
    obtain ⟨hh, hy⟩ := hmk (b.val e)
    have hlen : 1 < len d := by
      rw [hh.isFragment, (hfam.tiles d).isFragment hj] at hfr
      simpa using hfr
    obtain ⟨hB, hsuf⟩ := arrival_fragment hfam hA ht h1 hlen hj hnew hh hy hexp hF
    refine ⟨e, hA.extend hfam hj hnew hB, ?_⟩
    have := hsuf.length_le
    rw [h2, List.length_cons]; omega

end Run

end CpuScheduler.L2
