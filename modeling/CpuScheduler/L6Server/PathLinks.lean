import CpuScheduler.Core.Links
import CpuScheduler.L6Server.PathFilter

/-!
# The filter on its two lists

The elements of the paths have two links: `next[0]` leads through the paths
that are in use, `next[1]` through those that are still possible. For the first
character `trimListBasedOnNewCharacter` walks the first list, afterwards the
second one, and it writes the second one while it walks. `trimLinks_refines`:
the walk does to the lists what `CoapServer` has as a function on lists. With
`PathFilter` a whole string leaves exactly the paths whose patterns match it
(`feedLinks_matches`).
-/
namespace CpuScheduler.L6

open Links Wildcard

/-! ## The elements and their links -/

/-- `next0` and `next1` are the source's `next[0]` and `next[1]`. -/
structure PathPool where
  next0 : PathIndex → Option PathIndex
  next1 : PathIndex → Option PathIndex
  value : PathIndex → CoAPPath

/-- The link that is followed. -/
def PathPool.follow (pool : PathPool) (isFirstCharacter : Bool) (i : PathIndex) : Option PathIndex :=
  if isFirstCharacter then pool.next0 i else pool.next1 i

/-- The local variables of the loop. -/
structure TrimState where
  pCurrentPathListElement : Option PathIndex
  pLastValidPathListElement : Option PathIndex
  pNewHead : Option PathIndex
  pool : PathPool

/-- A round for element `i`. mirrors coap_server.cpp:516-640 -/
def trimRound (newCharacter : UInt8) (isFirstCharacter : Bool) (i : PathIndex) (t : TrimState) : TrimState :=
  let (valid, p) := (t.pool.value i).accept newCharacter isFirstCharacter
  let pool := { t.pool with value := Function.update t.pool.value i p }
  if valid then
    let (pNewHead, pool) := match t.pLastValidPathListElement with
      | none => (some i, pool)
      | some last => (t.pNewHead, { pool with next1 := Function.update pool.next1 last (some i) })
    ⟨pool.follow isFirstCharacter i, some i, pNewHead, { pool with next1 := Function.update pool.next1 i none }⟩
  else ⟨pool.follow isFirstCharacter i, t.pLastValidPathListElement, t.pNewHead, pool⟩

/-- `none`: the loop has not come to its end. -/
def trimLoop (newCharacter : UInt8) (isFirstCharacter : Bool) : Nat → TrimState → Option TrimState
  | 0, _ => none
  | fuel + 1, t =>
    match t.pCurrentPathListElement with
    | none => some t
    | some i => trimLoop newCharacter isFirstCharacter fuel (trimRound newCharacter isFirstCharacter i t)

/-- The new head and the elements; there are at most `MAX_NUM_COAP_PATHS`
rounds. mirrors coap_server.cpp:511-643 -/
def trimLinks (newCharacter : UInt8) (isFirstCharacter : Bool) (possibleValidPathsHead : Option PathIndex) (pool : PathPool) :
    Option (Option PathIndex × PathPool) :=
  (trimLoop newCharacter isFirstCharacter (MAX_NUM_COAP_PATHS + 1) ⟨possibleValidPathsHead, none, none, pool⟩).map fun t =>
    (t.pNewHead, t.pool)

/-- One character after the other. -/
def feedLinks : List UInt8 → Bool → Option PathIndex × PathPool → Option (Option PathIndex × PathPool)
  | [], _, s => some s
  | c :: cs, isFirstCharacter, s => (trimLinks c isFirstCharacter s.1 s.2).bind fun s => feedLinks cs false s

/-! ## One character -/

section
variable {c : UInt8} {isFirstCharacter : Bool} {head : Option PathIndex} {pool : PathPool} {done rest : List PathIndex}

/-- In the loop: `done` are the valid elements so far, `rest` those that are
still to be visited. -/
structure Trimming (isFirstCharacter : Bool) (done rest : List PathIndex) (t : TrimState) : Prop where
  nodup : (done ++ rest).Nodup
  valid : Seg t.pool.next1 t.pNewHead done none
  last : t.pLastValidPathListElement = done.getLast?
  current : Seg (t.pool.follow isFirstCharacter) t.pCurrentPathListElement rest none

/-- Writes to the second links of elements that are not visited any more. -/
theorem follow_congr {p q : Option PathIndex} {xs : List PathIndex} {pool pool' : PathPool}
    (h : Seg (pool.follow isFirstCharacter) p xs q) (h0 : pool'.next0 = pool.next0)
    (h1 : ∀ x ∈ xs, pool'.next1 x = pool.next1 x) : Seg (pool'.follow isFirstCharacter) p xs q := by
  refine h.congr fun x hx => ?_
  unfold PathPool.follow
  rw [h0, h1 x hx]

theorem Trimming.round_valid {i : PathIndex} {t : TrimState} (h : Trimming isFirstCharacter done (i :: rest) t)
    (hvalid : ((t.pool.value i).accept c isFirstCharacter).1 = true) :
    Trimming isFirstCharacter (done ++ [i]) rest (trimRound c isFirstCharacter i t) ∧
      (trimRound c isFirstCharacter i t).pool.next0 = t.pool.next0 ∧
      (trimRound c isFirstCharacter i t).pool.value =
        Function.update t.pool.value i ((t.pool.value i).accept c isFirstCharacter).2 := by
  obtain ⟨hnd, hdone, hlast, hi, hrest⟩ := h
  have hnd' : (done ++ [i] ++ rest).Nodup := by rwa [List.append_assoc, List.singleton_append]
  have hidone : i ∉ done := fun hmem => (List.nodup_append.mp hnd).2.2 i hmem i List.mem_cons_self rfl
  have hirest : i ∉ rest := (List.nodup_cons.mp (List.nodup_append.mp hnd).2.1).1
  rcases List.eq_nil_or_concat done with rfl | ⟨front, last, rfl⟩
  · -- the first valid element is the new head
    have hround : trimRound c isFirstCharacter i t = ⟨t.pool.follow isFirstCharacter i, some i, some i,
        ⟨t.pool.next0, Function.update t.pool.next1 i none,
          Function.update t.pool.value i ((t.pool.value i).accept c isFirstCharacter).2⟩⟩ := by
      unfold trimRound
      dsimp only
      rw [hvalid, if_pos rfl, hlast]
      rfl
    rw [hround]
    refine ⟨⟨hnd', ⟨rfl, Function.update_self ..⟩, rfl, ?_⟩, rfl, rfl⟩
    exact follow_congr hrest rfl fun x hx => Function.update_of_ne (ne_of_mem_of_not_mem hx hirest) ..
  · -- the last valid element is linked to this one
    have hil : i ≠ last := fun heq => hidone (by simp [heq])
    have hround : trimRound c isFirstCharacter i t = ⟨t.pool.follow isFirstCharacter i, some i, t.pNewHead,
        ⟨t.pool.next0, Function.update (Function.update t.pool.next1 last (some i)) i none,
          Function.update t.pool.value i ((t.pool.value i).accept c isFirstCharacter).2⟩⟩ := by
      unfold trimRound
      dsimp only
      rw [hvalid, if_pos rfl, hlast, List.concat_eq_append, List.getLast?_concat]
      dsimp only [PathPool.follow]
      rw [Function.update_of_ne hil]
    rw [List.concat_eq_append] at *
    have hlastfront : last ∉ front := by
      have hfront := (List.nodup_append.mp hnd).1
      exact fun hmem => (List.nodup_append.mp hfront).2.2 last hmem last List.mem_cons_self rfl
    have hlastrest : last ∉ rest := fun hmem =>
      (List.nodup_append.mp hnd).2.2 last (by simp) last (List.mem_cons_of_mem i hmem) rfl
    rw [hround]
    refine ⟨⟨hnd', ?_, by simp, ?_⟩, rfl, rfl⟩
    · exact seg_append.mpr ⟨some i, (hdone.update_last hlastfront).update hidone, rfl, Function.update_self ..⟩
    · refine follow_congr hrest rfl fun x hx => ?_
      dsimp only
      rw [Function.update_of_ne (ne_of_mem_of_not_mem hx hirest), Function.update_of_ne (ne_of_mem_of_not_mem hx hlastrest)]

theorem Trimming.round_invalid {i : PathIndex} {t : TrimState} (h : Trimming isFirstCharacter done (i :: rest) t)
    (hvalid : ((t.pool.value i).accept c isFirstCharacter).1 = false) :
    Trimming isFirstCharacter done rest (trimRound c isFirstCharacter i t) ∧
      (trimRound c isFirstCharacter i t).pool.next0 = t.pool.next0 ∧
      (trimRound c isFirstCharacter i t).pool.value =
        Function.update t.pool.value i ((t.pool.value i).accept c isFirstCharacter).2 := by
  obtain ⟨hnd, hdone, hlast, hi, hrest⟩ := h
  have hround : trimRound c isFirstCharacter i t = ⟨t.pool.follow isFirstCharacter i, t.pLastValidPathListElement, t.pNewHead,
      { t.pool with value := Function.update t.pool.value i ((t.pool.value i).accept c isFirstCharacter).2 }⟩ := by
    unfold trimRound
    dsimp only
    rw [hvalid, if_neg (by simp)]
    rfl
  rw [hround]
  refine ⟨⟨?_, hdone, hlast, follow_congr hrest rfl fun _ _ => rfl⟩, rfl, rfl⟩
  exact hnd.sublist ((List.sublist_cons_self i rest).append_left done)

/-- The loop makes the list of `CoapServer`. -/
theorem trimLoop_eq {fuel : Nat} {t : TrimState} (h : Trimming isFirstCharacter done rest t) (hfuel : rest.length < fuel) :
    ∃ t', trimLoop c isFirstCharacter fuel t = some t' ∧ t'.pool.next0 = t.pool.next0 ∧
      Seg t'.pool.next1 t'.pNewHead (done ++ (trimListBasedOnNewCharacter c isFirstCharacter rest t.pool.value).1) none ∧
      t'.pool.value = (trimListBasedOnNewCharacter c isFirstCharacter rest t.pool.value).2 := by
  induction rest generalizing done fuel t with
  | nil =>
    cases fuel with
    | zero => cases hfuel
    | succ fuel =>
      have hend : t.pCurrentPathListElement = none := h.current
      refine ⟨t, by rw [trimLoop, hend], rfl, ?_, rfl⟩
      rw [trimListBasedOnNewCharacter, List.append_nil]
      exact h.valid
  | cons i rest ih =>
    cases fuel with
    | zero => cases hfuel
    | succ fuel =>
      have hi : t.pCurrentPathListElement = some i := h.current.1
      have hloop : trimLoop c isFirstCharacter (fuel + 1) t =
          trimLoop c isFirstCharacter fuel (trimRound c isFirstCharacter i t) := by rw [trimLoop, hi]
      rw [hloop, trimListBasedOnNewCharacter]
      dsimp only
      cases hvalid : ((t.pool.value i).accept c isFirstCharacter).1 with
      | true =>
        obtain ⟨hnext, h0, hvalue⟩ := h.round_valid hvalid
        obtain ⟨t', hrun, h0', hseg, hvalue'⟩ := ih hnext (Nat.lt_of_succ_lt_succ hfuel)
        rw [hvalue] at hseg hvalue'
        rw [List.append_assoc, List.singleton_append] at hseg
        exact ⟨t', hrun, h0'.trans h0, hseg, hvalue'⟩
      | false =>
        obtain ⟨hnext, h0, hvalue⟩ := h.round_invalid hvalid
        obtain ⟨t', hrun, h0', hseg, hvalue'⟩ := ih hnext (Nat.lt_of_succ_lt_succ hfuel)
        rw [hvalue] at hseg hvalue'
        exact ⟨t', hrun, h0'.trans h0, hseg, hvalue'⟩

/-- One character leaves the list that `CoapServer` has; the first list is as
it was. -/
theorem trimLinks_refines (hnd : rest.Nodup) (hseg : Seg (pool.follow isFirstCharacter) head rest none) :
    ∃ newHead pool', trimLinks c isFirstCharacter head pool = some (newHead, pool') ∧ pool'.next0 = pool.next0 ∧
      Seg pool'.next1 newHead (trimListBasedOnNewCharacter c isFirstCharacter rest pool.value).1 none ∧
      pool'.value = (trimListBasedOnNewCharacter c isFirstCharacter rest pool.value).2 := by
  have hlen : rest.length ≤ MAX_NUM_COAP_PATHS := by
    have hcard := hnd.length_le_card
    rwa [Fintype.card_fin] at hcard
  have hstart : Trimming isFirstCharacter [] rest ⟨head, none, none, pool⟩ := ⟨hnd, rfl, rfl, hseg⟩
  obtain ⟨t', hrun, h0, hlist, hvalue⟩ := trimLoop_eq (c := c) hstart (Nat.lt_succ_of_le hlen)
  exact ⟨t'.pNewHead, t'.pool, by rw [trimLinks, hrun]; rfl, h0, hlist, hvalue⟩

theorem trimList_nodup {elements : PathIndex → CoAPPath} (hnd : rest.Nodup) :
    (trimListBasedOnNewCharacter c isFirstCharacter rest elements).1.Nodup := by
  rw [trimList_eq hnd]
  exact hnd.filter _

/-! ## A string -/

theorem feedLinks_refines (cs : List UInt8) (hnd : rest.Nodup) (hseg : Seg pool.next1 head rest none) :
    ∃ newHead pool', feedLinks cs false (head, pool) = some (newHead, pool') ∧ pool'.next0 = pool.next0 ∧
      Seg pool'.next1 newHead (feed cs false (rest, pool.value)).1 none ∧
      pool'.value = (feed cs false (rest, pool.value)).2 := by
  induction cs generalizing head pool rest with
  | nil => exact ⟨head, pool, rfl, rfl, hseg, rfl⟩
  | cons c cs ih =>
    have hfollow : Seg (pool.follow false) head rest none := hseg
    obtain ⟨head', pool', htrim, h0, hlist, hvalue⟩ := trimLinks_refines (c := c) hnd hfollow
    obtain ⟨newHead, pool'', hfeed, h0', hlist', hvalue'⟩ := ih (trimList_nodup hnd) hlist
    rw [hvalue] at hlist' hvalue'
    exact ⟨newHead, pool'', by rw [feedLinks, htrim, Option.bind_some]; exact hfeed, h0'.trans h0, hlist', hvalue'⟩

/-- A string and the zero at its end leave the paths whose patterns match the
string, in the order of the list of used paths, whatever the counters and the
second links were. The list of used paths is as it was. -/
theorem feedLinks_matches {used : List PathIndex} (hnd : used.Nodup) (hused : Seg pool.next0 head used none)
    (hseg : ∀ i ∈ used, Segmented slash caret (pool.value i).path) {s : List UInt8} (hslash : s.head? = some slash)
    (h0 : 0 ∉ s) : ∃ newHead pool' found, feedLinks (s ++ [0]) true (head, pool) = some (newHead, pool') ∧
      Seg pool'.next1 newHead found none ∧ found.Sublist used ∧
      (∀ i, i ∈ found ↔ i ∈ used ∧ Matches slash caret (pool.value i).path s) ∧
      pool'.next0 = pool.next0 ∧ Seg pool'.next0 head used none ∧
      ∀ i, (pool'.value i).path = (pool.value i).path ∧ (pool'.value i).pHandler = (pool.value i).pHandler := by
  cases s with
  | nil => cases hslash
  | cons c u =>
    have hfollow : Seg (pool.follow true) head used none := hused
    obtain ⟨head', pool1, htrim, hnext, hlist, hvalue⟩ := trimLinks_refines (c := c) hnd hfollow
    obtain ⟨newHead, pool', hfeed, hnext', hlist', hvalue'⟩ := feedLinks_refines (u ++ [0]) (trimList_nodup hnd) hlist
    rw [hvalue] at hlist' hvalue'
    have htracks : Tracks used pool.value (c :: (u ++ [0])) (feed (c :: (u ++ [0])) true (used, pool.value)).1
        (feed (c :: (u ++ [0])) true (used, pool.value)).2 := tracks_feed hnd pool.value c (u ++ [0])
    have hall : pool'.next0 = pool.next0 := hnext'.trans hnext
    refine ⟨newHead, pool', _, by rw [List.cons_append, feedLinks, htrim, Option.bind_some]; exact hfeed, hlist', ?_, ?_, hall,
      by rwa [hall], fun i => ?_⟩
    · have hfilter := htracks.list
      rw [feed] at hfilter
      rw [hfilter]
      exact List.filter_sublist
    · intro i
      have hfilter := htracks.list
      rw [feed] at hfilter
      rw [hfilter, List.mem_filter]
      refine and_congr_right fun hi => ?_
      exact accepts_of_zero_notMem (hseg i hi) h0
    · rw [hvalue']
      exact ⟨htracks.path i, htracks.handler i⟩

end

/-! ## Two paths -/

theorem zero_lt_paths : 0 < MAX_NUM_COAP_PATHS := by decide

theorem one_lt_paths : 1 < MAX_NUM_COAP_PATHS := by decide

/-- "/t/^" -/
def taskPattern : List UInt8 := [slash, 0x74, slash, caret]

/-- "/t/^/s" -/
def statePattern : List UInt8 := [slash, 0x74, slash, caret, slash, 0x73]

theorem taskPattern_fits : taskPattern.length ≤ MAX_COAP_PATH_SIZE := by decide

theorem statePattern_fits : statePattern.length ≤ MAX_COAP_PATH_SIZE := by decide

def silentHandler : CoAPHandler := fun _ _ _ _ => (⟨0x45, 0, .textPlainCharsetUTF8⟩, fun _ => 0)

/-- The counters and the second links are left over from something else. -/
def leftOver : PathPool where
  next0 i := if i.val = 0 then some ⟨1, one_lt_paths⟩ else none
  next1 _ := some ⟨0, zero_lt_paths⟩
  value i := if i.val = 0 then ⟨taskPattern, 77, silentHandler, taskPattern_fits⟩
    else ⟨statePattern, 5, silentHandler, statePattern_fits⟩

/-- "/t/7" is for the first of them only. -/
theorem feedLinks_matches_leftOver : ∃ newHead pool' found,
    feedLinks ([slash, 0x74, slash, 0x37] ++ [0]) true (some ⟨0, zero_lt_paths⟩, leftOver) = some (newHead, pool') ∧
    Seg pool'.next1 newHead found none ∧ ⟨0, zero_lt_paths⟩ ∈ found ∧ ⟨1, one_lt_paths⟩ ∉ found := by
  have hzero : (0 : UInt8) ∉ [slash, 0x74, slash, 0x37] := by decide
  have htask : Segmented slash caret taskPattern := by simp [taskPattern, Segmented, slash, caret]
  have hstate : Segmented slash caret statePattern := by simp [statePattern, Segmented, slash, caret]
  obtain ⟨newHead, pool', found, hrun, hlist, _, hfound, _⟩ :=
    @feedLinks_matches _ leftOver [⟨0, zero_lt_paths⟩, ⟨1, one_lt_paths⟩] (by decide) ⟨rfl, rfl, rfl⟩
      (by simpa [leftOver] using ⟨htask, hstate⟩) [slash, 0x74, slash, 0x37] rfl hzero
  refine ⟨newHead, pool', found, hrun, hlist, (hfound _).mpr ⟨by simp, ?_⟩, fun hmem => ?_⟩
  · exact (accepts_of_zero_notMem htask hzero).mp (by decide)
  · exact absurd ((accepts_of_zero_notMem hstate hzero).mpr ((hfound _).mp hmem).2) (by decide)

end CpuScheduler.L6
