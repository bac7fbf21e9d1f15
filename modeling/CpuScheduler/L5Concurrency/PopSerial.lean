import CpuScheduler.L5Concurrency.PopAhead

/-!
# popLatestIPv4Packet is serializable

`Phase` relates the memory of an interrupted pop to the serial memory of
`PopAhead` at each program counter. The task's own accesses keep it
(`popStep_phase`) until the last exchange, at which memory becomes what the
uninterrupted pop makes of the serial memory; an interrupt handler run on
both keeps it too (`interrupt_phase`). `runMoves_outcome` is the induction
over a schedule and `pop_serializable` the result.
-/
namespace CpuScheduler.L5

open Links L2 L2.NetworkStackHandler

variable {n h l : Nat}

/-! ## The phases of a pop -/

/-- The popped chain has left the ready list of `σ`. -/
structure Detached (x : Fin n) (xs : List (Fin n)) (rs : List (List (Fin n)))
    (τ σ : NetworkStackHandler n h l) : Prop where
  ahead : Ahead (x :: xs) rs τ σ
  head : σ.readyToReadPacketsHead = (heads rs).head?

/-- The head of the ready list while the pop has emptied the list but not yet
written its head: an interrupt that appends a chain does that. -/
def emptiedHead (x : Fin n) (rs : List (List (Fin n))) : Ptr n :=
  if rs = [] then some x else (heads rs).head?

/-- Memory `σ` at each access of the pop, beside the serial memory `τ`, whose
ready list is `(x :: xs) :: rs`. -/
def Phase (x : Fin n) (xs : List (Fin n)) (rs : List (List (Fin n)))
    (τ σ : NetworkStackHandler n h l) : PopPc n → Prop
  | .testHead => σ = τ
  | .readHead => σ = τ
  | .exchangeTail p => p = x ∧ σ = τ
  | .readNext p => p = x ∧ (rs ≠ [] ∧ σ = τ ∨ Ahead (x :: xs) rs τ σ ∧ σ.next x = none ∧
      σ.readyToReadPacketsHead = emptiedHead x rs)
  | .writePrev p b => p = x ∧ σ = τ ∧ (heads rs).head? = some b
  | .exchangeHead p newHead => p = x ∧ Ahead (x :: xs) rs τ σ ∧
      (newHead = none ∧ σ.readyToReadPacketsHead = emptiedHead x rs ∨
        rs ≠ [] ∧ newHead = (heads rs).head? ∧ σ.readyToReadPacketsHead = some x)
  | .readFragment p cur => p = x ∧ Detached x xs rs τ σ ∧
      ∃ pre post, x :: xs = pre ++ cur :: post ∧ ∀ y ∈ pre, σ.next y = τ.nextFragment y
  | .writeNext p cur nextFragment => p = x ∧ Detached x xs rs τ σ ∧
      nextFragment = τ.nextFragment cur ∧
      ∃ pre post, x :: xs = pre ++ cur :: post ∧ ∀ y ∈ pre, σ.next y = τ.nextFragment y
  | .readUnused p last => p = x ∧ Detached x xs rs τ σ ∧
      ∃ pre, x :: xs = pre ++ [last] ∧ ∀ y ∈ pre, σ.next y = τ.nextFragment y
  | .writeLast p last _ => p = x ∧ Detached x xs rs τ σ ∧
      ∃ pre, x :: xs = pre ++ [last] ∧ ∀ y ∈ pre, σ.next y = τ.nextFragment y
  | .exchangeUnused p last oldHead => p = x ∧ Detached x xs rs τ σ ∧ σ.next last = oldHead ∧
      ∃ pre, x :: xs = pre ++ [last] ∧ ∀ y ∈ pre, σ.next y = τ.nextFragment y
  | .done => False

section Phase
variable {x : Fin n} {xs : List (Fin n)} {rs : List (List (Fin n))} {τ σ : NetworkStackHandler n h l}
  {a : Buffers (Fin n)}

/-- The serial handler, with `x :: xs` in front of its ready list. -/
structure Serial (x : Fin n) (xs : List (Fin n)) (rs : List (List (Fin n)))
    (τ : NetworkStackHandler n h l) : Prop where
  ready : ReadyList τ ((x :: xs) :: rs)
  nodup : ((x :: xs) ++ rs.flatten).Nodup

theorem serial_of_rep (hr : Rep τ a) (hready : a.ready = (x :: xs) :: rs) : Serial x xs rs τ := by
  have h1 := hr.ready
  have h2 := hr.wf.nodup_ready
  rw [hready] at h1 h2
  exact ⟨h1, h2⟩

theorem Serial.chain (hS : Serial x xs rs τ) : Seg τ.nextFragment (some x) (x :: xs) none :=
  ⟨rfl, (chains_cons.mp hS.ready.forward).2.1⟩

/-- A write to a link of the popped chain. -/
theorem Detached.write (hD : Detached x xs rs τ σ) {y : Fin n} (hy : y ∈ x :: xs) (v : Ptr n) :
    Detached x xs rs τ { σ with next := Function.update σ.next y v } := by
  refine ⟨⟨?_, fun z hz => ?_⟩, hD.head⟩
  · rw [hD.ahead.eq]
  · have hzy : z ≠ y := by rintro rfl; exact hz hy
    exact (Function.update_of_ne hzy _ _).trans (hD.ahead.next z hz)

/-- After the last exchange memory is that of the uninterrupted pop. -/
theorem popped_eq (hS : Serial x xs rs τ) (hD : Detached x xs rs τ σ) {last : Fin n}
    {pre : List (Fin n)} (hpre : x :: xs = pre ++ [last])
    (hlinks : ∀ y ∈ pre, σ.next y = τ.nextFragment y) (hlast : σ.next last = σ.unusedPacketsHead) :
    τ.popLatestIPv4Packet = some { σ with unusedPacketsHead := some x } := by
  obtain ⟨nx, h1, h2, h3⟩ := popLatestIPv4Packet_eq hS.ready hS.nodup
  have hun : σ.unusedPacketsHead = τ.unusedPacketsHead := by rw [hD.ahead.eq]
  have hseg : Seg σ.next (some x) (x :: xs) τ.unusedPacketsHead := by
    have hc := hS.chain
    rw [hpre] at hc ⊢
    obtain ⟨m, k1, k2, -⟩ := seg_append.mp hc
    exact seg_append.mpr ⟨m, k1.congr hlinks, k2, hlast.trans hun⟩
  have hnx : σ.next = nx := by
    funext y
    by_cases hy : y ∈ x :: xs
    · exact hseg.next_unique h3 y hy
    · rw [h2 y hy, hD.ahead.next y hy]
  rw [h1, Option.some.injEq, hD.ahead.eq, hD.head, hnx]

/-- The serial handler's ready list has one chain, or its tail is not `x`. -/
theorem Serial.tail_eq_iff (hS : Serial x xs rs τ) :
    τ.readyToReadPacketsTail = some x ↔ rs = [] := by
  have ht := hS.ready.tail_eq
  cases rs with
  | nil => exact iff_of_true ht rfl
  | cons c rs =>
    obtain ⟨-, -, b, bs, rfl, -⟩ := chains_cons.mp hS.ready.forward
    refine iff_of_false ?_ (by simp)
    rw [ht, heads_cons_cons, heads_cons_cons, List.getLast?_cons_cons]
    intro hl
    have hm : x ∈ ((b :: bs) :: rs).flatten := by
      refine mem_flatten_of_mem_heads ?_
      rw [heads_cons_cons]; exact List.mem_of_getLast? hl
    exact List.disjoint_of_nodup_append hS.nodup (by simp) hm

theorem Serial.next_eq (hS : Serial x xs rs τ) : τ.next x = (heads rs).head? :=
  (chains_cons.mp hS.ready.forward).2.2.heads.head_eq

theorem Serial.exists_head (hS : Serial x xs rs τ) (hne : rs ≠ []) :
    ∃ b, (heads rs).head? = some b ∧ b ≠ x := by
  cases rs with
  | nil => exact absurd rfl hne
  | cons c rs =>
    obtain ⟨-, -, b, bs, rfl, -⟩ := chains_cons.mp hS.ready.forward
    refine ⟨b, rfl, ?_⟩
    rintro rfl
    exact List.disjoint_of_nodup_append hS.nodup (List.mem_cons_self) (by simp)

/-- The exchange of the tail succeeds exactly if the chain is the only one. -/
theorem exchangeTail_phase (hS : Serial x xs rs τ) :
    Phase x xs rs τ (popStep τ (.exchangeTail x)).mem (popStep τ (.exchangeTail x)).pc := by
  simp only [popStep]
  by_cases hnil : rs = []
  · rw [if_pos (hS.tail_eq_iff.mpr hnil)]
    subst hnil
    exact ⟨rfl, .inr ⟨⟨rfl, fun _ _ => rfl⟩, hS.next_eq, (chains_cons.mp hS.ready.forward).1⟩⟩
  · rw [if_neg fun ht => hnil (hS.tail_eq_iff.mp ht)]
    exact ⟨rfl, .inl ⟨hnil, rfl⟩⟩

/-- The exchange of the head fails exactly if an interrupt has written the
head of the emptied list. -/
theorem exchangeHead_phase (hS : Serial x xs rs τ) {newHead : Ptr n}
    (hP : Phase x xs rs τ σ (.exchangeHead x newHead)) :
    Phase x xs rs τ (popStep σ (.exchangeHead x newHead)).mem
      (popStep σ (.exchangeHead x newHead)).pc := by
  obtain ⟨-, hA, hh⟩ := hP
  have hdet : ∀ v, v = (heads rs).head? → Phase x xs rs τ { σ with readyToReadPacketsHead := v }
      (.readFragment x x) := by
    intro v hv
    refine ⟨rfl, ⟨⟨?_, hA.next⟩, hv⟩, [], xs, rfl, by simp⟩
    rw [hA.eq]
  simp only [popStep]
  rcases hh with ⟨rfl, hh⟩ | ⟨hne, rfl, hh⟩
  · unfold emptiedHead at hh
    by_cases hnil : rs = []
    · rw [if_pos hnil] at hh
      rw [if_pos hh]
      exact hdet none (by rw [hnil]; rfl)
    · rw [if_neg hnil] at hh
      obtain ⟨b, hb, hbx⟩ := hS.exists_head hnil
      have hne : σ.readyToReadPacketsHead ≠ some x := by
        rw [hh, hb]
        intro he
        exact hbx (Option.some.inj he)
      rw [if_neg hne]
      exact hdet _ hh
  · rw [if_pos hh]
    exact hdet _ rfl

/-- One round of the relink loop. -/
theorem writeNext_phase (hS : Serial x xs rs τ) {cur : Fin n} {nextFragment : Ptr n}
    (hP : Phase x xs rs τ σ (.writeNext x cur nextFragment)) :
    Phase x xs rs τ (popStep σ (.writeNext x cur nextFragment)).mem
      (popStep σ (.writeNext x cur nextFragment)).pc := by
  obtain ⟨-, hD, rfl, pre, post, hpre, hlinks⟩ := hP
  have hc := hS.chain
  rw [hpre] at hc
  obtain ⟨m, -, -, hpost⟩ := seg_append.mp hc
  have hD' := hD.write (y := cur) (by rw [hpre]; simp) (τ.nextFragment cur)
  have hlinks' : ∀ y ∈ pre ++ [cur],
      Function.update σ.next cur (τ.nextFragment cur) y = τ.nextFragment y := by
    intro y hy
    by_cases he : y = cur
    · rw [he, Function.update_self]
    · rw [Function.update_of_ne he]
      exact hlinks y (by simpa [he] using hy)
  simp only [popStep]
  cases hf : τ.nextFragment cur with
  | none =>
    rw [hf] at hpost hD' hlinks'
    obtain ⟨rfl, -⟩ := hpost.head_none
    exact ⟨rfl, hD', pre, hpre, fun y hy => hlinks' y (by simp [hy])⟩
  | some c =>
    rw [hf] at hpost hD' hlinks'
    cases post with
    | nil => cases hpost
    | cons c' post =>
      obtain ⟨he, -⟩ := hpost
      cases he
      exact ⟨rfl, hD', pre ++ [cur], post, by rw [hpre]; simp, hlinks'⟩

/-- One access of the task: the pop goes on in the next phase, or it was the
last exchange. -/
theorem popStep_phase (hS : Serial x xs rs τ) {pc : PopPc n} (hP : Phase x xs rs τ σ pc) :
    Phase x xs rs τ (popStep σ pc).mem (popStep σ pc).pc ∨
      ((popStep σ pc).pc = .done ∧ (popStep σ pc).exchanged = true ∧
        τ.popLatestIPv4Packet = some (popStep σ pc).mem) := by
  have hhd : τ.readyToReadPacketsHead = some x := (chains_cons.mp hS.ready.forward).1
  cases pc with
  | testHead =>
    obtain rfl : σ = τ := hP
    left
    simp only [popStep, hhd]
    rfl
  | readHead =>
    obtain rfl : σ = τ := hP
    left
    simp only [popStep, hhd]
    exact ⟨rfl, rfl⟩
  | exchangeTail p =>
    obtain ⟨rfl, rfl⟩ := hP
    exact .inl (exchangeTail_phase hS)
  | readNext p =>
    obtain ⟨rfl, hP⟩ := hP
    left
    simp only [popStep]
    rcases hP with ⟨hne, rfl⟩ | ⟨hA, hn, hh⟩
    · obtain ⟨b, hb, -⟩ := hS.exists_head hne
      rw [hS.next_eq, hb]
      exact ⟨rfl, rfl, hb⟩
    · rw [hn]
      exact ⟨rfl, hA, .inl ⟨rfl, hh⟩⟩
  | writePrev p b =>
    obtain ⟨rfl, rfl, hb⟩ := hP
    left
    have hne : rs ≠ [] := by rintro rfl; cases hb
    refine ⟨rfl, ⟨?_, fun _ _ => rfl⟩, .inr ⟨hne, hb.symm, hhd⟩⟩
    simp only [popStep, clearPrev, hb, if_neg hne]
  | exchangeHead p newHead =>
    obtain rfl : p = x := hP.1
    exact .inl (exchangeHead_phase hS hP)
  | readFragment p cur =>
    obtain ⟨rfl, hD, hpre⟩ := hP
    left
    exact ⟨rfl, hD, by simp only [hD.ahead.nextFragment], hpre⟩
  | writeNext p cur nextFragment =>
    obtain rfl : p = x := hP.1
    exact .inl (writeNext_phase hS hP)
  | readUnused p last =>
    left
    exact hP
  | writeLast p last oldHead =>
    obtain ⟨rfl, hD, pre, hpre, hlinks⟩ := hP
    left
    have hnd : (pre ++ [last]).Nodup := by rw [← hpre]; exact (List.nodup_append.mp hS.nodup).1
    refine ⟨rfl, hD.write (by rw [hpre]; simp) oldHead, Function.update_self _ _ _, pre, hpre,
      fun y hy => ?_⟩
    have hne : y ≠ last := by
      rintro rfl
      exact List.disjoint_of_nodup_append hnd hy (by simp)
    simp only [popStep, Function.update_of_ne hne]
    exact hlinks y hy
  | exchangeUnused p last oldHead =>
    obtain ⟨rfl, hD, hl, pre, hpre, hlinks⟩ := hP
    simp only [popStep]
    by_cases hun : σ.unusedPacketsHead = oldHead
    · right
      rw [if_pos hun]
      exact ⟨rfl, rfl, popped_eq hS hD hpre hlinks (hl.trans hun.symm)⟩
    · left
      rw [if_neg hun]
      exact ⟨rfl, hD, pre, hpre, hlinks⟩
  | done => exact absurd hP id

/-- The links of the popped chain stay as they are while interrupts run. -/
theorem Serial.frag_eq {rs' : List (List (Fin n))} {τ' : NetworkStackHandler n h l}
    (hS : Serial x xs rs τ) (hS' : Serial x xs rs' τ') :
    ∀ y ∈ x :: xs, τ'.nextFragment y = τ.nextFragment y :=
  hS'.chain.next_unique hS.chain

/-- An interrupt on the serial handler. -/
theorem serial_call [NeZero h] (i : Interrupt) (hr : Rep τ a) (hready : a.ready = (x :: xs) :: rs) :
    ∃ τ' dn, τ.call i.call = some τ' ∧ (a.after τ i.call).ready = (x :: xs) :: (rs ++ dn) := by
  let σ : NetworkStackHandler n h l := { τ with
    prev := clearPrev τ.prev rs
    readyToReadPacketsTail := if rs = [] then none else τ.readyToReadPacketsTail }
  have hA : Ahead (x :: xs) rs τ σ := ⟨rfl, fun _ _ => rfl⟩
  obtain ⟨τ', σ', rs', h1, -, h3, h4⟩ := call_ahead i hA hr hready
  obtain ⟨dn, rfl⟩ := h4.grown
  exact ⟨τ', dn, h1, h3⟩

theorem head?_heads_append {b : Fin n} (hb : (heads rs).head? = some b) (dn : List (List (Fin n))) :
    (heads (rs ++ dn)).head? = some b := by
  rw [heads_append, List.head?_append, hb]; rfl

theorem Followed.emptied {rs' : List (List (Fin n))} {τ' σ' : NetworkStackHandler n h l}
    (hF : Followed x xs rs rs' σ τ' σ') (hne : ∀ c ∈ rs, c ≠ [])
    (hh : σ.readyToReadPacketsHead = emptiedHead x rs) :
    σ'.readyToReadPacketsHead = emptiedHead x rs' := by
  rw [hF.head, hh]
  obtain ⟨dn, rfl⟩ := hF.grown
  unfold emptiedHead
  cases rs with
  | nil => by_cases hd : dn = [] <;> simp [hd]
  | cons c rs =>
    obtain ⟨b, bs, rfl⟩ := List.exists_cons_of_ne_nil (hne c (by simp))
    simp

theorem Followed.detached {rs' : List (List (Fin n))} {τ' σ' : NetworkStackHandler n h l}
    (hF : Followed x xs rs rs' σ τ' σ') (hne : ∀ c ∈ rs, c ≠ []) (hD : Detached x xs rs τ σ) :
    Detached x xs rs' τ' σ' := by
  refine ⟨hF.ahead, ?_⟩
  rw [hF.head, hD.head]
  obtain ⟨dn, rfl⟩ := hF.grown
  cases rs with
  | nil => by_cases hd : dn = [] <;> simp [hd]
  | cons c rs =>
    obtain ⟨b, bs, rfl⟩ := List.exists_cons_of_ne_nil (hne c (by simp))
    simp

/-- An interrupt handler between two accesses. -/
theorem interrupt_phase [NeZero h] (i : Interrupt) (hr : Rep τ a)
    (hready : a.ready = (x :: xs) :: rs) {pc : PopPc n} (hP : Phase x xs rs τ σ pc) :
    ∃ τ' σ' rs', τ.call i.call = some τ' ∧ σ.call i.call = some σ' ∧
      (a.after τ i.call).ready = (x :: xs) :: rs' ∧ Phase x xs rs' τ' σ' pc := by
  have hS := serial_of_rep hr hready
  have hne : ∀ c ∈ rs, c ≠ [] := fun c hc => hS.ready.forward.ne_nil c (by simp [hc])
  obtain ⟨τ₀, dn, t1, t2⟩ := serial_call i hr hready
  -- what the phases after the exchange of the head have in common
  have hdet : Detached x xs rs τ σ → ∃ τ' σ' rs', τ.call i.call = some τ' ∧
      σ.call i.call = some σ' ∧ (a.after τ i.call).ready = (x :: xs) :: rs' ∧
      Detached x xs rs' τ' σ' ∧ (∀ y ∈ x :: xs, σ'.next y = σ.next y ∧
        τ'.nextFragment y = τ.nextFragment y) ∧
      ∀ pre post, x :: xs = pre ++ post → (∀ y ∈ pre, σ.next y = τ.nextFragment y) →
        ∀ y ∈ pre, σ'.next y = τ'.nextFragment y := by
    intro hD
    obtain ⟨τ', σ', rs', h1, h2, h3, hF⟩ := call_ahead i hD.ahead hr hready
    obtain ⟨τ'', k1, k2⟩ := call_refines hr i.call
    rw [h1, Option.some.injEq] at k1
    subst k1
    have hsame : ∀ y ∈ x :: xs, σ'.next y = σ.next y ∧ τ'.nextFragment y = τ.nextFragment y :=
      fun y hy => ⟨hF.next y hy, hS.frag_eq (serial_of_rep k2 h3) y hy⟩
    refine ⟨τ', σ', rs', h1, h2, h3, hF.detached hne hD, hsame, ?_⟩
    intro pre post hpre hlinks y hy
    obtain ⟨e1, e2⟩ := hsame y (by rw [hpre]; exact List.mem_append_left _ hy)
    rw [e1, e2, hlinks y hy]
  cases pc with
  | testHead =>
    obtain rfl : σ = τ := hP
    exact ⟨τ₀, τ₀, _, t1, t1, t2, rfl⟩
  | readHead =>
    obtain rfl : σ = τ := hP
    exact ⟨τ₀, τ₀, _, t1, t1, t2, rfl⟩
  | exchangeTail p =>
    obtain ⟨rfl, rfl⟩ := hP
    exact ⟨τ₀, τ₀, _, t1, t1, t2, rfl, rfl⟩
  | readNext p =>
    obtain ⟨rfl, hP⟩ := hP
    rcases hP with ⟨hnil, rfl⟩ | ⟨hA, hn, hh⟩
    · exact ⟨τ₀, τ₀, _, t1, t1, t2, rfl, .inl ⟨by simp [hnil], rfl⟩⟩
    · obtain ⟨τ', σ', rs', h1, h2, h3, hF⟩ := call_ahead i hA hr hready
      refine ⟨τ', σ', rs', h1, h2, h3, rfl, .inr ⟨hF.ahead, ?_, hF.emptied hne hh⟩⟩
      rw [hF.next p (by simp), hn]
  | writePrev p b =>
    obtain ⟨rfl, rfl, hb⟩ := hP
    exact ⟨τ₀, τ₀, _, t1, t1, t2, rfl, rfl, head?_heads_append hb dn⟩
  | exchangeHead p newHead =>
    obtain ⟨rfl, hA, hh⟩ := hP
    obtain ⟨τ', σ', rs', h1, h2, h3, hF⟩ := call_ahead i hA hr hready
    refine ⟨τ', σ', rs', h1, h2, h3, rfl, hF.ahead, ?_⟩
    rcases hh with ⟨rfl, hh⟩ | ⟨hnil, rfl, hh⟩
    · exact .inl ⟨rfl, hF.emptied hne hh⟩
    · obtain ⟨dn', rfl⟩ := hF.grown
      refine .inr ⟨by simp [hnil], ?_, ?_⟩
      · cases rs with
        | nil => exact absurd rfl hnil
        | cons c rs =>
          obtain ⟨b, bs, rfl⟩ := List.exists_cons_of_ne_nil (hne c (by simp))
          rfl
      · rw [hF.head, if_neg (by tauto), hh]
  | readFragment p cur =>
    obtain ⟨rfl, hD, pre, post, hpre, hlinks⟩ := hP
    obtain ⟨τ', σ', rs', h1, h2, h3, hD', -, h5⟩ := hdet hD
    exact ⟨τ', σ', rs', h1, h2, h3, rfl, hD', pre, post, hpre, h5 pre _ hpre hlinks⟩
  | writeNext p cur nextFragment =>
    obtain ⟨rfl, hD, rfl, pre, post, hpre, hlinks⟩ := hP
    obtain ⟨τ', σ', rs', h1, h2, h3, hD', h4, h5⟩ := hdet hD
    exact ⟨τ', σ', rs', h1, h2, h3, rfl, hD', ((h4 cur (by rw [hpre]; simp)).2).symm, pre, post, hpre,
      h5 pre _ hpre hlinks⟩
  | readUnused p last =>
    obtain ⟨rfl, hD, pre, hpre, hlinks⟩ := hP
    obtain ⟨τ', σ', rs', h1, h2, h3, hD', -, h5⟩ := hdet hD
    exact ⟨τ', σ', rs', h1, h2, h3, rfl, hD', pre, hpre, h5 pre _ hpre hlinks⟩
  | writeLast p last oldHead =>
    obtain ⟨rfl, hD, pre, hpre, hlinks⟩ := hP
    obtain ⟨τ', σ', rs', h1, h2, h3, hD', -, h5⟩ := hdet hD
    exact ⟨τ', σ', rs', h1, h2, h3, rfl, hD', pre, hpre, h5 pre _ hpre hlinks⟩
  | exchangeUnused p last oldHead =>
    obtain ⟨rfl, hD, hl, pre, hpre, hlinks⟩ := hP
    obtain ⟨τ', σ', rs', h1, h2, h3, hD', h4, h5⟩ := hdet hD
    refine ⟨τ', σ', rs', h1, h2, h3, rfl, hD', ?_, pre, hpre, h5 pre _ hpre hlinks⟩
    rw [(h4 last (by rw [hpre]; simp)).1, hl]
  | done => exact absurd hP id

end Phase

/-! ## Whole schedules -/

section Run
variable [NeZero h]

/-- When the pop is over only interrupts do something. -/
theorem runMoves_done (ms : List Move) (s : NetworkStackHandler n h l) :
    runMoves ms .done s = (handle s (interrupts ms)).map (.done, ·) ∧
      splitLast ms .done s = none := by
  induction ms generalizing s with
  | nil => exact ⟨rfl, rfl⟩
  | cons m ms ih =>
    cases m with
    | task =>
      obtain ⟨h1, h2⟩ := ih s
      refine ⟨h1, ?_⟩
      simp only [splitLast, move, popStep, Option.bind_some, h2]
      rfl
    | interrupt i =>
      simp only [runMoves, splitLast, move, interrupts, List.flatMap_cons, Move.interrupts, handle,
        List.map_cons, List.singleton_append, calls]
      cases hc : s.call i.call with
      | none => exact ⟨rfl, rfl⟩
      | some s' =>
        obtain ⟨h1, h2⟩ := ih s'
        refine ⟨h1, ?_⟩
        simp only [Option.map_some, Option.bind_some, h2]
        rfl

/-- The pop `pc`, `σ` after a schedule `ms` that began beside the serial memory
`τ`: it is still in some phase, or it is over and the schedule is equivalent
to a serial one. -/
inductive Outcome (x : Fin n) (xs : List (Fin n)) (τ : NetworkStackHandler n h l) (ms : List Move)
    (split : Option (List Interrupt × List Interrupt)) :
    PopPc n → NetworkStackHandler n h l → Prop where
  | running {pc σ' τ' a' rs'} : handle τ (interrupts ms) = some τ' → Rep τ' a' →
      a'.ready = (x :: xs) :: rs' → Phase x xs rs' τ' σ' pc → Outcome x xs τ ms split pc σ'
  | finished {before after τ₁ τ₂ σ'} : split = some (before, after) →
      interrupts ms = before ++ after → handle τ before = some τ₁ →
      τ₁.popLatestIPv4Packet = some τ₂ → handle τ₂ after = some σ' →
      Outcome x xs τ ms split .done σ'

/-- Interrupt handlers come to an end on a handler that represents lists. -/
theorem handle_refines (is : List Interrupt) {s : NetworkStackHandler n h l} {a : Buffers (Fin n)}
    (hr : Rep s a) : ∃ t b, handle s is = some t ∧ Rep t b := by
  induction is generalizing s a with
  | nil => exact ⟨s, a, rfl, hr⟩
  | cons i is ih =>
    obtain ⟨s', h1, h2⟩ := call_refines hr i.call
    obtain ⟨t, b, h3, h4⟩ := ih h2
    refine ⟨t, b, ?_, h4⟩
    simp only [handle, List.map_cons, calls, h1, Option.bind_some]
    exact h3

theorem runMoves_outcome (ms : List Move) : ∀ {x : Fin n} {xs : List (Fin n)}
    {rs : List (List (Fin n))} {τ σ : NetworkStackHandler n h l} {a : Buffers (Fin n)} {pc : PopPc n},
    Rep τ a → a.ready = (x :: xs) :: rs → Phase x xs rs τ σ pc →
    ∃ pc' σ', runMoves ms pc σ = some (pc', σ') ∧ Outcome x xs τ ms (splitLast ms pc σ) pc' σ' := by
  induction ms with
  | nil =>
    intro x xs rs τ σ a pc hr hready hP
    exact ⟨pc, σ, rfl, .running rfl hr hready hP⟩
  | cons m ms ih =>
    intro x xs rs τ σ a pc hr hready hP
    cases m with
    | task =>
      rcases popStep_phase (serial_of_rep hr hready) hP with hP' | ⟨hd, hex, hpop⟩
      · obtain ⟨pc', σ', h1, h2⟩ := ih hr hready hP'
        refine ⟨pc', σ', h1, ?_⟩
        cases h2 with
        | running k1 k2 k3 k4 => exact .running k1 k2 k3 k4
        | finished k1 k2 k3 k4 k5 =>
          refine .finished ?_ k2 k3 k4 k5
          simp only [splitLast, move, Option.bind_some, k1]
          rfl
      · -- the last exchange: the remaining moves are interrupts
        obtain ⟨s1, h1, h2⟩ := popLatestIPv4Packet_spec hr
        rw [hpop, Option.some.injEq] at h1
        obtain ⟨t, b, h3, -⟩ := handle_refines (interrupts ms) h2
        obtain ⟨h4, h5⟩ := runMoves_done ms (popStep σ pc).mem
        rw [← h1] at h3
        refine ⟨.done, t, ?_, .finished ?_ rfl rfl hpop h3⟩
        · rw [runMoves, move, Option.bind_some, hd, h4, h3]
          rfl
        · simp only [splitLast, move, Option.bind_some, hd, h5, hex]
          rfl
    | interrupt i =>
      obtain ⟨τ', σ', rs', h1, h2, h3, h4⟩ := interrupt_phase i hr hready hP
      obtain ⟨τ'', k1, k2⟩ := call_refines hr i.call
      rw [h1, Option.some.injEq] at k1
      subst k1
      obtain ⟨pc', σ'', m1, m2⟩ := ih k2 h3 h4
      have hcons : ∀ is, handle τ (i :: is) = handle τ' is := by
        intro is
        simp only [handle, List.map_cons, calls, h1, Option.bind_some]
      refine ⟨pc', σ'', ?_, ?_⟩
      · simp only [runMoves, move, h2, Option.map_some, Option.bind_some]
        exact m1
      · cases m2 with
        | running j1 j2 j3 j4 => exact .running ((hcons _).trans j1) j2 j3 j4
        | finished j1 j2 j3 j4 j5 =>
          rename_i before after τ₁ τ₂
          have hsplit : splitLast (.interrupt i :: ms) pc σ = some (i :: before, after) := by
            simp only [splitLast, move, h2, Option.map_some, Option.bind_some, j1]
            rfl
          exact .finished hsplit (congrArg (i :: ·) j2) ((hcons _).trans j3) j4 j5

/-! ## The pop comes to an end -/

/-- Left alone, the pop comes to its end. -/
def Finishes (pc : PopPc n) (σ : NetworkStackHandler n h l) : Prop :=
  ∃ k t, runMoves (List.replicate k .task) pc σ = some (.done, t)

theorem finishes_done (σ : NetworkStackHandler n h l) : Finishes .done σ := ⟨0, σ, rfl⟩

theorem finishes_step {pc : PopPc n} {σ : NetworkStackHandler n h l}
    (hf : Finishes (popStep σ pc).pc (popStep σ pc).mem) : Finishes pc σ := by
  obtain ⟨k, t, hk⟩ := hf
  exact ⟨k + 1, t, hk⟩

theorem finishes_readUnused (σ : NetworkStackHandler n h l) (p last : Fin n) :
    Finishes (.readUnused p last) σ := by
  apply finishes_step
  apply finishes_step
  apply finishes_step
  simp only [popStep, if_true]
  exact finishes_done _

theorem finishes_exchangeUnused (σ : NetworkStackHandler n h l) (p last : Fin n) (oldHead : Ptr n) :
    Finishes (.exchangeUnused p last oldHead) σ := by
  apply finishes_step
  simp only [popStep]
  split
  · exact finishes_done _
  · exact finishes_readUnused _ p last

/-- The relink loop follows the chain to its end. -/
theorem finishes_readFragment (p : Fin n) (post : List (Fin n)) :
    ∀ (σ : NetworkStackHandler n h l) (cur : Fin n),
      Seg σ.nextFragment (σ.nextFragment cur) post none → Finishes (.readFragment p cur) σ := by
  induction post with
  | nil =>
    intro σ cur hseg
    apply finishes_step
    apply finishes_step
    have hf : σ.nextFragment cur = none := hseg
    simp only [popStep, hf]
    exact finishes_readUnused _ p cur
  | cons c post ih =>
    intro σ cur hseg
    obtain ⟨hf, hseg⟩ := hseg
    apply finishes_step
    apply finishes_step
    simp only [popStep, hf]
    exact ih _ c hseg

theorem finishes_writeNext (σ : NetworkStackHandler n h l) (p cur : Fin n) {post : List (Fin n)}
    (hseg : Seg σ.nextFragment (σ.nextFragment cur) post none) :
    Finishes (.writeNext p cur (σ.nextFragment cur)) σ := by
  apply finishes_step
  simp only [popStep]
  cases hf : σ.nextFragment cur with
  | none => exact finishes_readUnused _ p cur
  | some c =>
    cases post with
    | nil => rw [hf] at hseg; cases hseg
    | cons c' post =>
      obtain ⟨he, hseg⟩ := hseg
      rw [hf, Option.some.injEq] at he
      subst he
      exact finishes_readFragment p post _ c hseg

theorem phase_finishes {x : Fin n} {xs : List (Fin n)} {rs : List (List (Fin n))}
    {τ σ : NetworkStackHandler n h l} (hS : Serial x xs rs τ) {pc : PopPc n}
    (hP : Phase x xs rs τ σ pc) : Finishes pc σ := by
  have hchain : Seg τ.nextFragment (τ.nextFragment x) xs none := hS.chain.2
  have hcut : ∀ pre cur post, x :: xs = pre ++ cur :: post →
      Seg τ.nextFragment (τ.nextFragment cur) post none := by
    intro pre cur post hpre
    have hc := hS.chain
    rw [hpre] at hc
    obtain ⟨m, -, -, hpost⟩ := seg_append.mp hc
    exact hpost
  have hhead : ∀ (s : NetworkStackHandler n h l) v, s.nextFragment = τ.nextFragment →
      Finishes (.exchangeHead x v) s := by
    intro s v hs
    apply finishes_step
    have hseg : Seg s.nextFragment (s.nextFragment x) xs none := by rw [hs]; exact hchain
    simp only [popStep]
    split
    · exact finishes_readFragment x xs _ x hseg
    · exact finishes_readFragment x xs _ x hseg
  have hnext : ∀ s : NetworkStackHandler n h l, s.nextFragment = τ.nextFragment →
      Finishes (.readNext x) s := by
    intro s hs
    apply finishes_step
    simp only [popStep]
    split
    · exact hhead _ _ hs
    · apply finishes_step
      exact hhead _ _ hs
  have htail : Finishes (.exchangeTail x) τ := by
    apply finishes_step
    simp only [popStep]
    split
    · exact hnext _ rfl
    · exact hnext _ rfl
  have hread : Finishes .readHead τ := by
    apply finishes_step
    simp only [popStep, (chains_cons.mp hS.ready.forward).1]
    exact htail
  cases pc with
  | testHead =>
    obtain rfl : σ = τ := hP
    apply finishes_step
    simp only [popStep, (chains_cons.mp hS.ready.forward).1]
    exact hread
  | readHead =>
    obtain rfl : σ = τ := hP
    exact hread
  | exchangeTail p =>
    obtain ⟨rfl, rfl⟩ := hP
    exact htail
  | readNext p =>
    obtain ⟨rfl, ⟨-, rfl⟩ | ⟨hA, -⟩⟩ := hP
    · exact hnext _ rfl
    · exact hnext _ hA.nextFragment
  | writePrev p b =>
    obtain ⟨rfl, rfl, -⟩ := hP
    apply finishes_step
    exact hhead _ _ rfl
  | exchangeHead p newHead =>
    obtain ⟨rfl, hA, -⟩ := hP
    exact hhead _ _ hA.nextFragment
  | readFragment p cur =>
    obtain ⟨-, hD, pre, post, hpre, -⟩ := hP
    apply finishes_readFragment p post
    rw [hD.ahead.nextFragment]
    exact hcut pre cur post hpre
  | writeNext p cur nextFragment =>
    obtain ⟨-, hD, rfl, pre, post, hpre, -⟩ := hP
    rw [← hD.ahead.nextFragment]
    have hseg := hcut pre cur post hpre
    rw [← hD.ahead.nextFragment] at hseg
    exact finishes_writeNext σ p cur hseg
  | readUnused p last => exact finishes_readUnused σ p last
  | writeLast p last oldHead =>
    apply finishes_step
    exact finishes_exchangeUnused _ p last oldHead
  | exchangeUnused p last oldHead => exact finishes_exchangeUnused σ p last oldHead
  | done => exact absurd hP id

end Run

theorem reachable_handle [NeZero n] [NeZero h] {s t : NetworkStackHandler n h l} {is : List Interrupt}
    (hs : (handlerLTS n h l).Reachable s) (hi : handle s is = some t) :
    (handlerLTS n h l).Reachable t := hs.run (run_of_calls hi)

/-- A pop with interrupt handlers between its memory accesses. For every
schedule: nothing gets stuck, the pop ends once it is left alone, and when it
has ended the state is the one after the interrupts before the last successful
exchange, then an uninterrupted pop, then the other interrupts. -/
theorem pop_serializable [NeZero n] [NeZero h] (s : NetworkStackHandler n h l)
    (hs : (handlerLTS n h l).Reachable s) (hne : s.readyToReadPacketsHead ≠ none) (ms : List Move) :
    ∃ pc t, runMoves ms .testHead s = some (pc, t) ∧ Finishes pc t ∧
      (pc = .done → ∃ before after s₁ s₂, splitLast ms .testHead s = some (before, after) ∧
        interrupts ms = before ++ after ∧ handle s before = some s₁ ∧
        s₁.popLatestIPv4Packet = some s₂ ∧ handle s₂ after = some t ∧
        (handlerLTS n h l).Reachable t) := by
  obtain ⟨a, hr⟩ := rep_of_reachable hs
  obtain ⟨x, xs, rs, hready⟩ : ∃ x xs rs, a.ready = (x :: xs) :: rs := by
    have hR := hr.ready.forward
    rcases ha : a.ready with _ | ⟨c, rs⟩
    · rw [ha] at hR
      exact absurd hR hne
    · rw [ha] at hR
      obtain ⟨x, xs, rfl, -⟩ := hR
      exact ⟨x, xs, rs, rfl⟩
  have hP : Phase x xs rs s s .testHead := rfl
  obtain ⟨pc, t, h1, h2⟩ := runMoves_outcome ms hr hready hP
  refine ⟨pc, t, h1, ?_, ?_⟩
  · cases h2 with
    | running k1 k2 k3 k4 => exact phase_finishes (serial_of_rep k2 k3) k4
    | finished => exact finishes_done t
  · intro hd
    cases h2 with
    | running k1 k2 k3 k4 => subst hd; exact absurd k4 id
    | finished k1 k2 k3 k4 k5 =>
      refine ⟨_, _, _, _, k1, k2, k3, k4, k5, ?_⟩
      exact reachable_handle ((reachable_handle hs k3).step (l := .pop) k4) k5

theorem neZero_one : NeZero 1 := ⟨Nat.one_ne_zero⟩

/-- `twoBuffers` with one packet in the ready list. -/
def onePacket : NetworkStackHandler 2 1 1 :=
  letI := neZero_one
  (twoBuffers.call (.incoming (smallFrame 0 0))).getD twoBuffers

theorem reachable_onePacket : (handlerLTS 2 1 1).Reachable onePacket := by
  have hcalls : twoBuffers.calls [.incoming (smallFrame 0 0)] = some onePacket := rfl
  exact reachable_of_calls init_twoBuffers hcalls

/-- A packet arrives right after the tail has been exchanged: it goes to the
emptied list. -/
def emptiedSchedule : List Move :=
  [.task, .task, .task, .interrupt (.packet (smallFrame 0 0)), .task, .task, .interrupt .timer,
    .task, .task, .task, .task, .task]

theorem pop_serializable_onePacket : ∃ t s₁ s₂,
    runMoves emptiedSchedule .testHead onePacket = some (.done, t) ∧
    handle onePacket [.packet (smallFrame 0 0), .timer] = some s₁ ∧
    s₁.popLatestIPv4Packet = some s₂ ∧ s₂ = t := by
  obtain ⟨pc, t, h1, -, h3⟩ := pop_serializable onePacket reachable_onePacket (by decide)
    emptiedSchedule
  have hpc : (runMoves emptiedSchedule .testHead onePacket).map (·.1) = some .done := by
    decide +kernel
  rw [h1] at hpc
  obtain rfl : pc = .done := by simpa using hpc
  obtain ⟨before, after, s₁, s₂, k1, k2, k3, k4, k5, -⟩ := h3 rfl
  have hlen : (splitLast emptiedSchedule .testHead onePacket).map (·.1.length) = some 2 := by
    decide +kernel
  rw [k1] at hlen
  have hlen' : before.length = 2 := by simpa using hlen
  have hint : [Interrupt.packet (smallFrame 0 0), .timer] ++ [] = before ++ after := k2
  obtain ⟨rfl, rfl⟩ := List.append_inj hint hlen'.symm
  exact ⟨t, s₁, s₂, h1, k3, k4, Option.some.inj k5⟩

end CpuScheduler.L5
