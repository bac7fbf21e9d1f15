import CpuScheduler.L2Network.Arrivals
import CpuScheduler.L2Network.Delivery

/-!
# Reassembly is order independent

The frames of a family of datagrams, in any order and interleaved, with
timer ticks and sends in between, are handed to a reachable handler
(`Event`). `run_arrived` carries the invariant `Arrived` of `Arrivals` along
the run; `reassembly_order_independent` is the result for a run in which
every frame arrives.

A chain is dropped when more than `FRAGMENT_TIMEOUT` ticks have passed since
its first fragment came. `Young t k c`: at time `t`, the time `c` is at most
`k` ticks ago. The timer counts modulo 2^31.
-/
namespace CpuScheduler.L2

open Links Word NetworkStackHandler

variable {n h l : Nat} {D : Type}

/-! ## Time -/

/-- At time `t`, the time `c` is at most `k` ticks ago. -/
def Young (t : Int) (k c : Nat) : Prop :=
  ∃ i, i ≤ k ∧ c < 2 ^ 31 ∧ t = ((c + i : Nat) : Int) % 2 ^ 31

/-- The range of the timer in a reachable state. -/
def TimerOk (t : Int) : Prop := 0 ≤ t ∧ t < 2 ^ 31

theorem incrementTimerCounter_eq {s : NetworkStackHandler n h l} (ht : TimerOk s.timerCounter) :
    s.incrementTimerCounter.timerCounter = (s.timerCounter + 1) % 2 ^ 31 := by
  obtain ⟨h0, h1⟩ := ht
  simp only [incrementTimerCounter]
  by_cases hmax : s.timerCounter + 1 < 2 ^ 31
  · rw [asInt_of_lt (by omega) hmax, if_neg (by omega)]; omega
  · have he : s.timerCounter + 1 = 2 ^ 31 := by omega
    rw [he, asInt_two_pow_31]
    rfl

theorem timerOk_tick {s : NetworkStackHandler n h l} (ht : TimerOk s.timerCounter) :
    TimerOk s.incrementTimerCounter.timerCounter := by
  rw [incrementTimerCounter_eq ht]
  unfold TimerOk
  omega

theorem timerOk_call {s : NetworkStackHandler n h l} (ht : TimerOk s.timerCounter) (c : Call) :
    TimerOk (c.time s) := by
  cases c with
  | tick => exact timerOk_tick ht
  | incoming f => exact ht
  | pop => exact ht
  | outgoing o => exact ht

theorem timer_of_reachable [NeZero n] [NeZero h] {s : NetworkStackHandler n h l}
    (hs : (handlerLTS n h l).Reachable s) : TimerOk s.timerCounter := by
  have hinv : ∀ s, (handlerLTS n h l).Reachable s → (∃ a, Rep s a) ∧ TimerOk s.timerCounter := by
    refine LTS.Inductive.reachable ⟨?_, ?_⟩
    · rintro s ⟨mem, myMac, myIP, gatewayIP, networkMask, rfl⟩
      exact ⟨⟨_, rep_init mem myMac myIP gatewayIP networkMask⟩, by simp [TimerOk, init]⟩
    · rintro s c t ⟨⟨a, hr⟩, ht⟩ hst
      have hst' : s.call c = some t := hst
      obtain ⟨t', h1, h2⟩ := call_refines hr c
      rw [hst', Option.some.injEq] at h1
      subst h1
      exact ⟨⟨_, h2⟩, by rw [(call_config hr hst').2]; exact timerOk_call ht c⟩
  exact (hinv s hs).2

theorem young_now {t : Int} (ht : TimerOk t) (k : Nat) : Young t k (asUInt t) := by
  obtain ⟨h0, h1⟩ := ht
  refine ⟨0, Nat.zero_le k, ?_, ?_⟩ <;> rw [asUInt_of_lt h0 (by omega)] <;> omega

theorem young_tick {s : NetworkStackHandler n h l} (ht : TimerOk s.timerCounter) {k c : Nat}
    (hy : Young s.timerCounter k c) : Young s.incrementTimerCounter.timerCounter (k + 1) c := by
  obtain ⟨i, hi, h1, h2⟩ := hy
  refine ⟨i + 1, by omega, h1, ?_⟩
  rw [incrementTimerCounter_eq ht, h2]
  omega

/-- A chain that began at most `FRAGMENT_TIMEOUT` ticks ago is not dropped. -/
theorem timedOut_of_young {s : NetworkStackHandler n h l} {k : Nat} {p : IPv4Packet}
    (hk : k ≤ FRAGMENT_TIMEOUT) (hy : Young s.timerCounter k p.createdTime) :
    s.timedOut p = false := by
  obtain ⟨i, hi, h1, h2⟩ := hy
  have hk' : k ≤ 10 := hk
  rw [timedOut, decide_eq_false_iff_not]
  have hc : asInt (p.createdTime : Int) = p.createdTime := asInt_of_lt (by omega) (by omega)
  have hpass : s.passedTimeSince (asInt p.createdTime) = i := by
    rw [hc, passedTimeSince]
    split
    · rw [asUInt_of_lt (by omega) (by omega)]; omega
    · rw [INT_MAX, asUInt_of_lt (by omega) (by omega)]; omega
  rw [hpass, FRAGMENT_TIMEOUT]
  omega

/-! ## Runs -/

/-- What happens to the handler: packet `j` of datagram `d` arrives, the timer
ticks, or something is sent. -/
inductive Event (D : Type) where
  | frame (d : D) (j : Nat)
  | tick
  | send (a : OutgoingArgs)

/-- `frames d j` is the frame of packet `j` of datagram `d`. -/
def Event.call (frames : D → Nat → RxFrame) : Event D → Call
  | .frame d j => .incoming (frames d j)
  | .tick => .tick
  | .send a => .outgoing a

/-- The packets that arrive, in order. -/
def arrivals : List (Event D) → List (D × Nat)
  | [] => []
  | .frame d j :: es => (d, j) :: arrivals es
  | .tick :: es => arrivals es
  | .send _ :: es => arrivals es

def ticks : List (Event D) → Nat
  | [] => 0
  | .tick :: es => ticks es + 1
  | .frame _ _ :: es => ticks es
  | .send _ :: es => ticks es

/-- The datagrams in the order in which their last missing packet arrives,
when the packets `arr` are there already. -/
def completed [DecidableEq D] (len : D → Nat) : List (D × Nat) → List (Event D) → List D
  | _, [] => []
  | arr, .frame d j :: es =>
    (if completes len arr d j then [d] else []) ++ completed len ((d, j) :: arr) es
  | arr, .tick :: es => completed len arr es
  | arr, .send _ :: es => completed len arr es

/-- The packet a frame carries. -/
def framePacket (f : RxFrame) : IPv4Packet :=
  packetOf f.data 0 ⟨0, 0, 0, 0, false, 0, 0, 0, fun _ => 0⟩

theorem holds_packetOf (f : RxFrame) (t : Int) (old : IPv4Packet) :
    Holds (framePacket f) (packetOf f.data t old) := by
  refine ⟨rfl, fun i hi => ?_⟩
  have hi' : i < ipDataSize f.data := hi
  simp only [framePacket, packetOf, if_pos hi']

theorem Arrived.mono {ι : Type} {q : D → Nat → IPv4Packet} {len : D → Nat} {young young' : Nat → Prop}
    {old : List (List ι)} {arr : List (D × Nat)} {done : List D} {el : D → Nat → ι} {b : Buffers ι}
    (hA : Arrived q len young old arr done el b) (hy : ∀ c, young c → young' c) :
    Arrived q len young' old arr done el b :=
  { hA with
    chain := fun d hd hex => by
      obtain ⟨js, h1, h2, h3, x, h4, h5⟩ := hA.chain d hd hex
      exact ⟨js, h1, h2, h3, x, h4, hy _ h5⟩ }

theorem doneAfter_eq [DecidableEq D] (len : D → Nat) (arr : List (D × Nat)) (done : List D) (d : D)
    (j : Nat) : doneAfter len arr done d j = done ++ if completes len arr d j then [d] else [] := by
  unfold doneAfter
  split
  · rfl
  · rw [List.append_nil]

section Run
variable [NeZero h] [DecidableEq D] {q : D → Nat → IPv4Packet} {len : D → Nat}
  {frames : D → Nat → RxFrame} {old : List (List (Fin n))}

/-- The packets arriving in `es` are in bounds, are what their frames carry,
and their frames are accepted under the address `ip`. -/
def Deliverable (q : D → Nat → IPv4Packet) (len : D → Nat) (frames : D → Nat → RxFrame) (ip : UInt32)
    (es : List (Event D)) : Prop :=
  ∀ d j, (d, j) ∈ arrivals es → j < len d ∧ Holds (q d j) (framePacket (frames d j)) ∧
    IsIPv4For (frames d j).data ip (frames d j).dataLen

/-- One frame of the family. -/
theorem frame_arrived (hfam : Family q len) {s : NetworkStackHandler n h l} {b : Buffers (Fin n)}
    {arr : List (D × Nat)} {done : List D} {el : D → Nat → Fin n} {k : Nat} {d : D} {j : Nat}
    (hr : Rep s b) (hA : Arrived q len (Young s.timerCounter k) old arr done el b)
    (htm : TimerOk s.timerCounter) (hk : k ≤ FRAGMENT_TIMEOUT) (hnew : (d, j) ∉ arr)
    (hj : j < len d) (hq : Holds (q d j) (framePacket (frames d j)))
    (hf : IsIPv4For (frames d j).data s.myIP (frames d j).dataLen) (hu : b.unused ≠ []) :
    ∃ s' b' e, s.call (.incoming (frames d j)) = some s' ∧ Rep s' b' ∧
      s'.myIP = s.myIP ∧ s'.timerCounter = s.timerCounter ∧
      Arrived q len (Young s.timerCounter k) old ((d, j) :: arr) (doneAfter len arr done d j)
        (elAfter el d j e) b' ∧ b.unused.length ≤ b'.unused.length + 1 := by
  obtain ⟨s', h1, h2⟩ := call_refines hr (.incoming (frames d j))
  obtain ⟨h3, h4⟩ := call_config hr h1
  simp only [Buffers.after, if_pos hf] at h2
  have hmk : ∀ o, Holds (q d j) (packetOf (frames d j).data s.timerCounter o) ∧
      Young s.timerCounter k (packetOf (frames d j).data s.timerCounter o).createdTime := fun o =>
    ⟨hq.trans (holds_packetOf _ _ o), young_now htm k⟩
  obtain ⟨e, h5, h6⟩ := hA.accept hfam hu hj hnew hmk fun p hy => timedOut_of_young hk hy
  exact ⟨s', _, e, h1, h2, h3, h4, h5, h6⟩

/-- The invariant along a run. -/
theorem run_arrived (hfam : Family q len) (es : List (Event D)) :
    ∀ {s : NetworkStackHandler n h l} {b : Buffers (Fin n)} {arr : List (D × Nat)} {done : List D}
      {el : D → Nat → Fin n} {k : Nat}, Rep s b →
      Arrived q len (Young s.timerCounter k) old arr done el b → TimerOk s.timerCounter →
      (arrivals es).Nodup → (∀ x ∈ arrivals es, x ∉ arr) → Deliverable q len frames s.myIP es →
      (arrivals es).length ≤ b.unused.length → k + ticks es ≤ FRAGMENT_TIMEOUT →
    ∃ t b' el', s.calls (es.map (Event.call frames)) = some t ∧ Rep t b' ∧
      Arrived q len (Young t.timerCounter (k + ticks es)) old ((arrivals es).reverse ++ arr)
        (done ++ completed len arr es) el' b' := by
  induction es with
  | nil =>
    intro s b arr done el k hr hA _ _ _ _ _ _
    exact ⟨s, b, el, rfl, hr, by simpa [arrivals, ticks, completed] using hA⟩
  | cons ev es ih =>
    intro s b arr done el k hr hA htm hnd hnew hdel hbuf hk
    cases ev with
    | frame d j =>
      simp only [arrivals, List.nodup_cons, List.length_cons, ticks] at hnd hbuf hk
      obtain ⟨hj, hq, hf⟩ := hdel d j (by simp [arrivals])
      have hu : b.unused ≠ [] := by rintro h0; rw [h0] at hbuf; simp at hbuf
      obtain ⟨s', b', e, h1, h2, h3, h4, h5, h6⟩ := frame_arrived hfam hr hA htm (by omega)
        (hnew (d, j) (by simp [arrivals])) hj hq hf hu
      rw [← h4] at h5 htm
      have hnew' : ∀ x ∈ arrivals es, x ∉ (d, j) :: arr := by
        intro x hx hm
        rcases List.mem_cons.mp hm with rfl | hm
        · exact hnd.1 hx
        · exact hnew x (by simp [arrivals, hx]) hm
      have hdel' : Deliverable q len frames s'.myIP es := by
        rw [h3]
        exact fun d' j' hm => hdel d' j' (by simp [arrivals, hm])
      obtain ⟨t, b'', el', k1, k2, k3⟩ := ih h2 h5 htm hnd.2 hnew' hdel' (by omega) hk
      refine ⟨t, b'', el', ?_, k2, ?_⟩
      · rw [List.map_cons, Event.call, calls, h1]; exact k1
      · rw [doneAfter_eq, List.append_assoc] at k3
        simpa [arrivals, ticks, completed, List.append_assoc] using k3
    | tick =>
      simp only [ticks] at hk
      obtain ⟨t, b', el', k1, k2, k3⟩ := ih hr.tick (hA.mono fun c => young_tick htm)
        (timerOk_tick htm) hnd hnew hdel hbuf (by omega)
      refine ⟨t, b', el', k1, k2, ?_⟩
      have he : k + 1 + ticks es = k + (ticks es + 1) := by omega
      rw [he] at k3
      exact k3
    | send o =>
      have hcfg := call_config hr (c := .outgoing o) rfl
      have hr' : Rep (s.outgoing o).2 b := hr.congr (sameBuffers_outgoing s o)
      have h1 : (s.outgoing o).2.timerCounter = s.timerCounter := hcfg.2
      have h2 : (s.outgoing o).2.myIP = s.myIP := hcfg.1
      rw [← h1] at hA htm
      exact ih hr' hA htm hnd hnew (by rw [h2]; exact hdel) hbuf hk

end Run

/-- Every frame of the datagrams arrives once, in any order, in a handler with
a buffer for each of them and no chain with one of their keys, and at most
`FRAGMENT_TIMEOUT` ticks pass: afterwards each datagram is once in the ready
list, behind what was there, in the order in which the datagrams became
complete. Its fragments are in offset order and are those of its frames, and
no chain with one of the keys is left. -/
theorem reassembly_order_independent [NeZero n] [NeZero h] [DecidableEq D]
    (s : NetworkStackHandler n h l) (hs : (handlerLTS n h l).Reachable s)
    (len : D → Nat) (frames : D → Nat → RxFrame)
    (hfam : Family (fun d j => framePacket (frames d j)) len)
    (hacc : ∀ d j, j < len d → IsIPv4For (frames d j).data s.myIP (frames d j).dataLen)
    (es : List (Event D)) (hnd : (arrivals es).Nodup)
    (hall : ∀ d j, (d, j) ∈ arrivals es ↔ j < len d)
    (hbuf : (arrivals es).length ≤ (unusedList s).length)
    (hno : ∀ d, 1 < len d → ∀ c ∈ incompleteChains s, ∀ x ∈ c,
      (s.value x).key ≠ (framePacket (frames d 0)).key)
    (hticks : ticks es ≤ FRAGMENT_TIMEOUT) :
    ∃ t, s.calls (es.map (Event.call frames)) = some t ∧ ∃ el : D → Nat → Fin n,
      readyChains t = readyChains s ++
        (completed len [] es).map (fun d => (List.range (len d)).map (el d)) ∧
      (completed len [] es).Nodup ∧ (∀ d, d ∈ completed len [] es) ∧
      (∀ d j, j < len d → Holds (framePacket (frames d j)) (t.value (el d j))) ∧
      ∀ d, 1 < len d → ∀ c ∈ incompleteChains t, ∀ x ∈ c,
        (t.value x).key ≠ (framePacket (frames d 0)).key := by
  obtain ⟨a, hr⟩ := rep_of_reachable hs
  obtain ⟨e1, e2, e3⟩ := hr.lists_eq
  have htm := timer_of_reachable hs
  have : Nonempty (Fin n) := ⟨⟨0, Nat.pos_of_ne_zero (NeZero.ne n)⟩⟩
  rw [e2, hr.val] at hno
  rw [e1] at hbuf
  have hA : Arrived (fun d j => framePacket (frames d j)) len (Young s.timerCounter 0) a.ready [] []
      (fun _ _ => Classical.arbitrary (Fin n)) a := by
    refine ⟨hr.wf, by simp, by simp, by simp, fun d => ?_, .nil, by simp, fun d hd _ => hno d hd⟩
    simp only [List.not_mem_nil, false_iff, not_forall]
    exact ⟨0, (hfam.tiles d).pos, fun h => h⟩
  obtain ⟨t, b, el, h1, h2, h3⟩ := run_arrived hfam es hr hA htm hnd (by simp)
    (fun d j hm => ⟨(hall d j).mp hm, .refl _, hacc d j ((hall d j).mp hm)⟩) hbuf (by omega)
  obtain ⟨f1, f2, f3⟩ := h2.lists_eq
  simp only [List.nil_append, List.append_nil] at h3
  have hdone : ∀ d, d ∈ completed len [] es := fun d => by
    rw [h3.done_iff]
    intro j hj
    rw [List.mem_reverse]; exact (hall d j).mpr hj
  refine ⟨t, h1, el, by rw [f3, e3]; exact h3.ready, h3.nodup, hdone, fun d j hj => ?_,
    fun d hd => ?_⟩
  · rw [h2.val]
    exact h3.holds d j (by rw [List.mem_reverse]; exact (hall d j).mpr hj)
  · rw [f2, h2.val]
    exact h3.other d hd (.inl (hdone d))

/-- A datagram of two fragments of 8 bytes. -/
def twoFragments : Unit → Nat → RxFrame
  | _, 0 => smallFrame 0x20 0
  | _, _ => smallFrame 0 1

theorem tiles_twoFragments : Tiles (fun j => framePacket (twoFragments () j)) 2 := by
  refine ⟨by decide, by decide +kernel, by decide +kernel, fun j hj => ?_, fun j hj => ?_,
    by decide +kernel⟩
  · obtain rfl : j = 0 := by omega
    decide +kernel
  · obtain rfl : j = 0 := by omega
    decide +kernel

theorem family_twoFragments : Family (fun d j => framePacket (twoFragments d j)) fun _ => 2 :=
  ⟨fun _ => tiles_twoFragments, fun _ _ _ _ _ => rfl⟩

/-- The last fragment first, with a tick in between. -/
theorem reassembly_order_independent_twoFragments :
    ∃ t, twoBuffers.calls ([.frame () 1, .tick, .frame () 0].map (Event.call twoFragments)) = some t ∧
      ∃ el : Unit → Nat → Fin 2, readyChains t = [[el () 0, el () 1]] ∧
        ∀ j < 2, Holds (framePacket (twoFragments () j)) (t.value (el () j)) := by
  have hacc : ∀ j < 2, IsIPv4For (twoFragments () j).data twoBuffers.myIP
      (twoFragments () j).dataLen := by decide +kernel
  obtain ⟨t, h1, el, h2, -, -, h3, -⟩ := reassembly_order_independent twoBuffers
    ⟨twoBuffers, [], init_twoBuffers, .nil _⟩ (fun _ => 2) twoFragments family_twoFragments
    (fun _ j hj => hacc j hj) [.frame () 1, .tick, .frame () 0] (by decide)
    (fun d j => by simp only [arrivals, List.mem_cons, Prod.mk.injEq, List.not_mem_nil]
                   simp; omega)
    (by decide) (fun d _ c hc => by rw [show incompleteChains twoBuffers = [] by decide] at hc; cases hc)
    (by decide)
  exact ⟨t, h1, el, h2, fun j hj => h3 () j hj⟩

end CpuScheduler.L2
