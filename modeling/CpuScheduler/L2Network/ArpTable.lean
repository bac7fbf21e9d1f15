import CpuScheduler.L2Network.RoundTrip

/-!
# The ARP table

What one call can do to the table, in the cases of the source and with their
conditions (`outgoing_cases`, `call_arpEntries`), and that an address is in
one slot at most, in its own bucket (`TableOk`). The results about runs
(`ArpFresh`, `ArpExchange`) do not look into `resolve`.
-/
namespace CpuScheduler.L2

open Word NetworkStackHandler

variable {n h l : Nat}

/-! ## Time -/

/-- Time `now` counts the ticks since the construction. -/
theorem passedTimeSince_eq {s : NetworkStackHandler n h l} {now c : Nat} (ht : s.timerCounter = (now % 2 ^ 31 : Nat))
    (hc : c ≤ now) : s.passedTimeSince (c % 2 ^ 31 : Nat) = (now - c) % 2 ^ 31 := by
  unfold passedTimeSince
  rw [ht]
  split
  · rw [asUInt_of_lt (by omega) (by omega)]
    omega
  · rw [INT_MAX, asUInt_of_lt (by omega) (by omega)]
    omega

/-- The number of ticks. -/
def tickCount : List Call → Nat
  | [] => 0
  | .tick :: cs => tickCount cs + 1
  | _ :: cs => tickCount cs

theorem tickCount_cons (c : Call) (cs : List Call) : tickCount (c :: cs) = tickCount [c] + tickCount cs := by
  cases c with
  | tick => exact Nat.add_comm _ _
  | incoming | pop | outgoing => exact (Nat.zero_add _).symm

/-- The timer counts the ticks modulo 2^31. -/
theorem timer_call [NeZero h] {s t : NetworkStackHandler n h l} {a : Buffers (Fin n)} (hr : Rep s a) {c : Call} (hc : s.call c = some t) {now : Nat}
    (ht : s.timerCounter = (now % 2 ^ 31 : Nat)) : t.timerCounter = ((now + tickCount [c]) % 2 ^ 31 : Nat) := by
  have htime := (call_config hr hc).2
  cases c with
  | tick =>
    have hok : TimerOk s.timerCounter := by
      rw [ht]
      unfold TimerOk
      omega
    have htick : t.timerCounter = s.incrementTimerCounter.timerCounter := htime
    rw [htick, incrementTimerCounter_eq hok, ht]
    show _ = (((now + 1) % 2 ^ 31 : Nat) : Int)
    omega
  | incoming | pop | outgoing =>
    rw [htime]
    exact ht

theorem timer_run [NeZero n] [NeZero h] {s t : NetworkStackHandler n h l} {cs : List Call}
    (hs : (handlerLTS n h l).Reachable s) (hrun : (handlerLTS n h l).Run s cs t) {now : Nat}
    (ht : s.timerCounter = (now % 2 ^ 31 : Nat)) : t.timerCounter = ((now + tickCount cs) % 2 ^ 31 : Nat) := by
  induction hrun generalizing now with
  | nil => exact ht
  | @cons s u t c cs hstep _ ih =>
    obtain ⟨a, hr⟩ := rep_of_reachable hs
    rw [tickCount_cons, ← Nat.add_assoc]
    exact ih (hs.step hstep) (timer_call hr hstep ht)

theorem incrementTimerCounter_nonneg (s : NetworkStackHandler n h l) : 0 ≤ s.incrementTimerCounter.timerCounter := by
  unfold incrementTimerCounter
  dsimp only
  split
  · exact le_rfl
  · omega

theorem run_ticks [NeZero n] [NeZero h] (s : NetworkStackHandler n h l) (k : Nat) :
    (handlerLTS n h l).Run s (List.replicate k .tick) (incrementTimerCounter^[k] s) := by
  induction k generalizing s with
  | zero => exact .nil _
  | succ k ih => exact .cons rfl (ih s.incrementTimerCounter)

theorem tickCount_replicate (k : Nat) : tickCount (List.replicate k .tick) = k := by
  induction k with
  | zero => rfl
  | succ k ih => exact congrArg (· + 1) ih

/-- What the timer showed at some moment, taken from what it shows fewer than
2^31 ticks later, gives the number of these ticks. -/
theorem passedTimeSince_counts [NeZero n] [NeZero h] (s : NetworkStackHandler n h l) (hs : (handlerLTS n h l).Reachable s) :
    (∀ cs t, (handlerLTS n h l).Run s cs t → tickCount cs < 2 ^ 31 → t.passedTimeSince s.timerCounter = tickCount cs) ∧
    (∀ k, k < 2 ^ 31 → (incrementTimerCounter^[k] s).passedTimeSince s.timerCounter = k) ∧
    ∀ u : NetworkStackHandler n h l, 0 ≤ u.incrementTimerCounter.timerCounter := by
  have hruns : ∀ cs t, (handlerLTS n h l).Run s cs t → tickCount cs < 2 ^ 31 →
      t.passedTimeSince s.timerCounter = tickCount cs := by
    intro cs t hrun hlt
    obtain ⟨h0, h31⟩ := timer_of_reachable hs
    have hnow : s.timerCounter = ((s.timerCounter.toNat % 2 ^ 31 : Nat) : Int) := by omega
    have hpassed := passedTimeSince_eq (timer_run hs hrun hnow) (Nat.le_add_right s.timerCounter.toNat (tickCount cs))
    rw [← hnow, Nat.add_sub_cancel_left, Nat.mod_eq_of_lt hlt] at hpassed
    exact hpassed
  refine ⟨hruns, fun k hk => ?_, incrementTimerCounter_nonneg⟩
  have hk' := hruns _ _ (run_ticks s k) (by rwa [tickCount_replicate])
  rwa [tickCount_replicate] at hk'

theorem ticks_reachable (k : Nat) : (handlerLTS 2 1 1).Reachable (incrementTimerCounter^[k] twoBuffers) ∧
    (incrementTimerCounter^[k] twoBuffers).timerCounter = (k % 2 ^ 31 : Nat) := by
  have h0 : (handlerLTS 2 1 1).Reachable twoBuffers := ⟨twoBuffers, [], init_twoBuffers, .nil _⟩
  have hzero : twoBuffers.timerCounter = (0 % 2 ^ 31 : Nat) := rfl
  have htimer := timer_run h0 (run_ticks twoBuffers k) hzero
  rw [tickCount_replicate, Nat.zero_add] at htimer
  exact ⟨h0.run (run_ticks twoBuffers k), htimer⟩

/-- Two ticks past the end. -/
theorem passedTimeSince_counts_end : ∃ s : NetworkStackHandler 2 1 1, s.timerCounter = INT_MAX ∧
    (incrementTimerCounter^[2] s).timerCounter = 1 ∧ (incrementTimerCounter^[2] s).passedTimeSince s.timerCounter = 2 := by
  obtain ⟨hs, htimer⟩ := ticks_reachable (2 ^ 31 - 1)
  obtain ⟨_, hruns, _⟩ := passedTimeSince_counts _ hs
  have hend := timer_run hs (run_ticks _ 2) htimer
  rw [tickCount_replicate] at hend
  exact ⟨_, htimer, hend, hruns 2 (by decide)⟩

/-! ## Slots -/

@[simp] theorem arpEntries_setARPEntry (s : NetworkStackHandler n h l) (b : Fin h) (i : Fin l) (e : ARPEntry)
    (b' : Fin h) (i' : Fin l) :
    (s.setARPEntry b i e).arpEntries b' i' = if b' = b ∧ i' = i then e else s.arpEntries b' i' := by
  unfold setARPEntry
  by_cases hb : b' = b
  · subst hb
    by_cases hi : i' = i
    · subst hi
      simp
    · simp [hi]
  · simp [hb]

/-- A slot that holds the next hop is found. -/
theorem selectLoop_holds {s : NetworkStackHandler n h l} {nextHop : UInt32} {b : Fin h} {is : List (Fin l)}
    (arpEntry : Option (Fin l)) {j : Fin l} (hj : j ∈ is) (hip : (s.arpEntries b j).IP = nextHop) :
    ∃ i, s.selectLoop nextHop b is arpEntry = some i ∧ (s.arpEntries b i).IP = nextHop := by
  induction is generalizing arpEntry with
  | nil => cases hj
  | cons i is ih =>
    rw [selectLoop]
    by_cases hi : (s.arpEntries b i).IP = nextHop
    · rw [if_pos hi]
      exact ⟨i, rfl, hi⟩
    · rw [if_neg hi]
      refine ih _ ?_
      rcases List.mem_cons.mp hj with rfl | hj
      · exact absurd hip hi
      · exact hj

theorem find_holds {s : NetworkStackHandler n h l} [NeZero h] {ip : UInt32} {i : Fin l}
    (hf : s.findARPEntry ip = some i) : (s.arpEntries (bucket ip) i).IP = ip := by
  have := List.find?_some hf
  simpa using this

/-- Every address other than 0 is in one slot at most, in its bucket. -/
structure TableOk [NeZero h] (s : NetworkStackHandler n h l) : Prop where
  unique : ∀ b i j, (s.arpEntries b i).IP = (s.arpEntries b j).IP → (s.arpEntries b i).IP ≠ 0 → i = j
  placed : ∀ b i, (s.arpEntries b i).IP ≠ 0 → b = bucket (s.arpEntries b i).IP

/-- The reply is for this slot. -/
theorem find_of_holds [NeZero h] {s : NetworkStackHandler n h l} (hs : TableOk s) {ip : UInt32} (hip : ip ≠ 0)
    {b : Fin h} {i : Fin l} (hi : (s.arpEntries b i).IP = ip) : b = bucket ip ∧ s.findARPEntry ip = some i := by
  have hb : b = bucket ip := by
    rw [← hi]
    exact hs.placed b i (hi ▸ hip)
  subst hb
  refine ⟨rfl, ?_⟩
  cases hf : s.findARPEntry ip with
  | none =>
    have hnone := List.find?_eq_none.mp hf i (List.mem_finRange i)
    exact absurd hi (by simpa using hnone)
  | some j =>
    have hj := find_holds hf
    have hne : (s.arpEntries (bucket ip) j).IP ≠ 0 := by
      rw [hj]
      exact hip
    rw [hs.unique (bucket ip) j i (hj.trans hi.symm) hne]

theorem tableOk_init [NeZero n] [NeZero h] (mem : NetworkStackHandler n h l) (myMac : Fin 6 → UInt8)
    (myIP gatewayIP : UInt32) (networkMask : Nat) : TableOk (init mem myMac myIP gatewayIP networkMask) :=
  ⟨fun _ _ _ _ hne => absurd rfl hne, fun _ _ hne => absurd rfl hne⟩

theorem TableOk.congr [NeZero h] {s t : NetworkStackHandler n h l} (hs : TableOk s)
    (ht : ∀ b i, (t.arpEntries b i).IP = (s.arpEntries b i).IP) : TableOk t where
  unique b i j := by
    rw [ht, ht]
    exact hs.unique b i j
  placed b i := by
    rw [ht]
    exact hs.placed b i

/-- A slot of the bucket gets the address, which no slot has. -/
theorem TableOk.assign [NeZero h] {s t : NetworkStackHandler n h l} (hs : TableOk s) {ip : UInt32} {i : Fin l}
    (hnew : ∀ j, (s.arpEntries (bucket ip) j).IP ≠ ip)
    (ht : ∀ b j, (t.arpEntries b j).IP = if b = bucket ip ∧ j = i then ip else (s.arpEntries b j).IP) : TableOk t where
  unique b j k := by
    rw [ht, ht]
    intro heq hne
    by_cases hj : b = bucket ip ∧ j = i <;> by_cases hk : b = bucket ip ∧ k = i
    · exact hj.2.trans hk.2.symm
    · rw [if_pos hj, if_neg hk, hj.1] at heq
      exact absurd heq.symm (hnew k)
    · rw [if_neg hj, if_pos hk, hk.1] at heq
      exact absurd heq (hnew j)
    · rw [if_neg hj, if_neg hk] at heq
      rw [if_neg hj] at hne
      exact hs.unique b j k heq hne
  placed b j := by
    rw [ht]
    intro hne
    by_cases hj : b = bucket ip ∧ j = i
    · rw [if_pos hj]
      exact hj.1
    · rw [if_neg hj] at hne ⊢
      exact hs.placed b j hne

/-! ## An outgoing packet -/

/-- The latest request for the entry has no answer. -/
def Unanswered (s : NetworkStackHandler n h l) (e : ARPEntry) : Prop :=
  e.lastAnswered = -1 ∨ s.passedTimeSince e.lastAnswered > s.passedTimeSince e.lastRequested

/-- When an entry that holds the next hop is asked for once more. -/
def AskedAgain (s : NetworkStackHandler n h l) (e : ARPEntry) : Prop :=
  e.lastRequested = -1 ∨
    Unanswered s e ∧ s.passedTimeSince e.lastRequested > ARP_BROADCAST_ON_FAILURE_TIMEOUT ∨
    ¬ Unanswered s e ∧ s.passedTimeSince e.lastAnswered > ARP_ENTRY_TIMEOUT

/-- The address a frame is sent to. -/
def SendsTo (s : NetworkStackHandler n h l) (e : ARPEntry) (mac : Fin 6 → UInt8) : Prop :=
  Unanswered s e ∧ s.passedTimeSince e.lastRequested > ARP_REQUEST_TIMEOUT ∧
      s.passedTimeSince e.lastRequested ≤ ARP_BROADCAST_ON_FAILURE_TIMEOUT ∧ mac = (fun _ => 0xFF) ∨
    ¬ Unanswered s e ∧ s.passedTimeSince e.lastAnswered ≤ ARP_ENTRY_TIMEOUT ∧ mac = e.MAC

/-- The entry of an address that has just got a slot. -/
def ARPEntry.assign (e : ARPEntry) (ip : UInt32) (t : Int) : ARPEntry :=
  { e with IP := ip, lastUsed := -1, lastRequested := t, lastAnswered := -1 }

/-- The cases of `resolve`. -/
inductive ResolveCase [NeZero h] (s : NetworkStackHandler n h l) (hop : UInt32) (buffer : Nat → UInt8) :
    Resolution n h l → Prop where
  | full : (∀ j, (s.arpEntries (bucket hop) j).IP ≠ hop) → ResolveCase s hop buffer .full
  | assigned (i : Fin l) : (∀ j, (s.arpEntries (bucket hop) j).IP ≠ hop) →
      ResolveCase s hop buffer (.waiting 42 (s.sendARPRequest hop buffer).2 (s.setARPEntry (bucket hop) i
        ((s.arpEntries (bucket hop) i).assign hop s.timerCounter)))
  | requested (i : Fin l) : (s.arpEntries (bucket hop) i).IP = hop → AskedAgain s (s.arpEntries (bucket hop) i) →
      ResolveCase s hop buffer (.waiting 42 (s.sendARPRequest hop buffer).2 (s.setARPEntry (bucket hop) i
        { s.arpEntries (bucket hop) i with lastRequested := s.timerCounter }))
  | waiting (i : Fin l) : (s.arpEntries (bucket hop) i).IP = hop → Unanswered s (s.arpEntries (bucket hop) i) →
      ResolveCase s hop buffer (.waiting 0 buffer (s.setARPEntry (bucket hop) i (s.arpEntries (bucket hop) i)))
  | known (i : Fin l) (mac : Fin 6 → UInt8) : (s.arpEntries (bucket hop) i).IP = hop →
      (s.arpEntries (bucket hop) i).lastRequested ≠ -1 → SendsTo s (s.arpEntries (bucket hop) i) mac →
      ResolveCase s hop buffer (.known i (s.setARPEntry (bucket hop) i { s.arpEntries (bucket hop) i with MAC := mac }))

theorem resolve_cases [NeZero h] (s : NetworkStackHandler n h l) (hop : UInt32) (buffer : Nat → UInt8) :
    ResolveCase s hop buffer (s.resolve hop buffer) := by
  -- what the loop says about the addresses in the bucket
  have hnone (hsel : s.selectLoop hop (bucket hop) (List.finRange l) none = none) (j : Fin l) :
      (s.arpEntries (bucket hop) j).IP ≠ hop := by
    intro hj
    obtain ⟨i, hi, _⟩ := selectLoop_holds none (List.mem_finRange j) hj
    rw [hsel] at hi
    cases hi
  have hother {i : Fin l} (hsel : s.selectLoop hop (bucket hop) (List.finRange l) none = some i)
      (hi : (s.arpEntries (bucket hop) i).IP ≠ hop) (j : Fin l) : (s.arpEntries (bucket hop) j).IP ≠ hop := by
    intro hj
    obtain ⟨i', hi', hip⟩ := selectLoop_holds none (List.mem_finRange j) hj
    rw [hsel] at hi'
    cases hi'
    exact hi hip
  unfold resolve
  dsimp only
  split
  · rename_i hsel
    exact .full (hnone hsel)
  · rename_i i hsel
    by_cases hi : (s.arpEntries (bucket hop) i).IP ≠ hop
    · rw [if_pos hi]
      dsimp only
      rw [if_pos rfl]
      exact .assigned i (hother hsel hi)
    · rw [if_neg hi]
      have hip := not_not.mp hi
      split
      · rename_i hreq
        exact .requested i hip (.inl hreq)
      · rename_i hreq
        split
        · rename_i hun
          split
          · rename_i hbetween
            exact .known i _ hip hreq (.inl ⟨hun, hbetween.1, hbetween.2, rfl⟩)
          · split
            · rename_i hlate
              exact .requested i hip (.inr (.inl ⟨hun, hlate⟩))
            · exact .waiting i hip hun
        · rename_i hun
          split
          · rename_i hold
            exact .requested i hip (.inr (.inr ⟨hun, hold⟩))
          · rename_i hold
            exact .known i _ hip hreq (.inr ⟨hun, Nat.le_of_not_lt hold, rfl⟩)

/-- The call got data, a buffer, and something to send. -/
structure HasWork (a : OutgoingArgs) (data buffer : Nat → UInt8) : Prop where
  data : a.data = some data
  buffer : a.writeBuffer = some buffer
  offset : a.fragmentOffset < a.dataLen

/-- An IPv4 frame to `mac`. -/
structure SentFrame (s : NetworkStackHandler n h l) (a : OutgoingArgs) (mac : Fin 6 → UInt8) (o : Outgoing) : Prop where
  progress : o.progress = .done ∨ o.progress = .sendingFragment
  dest : ∀ j : Fin 6, o.writeBuffer j = mac j
  wire : ∃ data sent size last, 0 < size ∧ size ≤ 1480 ∧ o.size = 34 + size ∧
    Wire s.myIP a.destinationIP a.protocol sent data a.fragmentOffset size last o.writeBuffer

/-- Slot `i` of the bucket of `hop` becomes `e`, the others stay. -/
def WritesSlot [NeZero h] (s t : NetworkStackHandler n h l) (hop : UInt32) (i : Fin l) (e : ARPEntry) : Prop :=
  ∀ b j, t.arpEntries b j = if b = bucket hop ∧ j = i then e else s.arpEntries b j

/-- The cases of `handleOutgoingIPv4Packet`: what it returns, and the table. -/
inductive OutgoingCase [NeZero h] (s : NetworkStackHandler n h l) (a : OutgoingArgs) (hop : UInt32) (o : Outgoing)
    (t : NetworkStackHandler n h l) : Prop where
  | idle : (¬ ∃ data buffer, HasWork a data buffer) → o.progress = .done → o.size = 0 → t.arpEntries = s.arpEntries →
      OutgoingCase s a hop o t
  | full : (∀ j, (s.arpEntries (bucket hop) j).IP ≠ hop) → o.progress = .arpTableFull → o.size = 0 →
      t.arpEntries = s.arpEntries → OutgoingCase s a hop o t
  | assigned (i : Fin l) (data buffer : Nat → UInt8) : HasWork a data buffer →
      (∀ j, (s.arpEntries (bucket hop) j).IP ≠ hop) → o.progress = .waitingOnARPReply → o.size = 42 →
      o.writeBuffer = (s.sendARPRequest hop buffer).2 →
      WritesSlot s t hop i ((s.arpEntries (bucket hop) i).assign hop s.timerCounter) → OutgoingCase s a hop o t
  | requested (i : Fin l) : (s.arpEntries (bucket hop) i).IP = hop → AskedAgain s (s.arpEntries (bucket hop) i) →
      o.progress = .waitingOnARPReply → o.size = 42 →
      WritesSlot s t hop i { s.arpEntries (bucket hop) i with lastRequested := s.timerCounter } → OutgoingCase s a hop o t
  | waiting (i : Fin l) : (s.arpEntries (bucket hop) i).IP = hop → Unanswered s (s.arpEntries (bucket hop) i) →
      o.progress = .waitingOnARPReply → o.size = 0 → t.arpEntries = s.arpEntries → OutgoingCase s a hop o t
  | sent (i : Fin l) (mac : Fin 6 → UInt8) : (s.arpEntries (bucket hop) i).IP = hop →
      (s.arpEntries (bucket hop) i).lastRequested ≠ -1 → SendsTo s (s.arpEntries (bucket hop) i) mac →
      SentFrame s a mac o →
      WritesSlot s t hop i { s.arpEntries (bucket hop) i with MAC := mac, lastUsed := s.timerCounter } →
      OutgoingCase s a hop o t

theorem fragmentHeader_mac (s : NetworkStackHandler n h l) (mac : Fin 6 → UInt8) (dest : UInt32) (protocol : UInt8)
    (sent : UInt16) (offset size : Nat) (last : Bool) (j : Fin 6) :
    (s.fragmentHeader mac dest protocol sent offset size last)[j.val]? = some (mac j) := by
  simp only [fragmentHeader, List.append_assoc]
  rw [List.getElem?_append_left (by simp), List.getElem?_ofFn, dif_pos j.isLt]

theorem sentFrame_sendFragment (s s' : NetworkStackHandler n h l) (hip : s'.myIP = s.myIP)
    (b : Fin h) (i : Fin l) {a : OutgoingArgs} (hoff : a.fragmentOffset < a.dataLen) (data buffer : Nat → UInt8) :
    SentFrame s a (s'.arpEntries b i).MAC (s'.sendFragment b i a.destinationIP a.protocol data a.dataLen a.identification
      a.fragmentOffset buffer).1 := by
  constructor
  case progress =>
    unfold sendFragment
    dsimp only
    split
    · exact .inl rfl
    · exact .inr rfl
  case dest =>
    intro j
    have hj : j.val < 34 := by omega
    unfold sendFragment
    dsimp only
    have hcopy (w : Nat → UInt8) (start size : Nat) : copyBytes w (14 + 20) data start size j.val = w j.val := by
      rw [copyBytes, if_neg (by omega)]
    rw [ETHERNET_SIMPLE_HEADER_SIZE, IPV4_MINIMAL_HEADER_SIZE, hcopy, putBytes, if_pos (Nat.zero_le _), Nat.sub_zero,
      fragmentHeader_mac]
    rfl
  case wire =>
    refine ⟨data, if a.fragmentOffset = 0 then s'.identificationCounter else a.identification,
      if decide (a.dataLen - a.fragmentOffset < 1480) then a.dataLen - a.fragmentOffset else 1480,
      decide (a.dataLen - a.fragmentOffset < 1480), ?_, ?_, rfl, ?_⟩
    · split
      · omega
      · decide
    · split
      · rename_i hlt
        exact Nat.le_of_lt (by simpa using hlt)
      · exact Nat.le_refl _
    · rw [← hip]
      unfold sendFragment
      dsimp only
      split
      · exact wire_sent _ _ _ _ _ _ _ _ _ _
      · exact wire_sent _ _ _ _ _ _ _ _ _ _

theorem arpEntries_sendFragment (s : NetworkStackHandler n h l) (b : Fin h) (i : Fin l) (destinationIP : UInt32)
    (protocol : UInt8) (data : Nat → UInt8) (dataLen : Nat) (identification : UInt16) (fragmentOffset : Nat)
    (buffer : Nat → UInt8) :
    (s.sendFragment b i destinationIP protocol data dataLen identification fragmentOffset buffer).2.arpEntries =
      (s.setARPEntry b i { s.arpEntries b i with lastUsed := s.timerCounter }).arpEntries := by
  unfold sendFragment
  dsimp only
  split <;> rfl

theorem outgoing_cases [NeZero h] (s : NetworkStackHandler n h l) (a : OutgoingArgs) :
    OutgoingCase s a (s.nextHopIP a.destinationIP) (s.outgoing a).1 (s.outgoing a).2 := by
  unfold outgoing handleOutgoingIPv4Packet
  split
  · rename_i data buffer hdata hbuffer
    split
    · rename_i hoff
      refine .idle ?_ rfl rfl rfl
      intro hwork
      obtain ⟨_, _, hwork⟩ := hwork
      exact absurd hwork.offset (Nat.not_lt.mpr hoff)
    · rename_i hoff
      have hlt := Nat.lt_of_not_le hoff
      dsimp only
      have hcase := resolve_cases s (s.nextHopIP a.destinationIP) buffer
      generalize s.resolve (s.nextHopIP a.destinationIP) buffer = r at hcase
      cases hcase with
      | full hnone => exact .full hnone rfl rfl rfl
      | assigned i hnone =>
        exact .assigned i data buffer ⟨hdata, hbuffer, hlt⟩ hnone rfl rfl rfl fun b j => arpEntries_setARPEntry ..
      | requested i hip hagain => exact .requested i hip hagain rfl rfl fun b j => arpEntries_setARPEntry ..
      | waiting i hip hun =>
        refine .waiting i hip hun rfl rfl ?_
        funext b j
        rw [arpEntries_setARPEntry]
        split
        · rename_i heq
          rw [heq.1, heq.2]
        · rfl
      | known i mac hip hreq hto =>
        have hframe := sentFrame_sendFragment s (s.setARPEntry (bucket (s.nextHopIP a.destinationIP)) i
          { s.arpEntries (bucket (s.nextHopIP a.destinationIP)) i with MAC := mac }) rfl
          (bucket (s.nextHopIP a.destinationIP)) i hlt data buffer
        rw [arpEntries_setARPEntry, if_pos ⟨rfl, rfl⟩] at hframe
        refine .sent i mac hip hreq hto hframe fun b j => ?_
        rw [arpEntries_sendFragment, arpEntries_setARPEntry, arpEntries_setARPEntry, arpEntries_setARPEntry,
          if_pos (⟨rfl, rfl⟩ : _ ∧ _)]
        split <;> rfl
  · rename_i hnone
    refine .idle ?_ rfl rfl rfl
    intro hwork
    obtain ⟨data, buffer, hwork⟩ := hwork
    exact hnone data buffer hwork.data hwork.buffer

/-- What a call that is not an outgoing packet does to the table. -/
theorem call_arpEntries [NeZero h] {s t : NetworkStackHandler n h l} {a : Buffers (Fin n)} (hr : Rep s a) {c : Call}
    (hc : s.call c = some t) :
    (∃ f, c = .incoming f ∧ IsARPReply f.data f.dataLen ∧ t = learnARP s f.data) ∨
      (∃ o, c = .outgoing o ∧ t = (s.outgoing o).2) ∨
      (∀ f, c = .incoming f → ¬ IsARPReply f.data f.dataLen) ∧ (∀ o, c ≠ .outgoing o) ∧ t.arpEntries = s.arpEntries := by
  cases c with
  | incoming f =>
    by_cases h2 : IsARPReply f.data f.dataLen
    · left
      refine ⟨f, rfl, h2, ?_⟩
      simp only [NetworkStackHandler.call, incoming] at hc
      rw [handleIncoming_of_isARPReply s f.data f.dataLen h2] at hc
      cases hc
      rfl
    · refine .inr (.inr ⟨fun f' hf => ?_, fun _ hne => (by cases hne), ?_⟩)
      · cases hf
        exact h2
      · simp only [NetworkStackHandler.call, incoming] at hc
        by_cases h1 : IsIPv4For f.data s.myIP f.dataLen
        · rw [handleIncoming_of_isIPv4For s f.data f.dataLen h1] at hc
          obtain ⟨s', k1, -, k3⟩ := acceptFrame_spec hr f.data
          rw [k1] at hc
          cases hc
          rw [k3.eq]
        · obtain ⟨ty, ht⟩ := handleIncoming_of_other s f.data f.dataLen h1 h2
          rw [ht] at hc
          cases hc
          rfl
  | pop =>
    refine .inr (.inr ⟨fun _ hf => (by cases hf), fun _ hne => (by cases hne), ?_⟩)
    rw [(sameConfig_pop hr hc).eq]
  | outgoing o =>
    cases hc
    exact .inr (.inl ⟨o, rfl, rfl⟩)
  | tick =>
    cases hc
    exact .inr (.inr ⟨fun _ hf => (by cases hf), fun _ hne => (by cases hne), rfl⟩)

/-! ## Every call keeps the table in order -/

/-- A reply leaves the slots of other addresses alone. -/
theorem arpEntries_learnARP_of_ne [NeZero h] {s : NetworkStackHandler n h l} {data : Nat → UInt8} {b : Fin h} {i : Fin l}
    (hi : (s.arpEntries b i).IP ≠ arpSender data) : (learnARP s data).arpEntries b i = s.arpEntries b i := by
  unfold learnARP
  cases hf : s.findARPEntry (arpSender data) with
  | none => rfl
  | some j =>
    dsimp only
    rw [arpEntries_setARPEntry, if_neg]
    intro heq
    rw [heq.1, heq.2] at hi
    exact hi (find_holds hf)

theorem arpEntries_learnARP [NeZero h] {s : NetworkStackHandler n h l} (hs : TableOk s) {data : Nat → UInt8} {b : Fin h}
    {i : Fin l} (hne : (s.arpEntries b i).IP ≠ 0) (hi : (s.arpEntries b i).IP = arpSender data) :
    (learnARP s data).arpEntries b i =
      { s.arpEntries b i with MAC := fun j => data (22 + j), lastAnswered := s.timerCounter } := by
  obtain ⟨rfl, hf⟩ := find_of_holds hs (hi ▸ hne) hi
  unfold learnARP
  rw [hf]
  dsimp only
  rw [arpEntries_setARPEntry, if_pos ⟨rfl, rfl⟩]

theorem ip_learnARP [NeZero h] (s : NetworkStackHandler n h l) (data : Nat → UInt8) (b : Fin h) (i : Fin l) :
    ((learnARP s data).arpEntries b i).IP = (s.arpEntries b i).IP := by
  unfold learnARP
  split
  · rfl
  · rw [arpEntries_setARPEntry]
    split
    · rename_i heq
      rw [heq.1, heq.2]
    · rfl

theorem WritesSlot.ip [NeZero h] {s t : NetworkStackHandler n h l} {hop : UInt32} {i : Fin l} {e : ARPEntry}
    (hw : WritesSlot s t hop i e) (he : e.IP = (s.arpEntries (bucket hop) i).IP) (b : Fin h) (j : Fin l) :
    (t.arpEntries b j).IP = (s.arpEntries b j).IP := by
  rw [hw b j]
  split
  · rename_i heq
    rw [he, heq.1, heq.2]
  · rfl

theorem tableOk_outgoing [NeZero h] {s : NetworkStackHandler n h l} (hs : TableOk s) (a : OutgoingArgs) :
    TableOk (s.outgoing a).2 := by
  cases outgoing_cases s a with
  | idle _ _ _ ht => exact hs.congr fun b i => by rw [ht]
  | full _ _ _ ht => exact hs.congr fun b i => by rw [ht]
  | waiting _ _ _ _ _ ht => exact hs.congr fun b i => by rw [ht]
  | assigned i _ _ _ hnone _ _ _ hw =>
    refine hs.assign (i := i) hnone fun b j => ?_
    rw [hw b j]
    split <;> rfl
  | requested i _ _ _ _ hw => exact hs.congr (hw.ip rfl)
  | sent i mac _ _ _ _ hw => exact hs.congr (hw.ip rfl)

theorem tableOk_call [NeZero h] {s t : NetworkStackHandler n h l} {a : Buffers (Fin n)} (hr : Rep s a) (hs : TableOk s)
    {c : Call} (hc : s.call c = some t) : TableOk t := by
  rcases call_arpEntries hr hc with ⟨f, _, _, rfl⟩ | ⟨o, _, rfl⟩ | ⟨_, _, ht⟩
  · exact hs.congr (ip_learnARP s f.data)
  · exact tableOk_outgoing hs o
  · exact hs.congr fun b i => by rw [ht]

theorem tableOk_of_reachable [NeZero n] [NeZero h] {s : NetworkStackHandler n h l}
    (hs : (handlerLTS n h l).Reachable s) : TableOk s := by
  have hinv : ∀ s, (handlerLTS n h l).Reachable s → (∃ a, Rep s a) ∧ TableOk s := by
    refine LTS.Inductive.reachable ⟨fun s h0 => ?_, fun s c t hI hstep => ?_⟩
    · obtain ⟨mem, myMac, myIP, gatewayIP, networkMask, rfl⟩ := h0
      exact ⟨⟨_, rep_init mem myMac myIP gatewayIP networkMask⟩, tableOk_init ..⟩
    · obtain ⟨⟨a, hr⟩, hok⟩ := hI
      obtain ⟨t', h1, h2⟩ := call_refines hr c
      have hc : s.call c = some t := hstep
      rw [hc, Option.some.injEq] at h1
      subst h1
      exact ⟨⟨_, h2⟩, tableOk_call hr hok hc⟩
  exact (hinv s hs).2

end CpuScheduler.L2
