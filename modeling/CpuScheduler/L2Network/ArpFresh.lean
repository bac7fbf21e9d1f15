import CpuScheduler.L2Network.ArpTable

/-!
# No stale address

A slot of the ARP table says with three timestamps, taken modulo `2^31` and
with `-1` for never, which of request and answer came last; its `MAC` is not
cleared when the slot is given to another address, and is overwritten when a
frame is broadcast. `timedLTS` runs the handler beside a record of what has
really happened: the number of ticks, and for every slot the latest request
and the latest reply since the slot was given to its address.

`arp_fresh`: an IPv4 frame goes to the sender of the latest reply, if that
reply is not older than the latest request and than `ARP_ENTRY_TIMEOUT`, or
to everyone, if that request is unanswered and the broadcast is due.
-/
namespace CpuScheduler.L2

open NetworkStackHandler

variable {n h l : Nat}

instance (data : Nat → UInt8) (dataLen : Nat) : Decidable (IsARPReply data dataLen) :=
  decidable_of_iff (etherType data = 0x0806 ∧ 42 ≤ dataLen ∧ arpProtocol data = 0x0800 ∧ arpOperation data = 2)
    ⟨fun ⟨h1, h2, h3, h4⟩ => ⟨h1, h2, h3, h4⟩, fun ⟨h1, h2, h3, h4⟩ => ⟨h1, h2, h3, h4⟩⟩

/-- What has happened since a slot was given to its address. `requested`: the
tick of the latest request; `reply`: the tick and the sender of the latest
reply; `answered`: it came after that request. -/
structure SlotHistory where
  requested : Nat
  reply : Option (Nat × (Fin 6 → UInt8))
  answered : Bool

structure Timed (n h l : Nat) where
  handler : NetworkStackHandler n h l
  now : Nat
  history : Fin h → Fin l → SlotHistory

/-- The record of a slot after a call that leads to `t`. -/
def historyAfter [NeZero h] (s : Timed n h l) (t : NetworkStackHandler n h l) (b : Fin h) (i : Fin l) :
    Call → SlotHistory
  | .incoming f =>
    if IsARPReply f.data f.dataLen ∧ (s.handler.arpEntries b i).IP = arpSender f.data then
      { s.history b i with reply := some (s.now, fun j => f.data (22 + j)), answered := true }
    else s.history b i
  | .outgoing a =>
    let o := (s.handler.outgoing a).1
    if (t.arpEntries b i).IP ≠ (s.handler.arpEntries b i).IP then ⟨s.now, none, false⟩
    else if o.progress = .waitingOnARPReply ∧ o.size = 42 ∧
        (t.arpEntries b i).IP = s.handler.nextHopIP a.destinationIP then
      { s.history b i with requested := s.now, answered := false }
    else s.history b i
  | .pop => s.history b i
  | .tick => s.history b i

def timedStep [NeZero h] (s : Timed n h l) (c : Call) (t : Timed n h l) : Prop :=
  s.handler.call c = some t.handler ∧
    t.now = (match c with
      | .tick => s.now + 1
      | _ => s.now) ∧
    ∀ b i, t.history b i = historyAfter s t.handler b i c

def timedLTS (n h l : Nat) [NeZero n] [NeZero h] : LTS (Timed n h l) Call where
  init s := (handlerLTS n h l).init s.handler ∧ s.now = 0
  step := timedStep

/-! ## The timestamps -/

/-- What the timestamps of a slot say, at tick `now`. -/
structure Recorded (now : Nat) (e : ARPEntry) (r : SlotHistory) : Prop where
  requested_le : r.requested ≤ now
  lastRequested : e.lastRequested = (r.requested % 2 ^ 31 : Nat)
  noReply : r.reply = none → e.lastAnswered = -1 ∧ r.answered = false
  reply_le : ∀ t mac, r.reply = some (t, mac) → t ≤ now ∧ e.lastAnswered = (t % 2 ^ 31 : Nat)
  older : r.answered = false → ∀ t mac, r.reply = some (t, mac) → t < r.requested
  newer : r.answered = true → ∀ t mac, r.reply = some (t, mac) → r.requested ≤ t
  mac : r.answered = true → now < r.requested + 2 ^ 31 → ∀ t mac, r.reply = some (t, mac) → e.MAC = mac

structure TimedInv [NeZero h] (s : Timed n h l) : Prop where
  rep : ∃ a, Rep s.handler a
  table : TableOk s.handler
  timer : s.handler.timerCounter = (s.now % 2 ^ 31 : Nat)
  slots : ∀ b i, (s.handler.arpEntries b i).IP ≠ 0 → Recorded s.now (s.handler.arpEntries b i) (s.history b i)

section
variable {s : NetworkStackHandler n h l} {now : Nat} {e : ARPEntry} {r : SlotHistory}

theorem Recorded.passed_requested (hr : Recorded now e r) (ht : s.timerCounter = (now % 2 ^ 31 : Nat)) :
    s.passedTimeSince e.lastRequested = (now - r.requested) % 2 ^ 31 := by
  rw [hr.lastRequested]
  exact passedTimeSince_eq ht hr.requested_le

theorem Recorded.passed_answered (hr : Recorded now e r) (ht : s.timerCounter = (now % 2 ^ 31 : Nat)) {t : Nat}
    {mac : Fin 6 → UInt8} (hreply : r.reply = some (t, mac)) : s.passedTimeSince e.lastAnswered = (now - t) % 2 ^ 31 := by
  obtain ⟨hle, heq⟩ := hr.reply_le t mac hreply
  rw [heq]
  exact passedTimeSince_eq ht hle

/-- The slot has been answered as far as the code can see. -/
theorem Recorded.reply_of_answered (hr : Recorded now e r) (hun : ¬ Unanswered s e) : ∃ t mac, r.reply = some (t, mac) := by
  cases hreply : r.reply with
  | none => exact absurd (.inl (hr.noReply hreply).1) hun
  | some p => exact ⟨p.1, p.2, rfl⟩

/-- The code takes an answered request for unanswered only if the request is
too long ago. -/
theorem Recorded.answered_of_unanswered (hr : Recorded now e r) (ht : s.timerCounter = (now % 2 ^ 31 : Nat))
    (hun : Unanswered s e) (hnow : now < r.requested + 2 ^ 31) : r.answered = false := by
  by_contra hans
  have hans : r.answered = true := by simpa using hans
  cases hreply : r.reply with
  | none => rw [(hr.noReply hreply).2] at hans; cases hans
  | some p =>
    obtain ⟨hle, heq⟩ := hr.reply_le p.1 p.2 hreply
    have hnew := hr.newer hans p.1 p.2 hreply
    have hle' := hr.requested_le
    rcases hun with hnever | hlater
    · omega
    · rw [hr.passed_requested ht, hr.passed_answered ht hreply] at hlater
      omega

/-- A request is not made at the tick of the latest reply. -/
theorem Recorded.lt_of_askedAgain (hr : Recorded now e r) (ht : s.timerCounter = (now % 2 ^ 31 : Nat))
    (hask : AskedAgain s e) {t : Nat} {mac : Fin 6 → UInt8} (hreply : r.reply = some (t, mac)) : t < now := by
  have hpassed := hr.passed_answered ht hreply
  obtain ⟨hle, heq⟩ := hr.reply_le t mac hreply
  have hreq := hr.lastRequested
  have hpos : 0 < s.passedTimeSince e.lastAnswered := by
    rcases hask with hnever | ⟨hun, hlate⟩ | ⟨_, hold⟩
    · omega
    · rcases hun with hnone | hlater
      · omega
      · omega
    · omega
  rw [hpassed] at hpos
  rcases Nat.lt_or_eq_of_le hle with hlt | heq'
  · exact hlt
  · rw [heq', Nat.sub_self] at hpos
    exact absurd hpos (by decide)

/-! ## What a call does to the record of a slot -/

theorem Recorded.tick (hr : Recorded now e r) : Recorded (now + 1) e r where
  requested_le := Nat.le_succ_of_le hr.requested_le
  lastRequested := hr.lastRequested
  noReply := hr.noReply
  reply_le t mac hreply := by
    obtain ⟨hle, heq⟩ := hr.reply_le t mac hreply
    exact ⟨Nat.le_succ_of_le hle, heq⟩
  older := hr.older
  newer := hr.newer
  mac hans hnow := hr.mac hans (by omega)

theorem Recorded.replied (hr : Recorded now e r) (ht : s.timerCounter = (now % 2 ^ 31 : Nat)) (mac : Fin 6 → UInt8) :
    Recorded now { e with MAC := mac, lastAnswered := s.timerCounter } { r with reply := some (now, mac), answered := true } where
  requested_le := hr.requested_le
  lastRequested := hr.lastRequested
  noReply hnone := by cases hnone
  reply_le t mac' hreply := by
    cases hreply
    exact ⟨Nat.le_refl _, ht⟩
  older hans := by cases hans
  newer _ t mac' hreply := by
    cases hreply
    exact hr.requested_le
  mac _ _ t mac' hreply := by
    cases hreply
    rfl

theorem recorded_assign (e : ARPEntry) (hop : UInt32) (ht : s.timerCounter = (now % 2 ^ 31 : Nat)) :
    Recorded now (e.assign hop s.timerCounter) ⟨now, none, false⟩ where
  requested_le := Nat.le_refl _
  lastRequested := ht
  noReply _ := ⟨rfl, rfl⟩
  reply_le t mac hreply := by cases hreply
  older _ t mac hreply := by cases hreply
  newer hans := by cases hans
  mac hans := by cases hans

theorem Recorded.asked (hr : Recorded now e r) (ht : s.timerCounter = (now % 2 ^ 31 : Nat)) (hask : AskedAgain s e) :
    Recorded now { e with lastRequested := s.timerCounter } { r with requested := now, answered := false } where
  requested_le := Nat.le_refl _
  lastRequested := ht
  noReply hnone := ⟨(hr.noReply hnone).1, rfl⟩
  reply_le := hr.reply_le
  older _ t mac hreply := hr.lt_of_askedAgain ht hask hreply
  newer hans := by cases hans
  mac hans := by cases hans

/-- A broadcast overwrites the address of no request that is answered. -/
theorem Recorded.sent (hr : Recorded now e r) (ht : s.timerCounter = (now % 2 ^ 31 : Nat)) {mac : Fin 6 → UInt8}
    (hto : SendsTo s e mac) (lastUsed : Int) : Recorded now { e with MAC := mac, lastUsed := lastUsed } r where
  requested_le := hr.requested_le
  lastRequested := hr.lastRequested
  noReply := hr.noReply
  reply_le := hr.reply_le
  older := hr.older
  newer := hr.newer
  mac hans hnow t mac' hreply := by
    rcases hto with ⟨hun, _⟩ | ⟨_, _, rfl⟩
    · rw [hr.answered_of_unanswered ht hun hnow] at hans
      cases hans
    · exact hr.mac hans hnow t mac' hreply

end

section
variable [NeZero h] {s t : Timed n h l}

theorem timedInv_reply (hs : TimedInv s) {f : RxFrame} (hf : IsARPReply f.data f.dataLen) {b : Fin h} {i : Fin l}
    (hne : (s.handler.arpEntries b i).IP ≠ 0) :
    Recorded s.now ((learnARP s.handler f.data).arpEntries b i) (historyAfter s (learnARP s.handler f.data) b i (.incoming f)) := by
  have hr := hs.slots b i hne
  unfold historyAfter
  dsimp only
  by_cases hip : (s.handler.arpEntries b i).IP = arpSender f.data
  · rw [if_pos ⟨hf, hip⟩, arpEntries_learnARP hs.table hne hip]
    exact hr.replied hs.timer _
  · rw [if_neg (fun hand => hip hand.2), arpEntries_learnARP_of_ne hip]
    exact hr

theorem timedInv_outgoing (hs : TimedInv s) (a : OutgoingArgs) (b : Fin h) (i : Fin l)
    (hne : ((s.handler.outgoing a).2.arpEntries b i).IP ≠ 0) :
    Recorded s.now ((s.handler.outgoing a).2.arpEntries b i) (historyAfter s (s.handler.outgoing a).2 b i (.outgoing a)) := by
  unfold historyAfter
  dsimp only
  cases outgoing_cases s.handler a with
  | idle _ hp _ ht =>
    rw [ht] at hne ⊢
    rw [if_neg (by simp), if_neg (by rw [hp]; simp)]
    exact hs.slots b i hne
  | full _ hp _ ht =>
    rw [ht] at hne ⊢
    rw [if_neg (by simp), if_neg (by rw [hp]; simp)]
    exact hs.slots b i hne
  | waiting _ _ _ _ hsize ht =>
    rw [ht] at hne ⊢
    rw [if_neg (by simp), if_neg (by rw [hsize]; simp)]
    exact hs.slots b i hne
  | assigned j _ _ _ hnone _ _ _ hw =>
    rw [hw b i] at hne ⊢
    by_cases hslot : b = bucket (s.handler.nextHopIP a.destinationIP) ∧ i = j
    · obtain ⟨rfl, rfl⟩ := hslot
      rw [if_pos ⟨rfl, rfl⟩, if_pos]
      · exact recorded_assign _ _ hs.timer
      · exact fun heq => hnone i heq.symm
    · rw [if_neg hslot] at hne ⊢
      rw [if_neg (by simp), if_neg]
      · exact hs.slots b i hne
      · -- no other slot holds the next hop
        rintro ⟨_, _, hip⟩
        have hb := hs.table.placed b i hne
        rw [hip] at hb
        subst hb
        exact hnone i hip
  | requested j hip hask hp hsize hw =>
    rw [hw b i] at hne ⊢
    by_cases hslot : b = bucket (s.handler.nextHopIP a.destinationIP) ∧ i = j
    · obtain ⟨rfl, rfl⟩ := hslot
      rw [if_pos ⟨rfl, rfl⟩] at hne ⊢
      rw [if_neg (by simp), if_pos ⟨hp, hsize, hip⟩]
      exact (hs.slots _ i hne).asked hs.timer hask
    · rw [if_neg hslot] at hne ⊢
      rw [if_neg (by simp), if_neg]
      · exact hs.slots b i hne
      · rintro ⟨_, _, hi⟩
        have hb := hs.table.placed b i hne
        rw [hi] at hb
        subst hb
        exact hslot ⟨rfl, hs.table.unique _ i j (hi.trans hip.symm) hne⟩
  | sent j mac hip _ hto hframe hw =>
    have hprogress : (s.handler.outgoing a).1.progress ≠ .waitingOnARPReply := by
      rcases hframe.progress with hp | hp <;> rw [hp] <;> decide
    rw [hw b i] at hne ⊢
    by_cases hslot : b = bucket (s.handler.nextHopIP a.destinationIP) ∧ i = j
    · obtain ⟨rfl, rfl⟩ := hslot
      rw [if_pos ⟨rfl, rfl⟩] at hne ⊢
      rw [if_neg (by simp), if_neg (fun hand => hprogress hand.1)]
      exact (hs.slots _ i hne).sent hs.timer hto _
    · rw [if_neg hslot] at hne ⊢
      rw [if_neg (by simp), if_neg (fun hand => hprogress hand.1)]
      exact hs.slots b i hne

theorem timedInv_step (hs : TimedInv s) {c : Call} (hstep : timedStep s c t) : TimedInv t := by
  obtain ⟨hcall, hnow, hhistory⟩ := hstep
  obtain ⟨a, hr⟩ := hs.rep
  obtain ⟨t', hrefines, hrep⟩ := call_refines hr c
  rw [hcall, Option.some.injEq] at hrefines
  subst hrefines
  refine ⟨⟨_, hrep⟩, tableOk_call hr hs.table hcall, ?_, fun b i hne => ?_⟩
  · rw [timer_call hr hcall hs.timer, hnow]
    cases c <;> rfl
  · rw [hhistory b i]
    rcases call_arpEntries hr hcall with ⟨f, rfl, hf, ht⟩ | ⟨o, rfl, ht⟩ | ⟨hother, hout, ht⟩
    · rw [ht] at hne ⊢
      rw [hnow]
      exact timedInv_reply hs hf (ip_learnARP s.handler f.data b i ▸ hne)
    · rw [ht] at hne ⊢
      rw [hnow]
      exact timedInv_outgoing hs o b i hne
    · rw [ht] at hne ⊢
      have hr := hs.slots b i hne
      cases c with
      | incoming f =>
        rw [hnow]
        unfold historyAfter
        dsimp only
        rw [if_neg (fun hand => hother f rfl hand.1)]
        exact hr
      | pop =>
        rw [hnow]
        exact hr
      | outgoing o => exact absurd rfl (hout o)
      | tick =>
        rw [hnow]
        exact hr.tick

end

theorem timedInv_of_reachable [NeZero n] [NeZero h] {s : Timed n h l} (hs : (timedLTS n h l).Reachable s) : TimedInv s := by
  refine LTS.Inductive.reachable (I := TimedInv) ⟨fun s h0 => ?_, fun s c t hI hstep => timedInv_step hI hstep⟩ s hs
  obtain ⟨⟨mem, myMac, myIP, gatewayIP, networkMask, hinit⟩, hnow⟩ := h0
  refine ⟨?_, ?_, ?_, fun b i hne => ?_⟩
  · rw [hinit]
    exact ⟨_, rep_init mem myMac myIP gatewayIP networkMask⟩
  · rw [hinit]
    exact tableOk_init ..
  · rw [hinit, hnow]
    rfl
  · rw [hinit] at hne
    exact absurd rfl hne

/-! ## The frames -/

/-- The call emits an IPv4 frame. -/
def EmitsIPv4 [NeZero h] (s : NetworkStackHandler n h l) (a : OutgoingArgs) : Prop :=
  ((s.outgoing a).1.progress = .done ∨ (s.outgoing a).1.progress = .sendingFragment) ∧ 0 < (s.outgoing a).1.size

/-- The latest request and the latest reply of a slot are less than `2^31`
ticks ago. -/
def RecentEvents (now : Nat) (r : SlotHistory) : Prop :=
  now < r.requested + 2 ^ 31 ∧ ∀ t mac, r.reply = some (t, mac) → now < t + 2 ^ 31

/-- `mac` is the sender of the latest reply, which came after the latest
request and is young enough. -/
def FreshReply (now : Nat) (r : SlotHistory) (mac : Fin 6 → UInt8) : Prop :=
  r.answered = true ∧ ∃ t, r.reply = some (t, mac) ∧ r.requested ≤ t ∧ now - t ≤ ARP_ENTRY_TIMEOUT

/-- The latest request is unanswered, and old enough for a broadcast but not
for the next request. -/
def BroadcastDue (now : Nat) (r : SlotHistory) : Prop :=
  r.answered = false ∧ ARP_REQUEST_TIMEOUT < now - r.requested ∧ now - r.requested ≤ ARP_BROADCAST_ON_FAILURE_TIMEOUT

theorem Recorded.sendsTo {s : NetworkStackHandler n h l} {now : Nat} {e : ARPEntry} {r : SlotHistory}
    (hr : Recorded now e r) (ht : s.timerCounter = (now % 2 ^ 31 : Nat)) (hrecent : RecentEvents now r)
    {mac : Fin 6 → UInt8} (hto : SendsTo s e mac) :
    FreshReply now r mac ∨ BroadcastDue now r ∧ mac = fun _ => 0xFF := by
  obtain ⟨hnow, hreply⟩ := hrecent
  have hle := hr.requested_le
  rcases hto with ⟨hun, hlow, hhigh, hmac⟩ | ⟨hun, hyoung, hmac⟩
  · rw [hr.passed_requested ht, Nat.mod_eq_of_lt (by omega)] at hlow hhigh
    exact .inr ⟨⟨hr.answered_of_unanswered ht hun hnow, hlow, hhigh⟩, hmac⟩
  · left
    obtain ⟨t, mac', hlatest⟩ := hr.reply_of_answered hun
    have htnow := hreply t mac' hlatest
    obtain ⟨htle, _⟩ := hr.reply_le t mac' hlatest
    have hpassed := hr.passed_answered ht hlatest
    rw [Nat.mod_eq_of_lt (by omega)] at hpassed
    have hafter : r.requested ≤ t := by
      by_contra hlt
      refine hun (.inr ?_)
      rw [hpassed, hr.passed_requested ht, Nat.mod_eq_of_lt (by omega)]
      omega
    have hans : r.answered = true := by
      by_contra hnot
      have hbefore := hr.older (by simpa using hnot) t mac' hlatest
      omega
    rw [hpassed] at hyoung
    rw [hmac, hr.mac hans hnow t mac' hlatest]
    exact ⟨hans, t, hlatest, hafter, hyoung⟩

/-- Every IPv4 frame goes to the sender of the latest reply for its next hop,
or to everyone while a broadcast is due. -/
theorem arp_fresh [NeZero n] [NeZero h] (s : Timed n h l) (hs : (timedLTS n h l).Reachable s) (a : OutgoingArgs)
    (hhop : s.handler.nextHopIP a.destinationIP ≠ 0) (hemit : EmitsIPv4 s.handler a) :
    (∃ b i, (s.handler.arpEntries b i).IP = s.handler.nextHopIP a.destinationIP) ∧
      ∀ b i, (s.handler.arpEntries b i).IP = s.handler.nextHopIP a.destinationIP →
        RecentEvents s.now (s.history b i) → ∃ mac : Fin 6 → UInt8,
          (∀ j : Fin 6, (s.handler.outgoing a).1.writeBuffer j = mac j) ∧
          (FreshReply s.now (s.history b i) mac ∨ BroadcastDue s.now (s.history b i) ∧ mac = fun _ => 0xFF) := by
  have hinv := timedInv_of_reachable hs
  obtain ⟨hprogress, hsize⟩ := hemit
  cases outgoing_cases s.handler a with
  | idle _ _ h0 => omega
  | full _ _ h0 => omega
  | waiting _ _ _ _ h0 => omega
  | assigned _ _ _ _ _ hp => rcases hprogress with hp' | hp' <;> rw [hp] at hp' <;> cases hp'
  | requested _ _ _ hp => rcases hprogress with hp' | hp' <;> rw [hp] at hp' <;> cases hp'
  | sent i mac hip _ hto hframe =>
    refine ⟨⟨_, i, hip⟩, fun b j hj hrecent => ⟨mac, hframe.dest, ?_⟩⟩
    have hne : (s.handler.arpEntries b j).IP ≠ 0 := by
      rw [hj]
      exact hhop
    have hb := hinv.table.placed b j hne
    rw [hj] at hb
    subst hb
    have hji := hinv.table.unique _ j i (hj.trans hip.symm) hne
    subst hji
    exact (hinv.slots _ j hne).sendsTo hinv.timer hrecent hto

/-! ## A host that has answered itself -/

/-- One zero byte to 10.0.0.1. -/
def zeroToSelf : OutgoingArgs := ⟨0x0A000001, 0, 0, 17, some fun _ => 0, 1, 0, 0, some fun _ => 0⟩

def timedStart : Timed 2 1 1 := ⟨twoBuffers, 0, fun _ _ => ⟨0, none, false⟩⟩

theorem oneBucket : NeZero 1 := ⟨Nat.one_ne_zero⟩

def timedAsked : Timed 2 1 1 :=
  ⟨(@outgoing 2 1 1 oneBucket twoBuffers zeroToSelf).2, 0, fun b i => @historyAfter 2 1 1 oneBucket timedStart
    (@outgoing 2 1 1 oneBucket twoBuffers zeroToSelf).2 b i (.outgoing zeroToSelf)⟩

def timedAnswered : Timed 2 1 1 :=
  ⟨resolvedBuffers, 0, fun b i => @historyAfter 2 1 1 oneBucket timedAsked resolvedBuffers b i (.incoming ownARPReply)⟩

theorem reachable_timedAnswered : (timedLTS 2 1 1).Reachable timedAnswered := by
  refine ⟨timedStart, [.outgoing zeroToSelf, .incoming ownARPReply], ⟨init_twoBuffers, rfl⟩, ?_⟩
  exact .cons (t := timedAsked) ⟨rfl, rfl, fun _ _ => rfl⟩
    (.cons (t := timedAnswered) ⟨rfl, rfl, fun _ _ => rfl⟩ (.nil _))

theorem history_timedAnswered :
    timedAnswered.history 0 0 = ⟨0, some (0, fun j => ownARPReply.data (22 + j)), true⟩ := by
  have hf : IsARPReply ownARPReply.data ownARPReply.dataLen := ⟨rfl, by decide, rfl, rfl⟩
  have hasked : timedAsked.history 0 0 = ⟨0, none, false⟩ := rfl
  show historyAfter timedAsked resolvedBuffers 0 0 (.incoming ownARPReply) = _
  unfold historyAfter
  dsimp only
  rw [if_pos ⟨hf, rfl⟩, hasked]
  rfl

/-- The frame goes to the sender of the reply. -/
theorem arp_fresh_answered : RecentEvents timedAnswered.now (timedAnswered.history 0 0) ∧ ∃ mac : Fin 6 → UInt8,
    (∀ j : Fin 6, (timedAnswered.handler.outgoing zeroToSelf).1.writeBuffer j = mac j) ∧
    (FreshReply timedAnswered.now (timedAnswered.history 0 0) mac ∨
      BroadcastDue timedAnswered.now (timedAnswered.history 0 0) ∧ mac = fun _ => 0xFF) := by
  have hrecent : RecentEvents timedAnswered.now (timedAnswered.history 0 0) := by
    rw [history_timedAnswered]
    refine ⟨by decide, fun t mac hsome => ?_⟩
    cases hsome
    decide
  refine ⟨hrecent, (arp_fresh timedAnswered reachable_timedAnswered zeroToSelf (by decide) ⟨?_, ?_⟩).2 0 0 rfl hrecent⟩
  · exact .inl rfl
  · decide

end CpuScheduler.L2
