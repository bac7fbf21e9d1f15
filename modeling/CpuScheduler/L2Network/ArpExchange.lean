import CpuScheduler.L2Network.ArpTable

/-!
# Two handlers find each other

Handler `A` asks for the address of `B` (`sendARPRequest`), `B` answers
(`handleOutgoingArpReply`), `A` learns (`incomingARPPacketHelper`) and sends
(`fragmentHeader`). The two frames are the same 42 bytes up to the operation
and the addresses (`arpBytes`), so the fields that the receiver reads are
given once, for both (`ArpWire`).

`arp_exchange`: the whole exchange, with any calls on `A` between its parts as
long as the slot stays with the address of `B`.
-/
namespace CpuScheduler.L2

open Word NetworkStackHandler

variable {n h l : Nat}

/-! ## The bytes of an ARP frame -/

def macBytes (mac : Fin 6 → UInt8) : List UInt8 := [mac 0, mac 1, mac 2, mac 3, mac 4, mac 5]

def arpBytes (ethernetDest : Fin 6 → UInt8) (operation : UInt8) (senderMac : Fin 6 → UInt8) (sender : UInt32)
    (targetMac : Fin 6 → UInt8) (target : UInt32) : List UInt8 :=
  macBytes ethernetDest ++ macBytes senderMac ++ [0x08, 0x06] ++
    [0x00, 0x01, 0x08, 0x00, 0x06, 0x04, 0x00, operation] ++ macBytes senderMac ++ ipBytes sender ++
    macBytes targetMac ++ ipBytes target

/-- The first 42 bytes of `w` are an ARP frame. -/
structure ArpWire (operation : UInt8) (mac : Fin 6 → UInt8) (sender target : UInt32) (w : Nat → UInt8) : Prop where
  bytes : ∃ ethernetDest targetMac, ∀ i, i < 42 → w i =
    (arpBytes ethernetDest operation mac sender targetMac target).getD i 0

section
variable {operation : UInt8} {mac : Fin 6 → UInt8} {sender target : UInt32} {w : Nat → UInt8}

theorem ArpWire.etherType (hw : ArpWire operation mac sender target w) : etherType w = 0x0806 := by
  obtain ⟨_, _, hb⟩ := hw.bytes
  have h12 : w 12 = 0x08 := hb 12 (by decide)
  have h13 : w 13 = 0x06 := hb 13 (by decide)
  rw [L2.etherType, h12, h13]
  rfl

theorem ArpWire.arpProtocol (hw : ArpWire operation mac sender target w) : arpProtocol w = 0x0800 := by
  obtain ⟨_, _, hb⟩ := hw.bytes
  have h16 : w 16 = 0x08 := hb 16 (by decide)
  have h17 : w 17 = 0x00 := hb 17 (by decide)
  rw [L2.arpProtocol, h16, h17]
  rfl

theorem ArpWire.arpOperation (hw : ArpWire operation mac sender target w) : arpOperation w = operation.toNat := by
  obtain ⟨_, _, hb⟩ := hw.bytes
  have h20 : w 20 = 0x00 := hb 20 (by decide)
  have h21 : w 21 = operation := hb 21 (by decide)
  rw [L2.arpOperation, h20, h21, be16_eq]
  exact Nat.zero_add _

theorem ArpWire.arpSender (hw : ArpWire operation mac sender target w) : arpSender w = sender := by
  obtain ⟨_, _, hb⟩ := hw.bytes
  rw [L2.arpSender, hb 28 (by decide), hb 29 (by decide), hb 30 (by decide), hb 31 (by decide)]
  exact be32_split sender

theorem ArpWire.arpTarget (hw : ArpWire operation mac sender target w) : arpTarget w = target := by
  obtain ⟨_, _, hb⟩ := hw.bytes
  rw [L2.arpTarget, hb 38 (by decide), hb 39 (by decide), hb 40 (by decide), hb 41 (by decide)]
  exact be32_split target

theorem ArpWire.senderMac (hw : ArpWire operation mac sender target w) (j : Fin 6) : w (22 + j) = mac j := by
  obtain ⟨_, _, hb⟩ := hw.bytes
  rw [hb (22 + j) (by omega)]
  fin_cases j <;> rfl

end

/-- The frame `f` holds the `size` bytes of `buffer`. -/
structure Delivers (f : RxFrame) (size : Nat) (buffer : Nat → UInt8) : Prop where
  len : f.dataLen = size
  data : ∀ i, i < size → f.data i = buffer i

theorem putBytes_of_lt (buffer : Nat → UInt8) {bytes : List UInt8} {i : Nat} (hi : i < bytes.length) :
    putBytes buffer 0 bytes i = bytes.getD i 0 := by
  rw [putBytes, if_pos (Nat.zero_le _), Nat.sub_zero, List.getElem?_eq_getElem hi, List.getD_eq_getElem?_getD,
    List.getElem?_eq_getElem hi]
  rfl

/-- A request as it arrives. -/
theorem arpWire_request (s : NetworkStackHandler n h l) (ip : UInt32) (buffer : Nat → UInt8) {f : RxFrame}
    (hf : Delivers f 42 (s.sendARPRequest ip buffer).2) : ArpWire 1 s.myMac s.myIP ip f.data := by
  refine ⟨fun _ => 0xFF, fun _ => 0x00, fun i hi => ?_⟩
  rw [hf.data i hi]
  exact putBytes_of_lt buffer hi

/-- A reply as it arrives. -/
theorem arpWire_reply (s : NetworkStackHandler n h l) (req buffer : Nat → UInt8) {r : Nat → UInt8}
    (hr : (s.handleOutgoingArpReply req (some buffer)).2 = some r) {g : RxFrame} (hg : Delivers g 42 r) :
    ArpWire 2 s.myMac s.myIP (arpSender req) g.data := by
  cases hr
  refine ⟨fun j => req (22 + j), fun j => req (22 + j), fun i hi => ?_⟩
  rw [hg.data i hi]
  exact putBytes_of_lt buffer hi

/-! ## What the receiver makes of it -/

theorem incoming_request [NeZero h] (s : NetworkStackHandler n h l) {mac : Fin 6 → UInt8} {sender target : UInt32}
    {f : RxFrame} (hw : ArpWire 1 mac sender target f.data) (hlen : f.dataLen = 42) :
    s.incoming f = some (if target ≠ s.myIP then .notForThisMachine else .arpRequest, s) := by
  unfold incoming
  rw [val_handleIncomingEthernetPacket, if_pos hw.etherType, val_incomingARPPacketHelper, if_neg (by omega),
    if_pos hw.arpProtocol, if_neg (by rw [hw.arpOperation]; decide), if_pos (by rw [hw.arpOperation]; rfl), hw.arpTarget]
  split <;> rfl

theorem isARPReply_of_wire {mac : Fin 6 → UInt8} {sender target : UInt32} {g : RxFrame}
    (hw : ArpWire 2 mac sender target g.data) (hlen : g.dataLen = 42) : IsARPReply g.data g.dataLen :=
  ⟨hw.etherType, by omega, hw.arpProtocol, by rw [hw.arpOperation]; rfl⟩

/-! ## The slot between the frames -/

/-- Slot `i` is with `ip`. -/
def HeldBy [NeZero h] (ip : UInt32) (i : Fin l) (s : NetworkStackHandler n h l) : Prop :=
  (s.arpEntries (bucket ip) i).IP = ip

/-- A reply for `ip` comes from `mac`. -/
def Honest (ip : UInt32) (mac : Fin 6 → UInt8) : Call → Prop
  | .incoming f => IsARPReply f.data f.dataLen → arpSender f.data = ip → ∀ j : Fin 6, f.data (22 + j) = mac j
  | _ => True

/-- What a call can do to the entry of `ip`, as long as it keeps its slot. -/
inductive SlotStep (s : NetworkStackHandler n h l) (ip : UInt32) (e : ARPEntry) (c : Call) : ARPEntry → Prop where
  | same : SlotStep s ip e c e
  | replied (f : RxFrame) : c = .incoming f → IsARPReply f.data f.dataLen → arpSender f.data = ip →
      SlotStep s ip e c { e with MAC := fun j => f.data (22 + j), lastAnswered := s.timerCounter }
  | asked : c ≠ .tick → AskedAgain s e → SlotStep s ip e c { e with lastRequested := s.timerCounter }
  | sent (mac : Fin 6 → UInt8) : c ≠ .tick → SendsTo s e mac →
      SlotStep s ip e c { e with MAC := mac, lastUsed := s.timerCounter }

section
variable [NeZero h] {s t : NetworkStackHandler n h l} {a : Buffers (Fin n)} {ip : UInt32} {i : Fin l}

theorem slotStep_outgoing (hheld : HeldBy ip i s) (o : OutgoingArgs) (hheld' : HeldBy ip i (s.outgoing o).2) :
    SlotStep s ip (s.arpEntries (bucket ip) i) (.outgoing o) ((s.outgoing o).2.arpEntries (bucket ip) i) := by
  cases outgoing_cases s o with
  | idle _ _ _ ht =>
    rw [ht]
    exact .same
  | full _ _ _ ht =>
    rw [ht]
    exact .same
  | waiting _ _ _ _ _ ht =>
    rw [ht]
    exact .same
  | assigned j _ _ _ hnone _ _ _ hw =>
    unfold HeldBy at hheld'
    rw [hw] at hheld' ⊢
    split
    · -- the slot would be given away
      rename_i heq
      rw [if_pos heq] at hheld'
      have hip : s.nextHopIP o.destinationIP = ip := hheld'
      refine absurd ?_ (hnone i)
      rw [hip]
      exact hheld
    · exact .same
  | requested j _ hask _ _ hw =>
    rw [hw]
    split
    · rename_i heq
      rw [← heq.1, ← heq.2] at hask ⊢
      exact .asked (by simp) hask
    · exact .same
  | sent j mac _ _ hto _ hw =>
    rw [hw]
    split
    · rename_i heq
      rw [← heq.1, ← heq.2] at hto ⊢
      exact .sent mac (by simp) hto
    · exact .same

theorem slotStep_call (hr : Rep s a) (hok : TableOk s) (hne : ip ≠ 0) {c : Call} (hc : s.call c = some t)
    (hheld : HeldBy ip i s) (hheld' : HeldBy ip i t) :
    SlotStep s ip (s.arpEntries (bucket ip) i) c (t.arpEntries (bucket ip) i) := by
  rcases call_arpEntries hr hc with ⟨f, rfl, hf, rfl⟩ | ⟨o, rfl, rfl⟩ | ⟨_, _, ht⟩
  · by_cases hip : arpSender f.data = ip
    · have hne' : (s.arpEntries (bucket ip) i).IP ≠ 0 := by
        rw [hheld]
        exact hne
      rw [arpEntries_learnARP hok hne' (hheld.trans hip.symm)]
      exact .replied f rfl hf hip
    · rw [arpEntries_learnARP_of_ne fun heq => hip (heq.symm.trans hheld)]
      exact .same
  · exact slotStep_outgoing hheld o hheld'
  · rw [ht]
    exact .same

/-- The slot was asked for at tick `q`, at most `m` ticks ago. -/
structure Asked (ip : UInt32) (i : Fin l) (m now q : Nat) (s : NetworkStackHandler n h l) : Prop where
  held : HeldBy ip i s
  timer : s.timerCounter = (now % 2 ^ 31 : Nat)
  le : q ≤ now
  young : now ≤ q + m
  lastRequested : (s.arpEntries (bucket ip) i).lastRequested = (q % 2 ^ 31 : Nat)

/-- It was answered by `mac` at tick `r`, at most `k` ticks ago. -/
structure Known (ip : UInt32) (i : Fin l) (mac : Fin 6 → UInt8) (k m now q r : Nat) (s : NetworkStackHandler n h l) : Prop where
  asked : Asked ip i m now q s
  after : q ≤ r
  le : r ≤ now
  young : now ≤ r + k
  lastAnswered : (s.arpEntries (bucket ip) i).lastAnswered = (r % 2 ^ 31 : Nat)
  MAC : (s.arpEntries (bucket ip) i).MAC = mac

theorem tickCount_of_ne {c : Call} (hc : c ≠ .tick) : tickCount [c] = 0 := by
  cases c with
  | tick => exact absurd rfl hc
  | incoming | pop | outgoing => rfl

theorem Asked.step {m now q : Nat} (hs : Asked ip i m now q s) (hr : Rep s a) (hok : TableOk s) (hne : ip ≠ 0) {c : Call}
    (hc : s.call c = some t) (hheld : HeldBy ip i t) : ∃ q', Asked ip i (m + tickCount [c]) (now + tickCount [c]) q' t := by
  have htimer := timer_call hr hc hs.timer
  have hle := hs.le
  have hyoung := hs.young
  have hlast : ∃ q', q' ≤ now + tickCount [c] ∧ now + tickCount [c] ≤ q' + (m + tickCount [c]) ∧
      (t.arpEntries (bucket ip) i).lastRequested = (q' % 2 ^ 31 : Nat) := by
    have hstep := slotStep_call hr hok hne hc hs.held hheld
    generalize t.arpEntries (bucket ip) i = e' at hstep ⊢
    cases hstep with
    | same => exact ⟨q, by omega, by omega, hs.lastRequested⟩
    | replied => exact ⟨q, by omega, by omega, hs.lastRequested⟩
    | asked hnt _ =>
      rw [tickCount_of_ne hnt]
      exact ⟨now, by omega, by omega, hs.timer⟩
    | sent => exact ⟨q, by omega, by omega, hs.lastRequested⟩
  obtain ⟨q', hle', hyoung', hreq⟩ := hlast
  exact ⟨q', hheld, htimer, hle', hyoung', hreq⟩

/-- A young answer is not taken for a missing one, and not asked for again. -/
theorem Known.answered {mac : Fin 6 → UInt8} {k m now q r : Nat} (hs : Known ip i mac k m now q r s) (hm : m < 2 ^ 31) :
    ¬ Unanswered s (s.arpEntries (bucket ip) i) ∧ s.passedTimeSince (s.arpEntries (bucket ip) i).lastAnswered = now - r := by
  have hle := hs.le
  have hafter := hs.after
  have hyoung := hs.asked.young
  have hanswered : s.passedTimeSince (s.arpEntries (bucket ip) i).lastAnswered = now - r := by
    rw [hs.lastAnswered, passedTimeSince_eq hs.asked.timer hs.le, Nat.mod_eq_of_lt (by omega)]
  have hrequested : s.passedTimeSince (s.arpEntries (bucket ip) i).lastRequested = now - q := by
    rw [hs.asked.lastRequested, passedTimeSince_eq hs.asked.timer hs.asked.le, Nat.mod_eq_of_lt (by omega)]
  refine ⟨?_, hanswered⟩
  intro hun
  rcases hun with hnever | hlater
  · have hlast := hs.lastAnswered
    omega
  · omega

theorem Known.sendsTo {mac mac' : Fin 6 → UInt8} {k m now q r : Nat} (hs : Known ip i mac k m now q r s) (hm : m < 2 ^ 31)
    (hto : SendsTo s (s.arpEntries (bucket ip) i) mac') : mac' = mac := by
  obtain ⟨hun, _⟩ := hs.answered hm
  rcases hto with ⟨hun', _⟩ | ⟨_, _, rfl⟩
  · exact absurd hun' hun
  · exact hs.MAC

theorem Known.not_askedAgain {mac : Fin 6 → UInt8} {k m now q r : Nat} (hs : Known ip i mac k m now q r s) (hm : m < 2 ^ 31)
    (hk : k ≤ ARP_ENTRY_TIMEOUT) : ¬ AskedAgain s (s.arpEntries (bucket ip) i) := by
  obtain ⟨hun, hpassed⟩ := hs.answered hm
  have hyoung := hs.young
  intro hask
  rcases hask with hnever | ⟨hun', _⟩ | ⟨_, hold⟩
  · have hlast := hs.asked.lastRequested
    omega
  · exact hun hun'
  · omega

theorem Known.step {mac : Fin 6 → UInt8} {k m now q r : Nat} (hs : Known ip i mac k m now q r s) (hr : Rep s a)
    (hok : TableOk s) (hne : ip ≠ 0) (hm : m < 2 ^ 31) (hk : k ≤ ARP_ENTRY_TIMEOUT) {c : Call} (hc : s.call c = some t)
    (hhonest : Honest ip mac c) (hheld : HeldBy ip i t) :
    ∃ r', Known ip i mac (k + tickCount [c]) (m + tickCount [c]) (now + tickCount [c]) q r' t := by
  have htimer := timer_call hr hc hs.asked.timer
  have hle := hs.le
  have hle' := hs.asked.le
  have hyoung := hs.young
  have hyoung' := hs.asked.young
  have hafter := hs.after
  have hlast : ∃ r', q ≤ r' ∧ r' ≤ now + tickCount [c] ∧ now + tickCount [c] ≤ r' + (k + tickCount [c]) ∧
      (t.arpEntries (bucket ip) i).lastAnswered = (r' % 2 ^ 31 : Nat) ∧ (t.arpEntries (bucket ip) i).MAC = mac ∧
      (t.arpEntries (bucket ip) i).lastRequested = (q % 2 ^ 31 : Nat) := by
    have hstep := slotStep_call hr hok hne hc hs.asked.held hheld
    generalize t.arpEntries (bucket ip) i = e' at hstep ⊢
    cases hstep with
    | same => exact ⟨r, hafter, by omega, by omega, hs.lastAnswered, hs.MAC, hs.asked.lastRequested⟩
    | replied f hf hreply hsender =>
      subst hf
      refine ⟨now, hle', by omega, by omega, hs.asked.timer, ?_, hs.asked.lastRequested⟩
      funext j
      exact hhonest hreply hsender j
    | asked _ hask => exact absurd hask (hs.not_askedAgain hm hk)
    | sent mac' _ hto =>
      exact ⟨r, hafter, by omega, by omega, hs.lastAnswered, hs.sendsTo hm hto, hs.asked.lastRequested⟩
  obtain ⟨r', h1, h2, h3, h4, h5, h6⟩ := hlast
  exact ⟨r', ⟨hheld, htimer, by omega, by omega, h6⟩, h1, h2, h3, h4, h5⟩

end

/-- The handler while slot `i` stays with `ip`. -/
def heldLTS (n h l : Nat) [NeZero n] [NeZero h] (ip : UInt32) (i : Fin l) : LTS (NetworkStackHandler n h l) Call :=
  (handlerLTS n h l).Guarded fun s _ => HeldBy ip i s

/-- The same, when every reply for `ip` comes from `mac`. -/
def honestLTS (n h l : Nat) [NeZero n] [NeZero h] (ip : UInt32) (i : Fin l) (mac : Fin 6 → UInt8) :
    LTS (NetworkStackHandler n h l) Call :=
  (handlerLTS n h l).Guarded fun s c => HeldBy ip i s ∧ Honest ip mac c

section
variable [NeZero n] [NeZero h] {s t : NetworkStackHandler n h l} {ip : UInt32} {i : Fin l} {cs : List Call}

theorem held_of_run {P : NetworkStackHandler n h l → Call → Prop} (hP : ∀ s c, P s c → HeldBy ip i s)
    (hrun : ((handlerLTS n h l).Guarded P).Run s cs t) (ht : HeldBy ip i t) : HeldBy ip i s := by
  cases hrun with
  | nil => exact ht
  | cons hstep _ => exact hP _ _ hstep.1

theorem asked_run (hne : ip ≠ 0) {m now q : Nat} (hs : Asked ip i m now q s) (hreach : (handlerLTS n h l).Reachable s)
    (hrun : (heldLTS n h l ip i).Run s cs t) (hheld : HeldBy ip i t) :
    ∃ now' q', Asked ip i (m + tickCount cs) now' q' t ∧ (handlerLTS n h l).Reachable t ∧ t.nextHopIP = s.nextHopIP := by
  induction hrun generalizing m now q with
  | nil => exact ⟨now, q, hs, hreach, rfl⟩
  | @cons s u t c cs hstep hrun ih =>
    obtain ⟨a, hr⟩ := rep_of_reachable hreach
    have hu : HeldBy ip i u := held_of_run (fun _ _ hp => hp) hrun hheld
    obtain ⟨q', hq'⟩ := hs.step hr (tableOk_of_reachable hreach) hne hstep.2 hu
    obtain ⟨now', q'', hasked, hreach', hhop⟩ := ih hq' (hreach.step hstep.2) hheld
    rw [Nat.add_assoc, ← tickCount_cons] at hasked
    exact ⟨now', q'', hasked, hreach', hhop.trans (call_nextHopIP hr hstep.2)⟩

theorem known_run (hne : ip ≠ 0) {mac : Fin 6 → UInt8} {k m now q r : Nat} (hs : Known ip i mac k m now q r s)
    (hreach : (handlerLTS n h l).Reachable s) (hrun : (honestLTS n h l ip i mac).Run s cs t) (hheld : HeldBy ip i t)
    (hm : m + tickCount cs < 2 ^ 31) (hk : k + tickCount cs ≤ ARP_ENTRY_TIMEOUT) :
    ∃ now' q' r', Known ip i mac (k + tickCount cs) (m + tickCount cs) now' q' r' t ∧ t.nextHopIP = s.nextHopIP := by
  induction hrun generalizing k m now q r with
  | nil => exact ⟨now, q, r, hs, rfl⟩
  | @cons s u t c cs hstep hrun ih =>
    obtain ⟨a, hr⟩ := rep_of_reachable hreach
    have hu : HeldBy ip i u := held_of_run (fun _ _ hp => hp.1) hrun hheld
    rw [tickCount_cons, ← Nat.add_assoc] at hm hk
    obtain ⟨r', hr'⟩ := hs.step hr (tableOk_of_reachable hreach) hne (by omega) (by omega) hstep.2 hstep.1.2 hu
    obtain ⟨now', q'', r'', hknown, hhop⟩ := ih hr' (hreach.step hstep.2) hheld hm hk
    rw [Nat.add_assoc, Nat.add_assoc, ← tickCount_cons] at hknown
    exact ⟨now', q'', r'', hknown, hhop.trans (call_nextHopIP hr hstep.2)⟩

end

/-! ## The exchange -/

section
variable {n' h' l' : Nat}

/-- The call gives slot `i` to `ip`. -/
def Allocates [NeZero h] (s : NetworkStackHandler n h l) (a : OutgoingArgs) (ip : UInt32) (i : Fin l) : Prop :=
  ¬ HeldBy ip i s ∧ HeldBy ip i (s.outgoing a).2

/-- `g` carries the reply of `B` to the request in `f`. -/
def RepliesTo (B : NetworkStackHandler n h l) (f g : RxFrame) : Prop :=
  ∃ buffer r, B.handleOutgoingArpReply f.data (some buffer) = (42, some r) ∧ Delivers g 42 r

/-- Slot `i` gets `mac`, the other slots stay. -/
structure Learned [NeZero h] (s t : NetworkStackHandler n h l) (ip : UInt32) (i : Fin l) (mac : Fin 6 → UInt8) : Prop where
  held : HeldBy ip i t
  MAC : (t.arpEntries (bucket ip) i).MAC = mac
  others : ∀ b j, ¬ (b = bucket ip ∧ j = i) → t.arpEntries b j = s.arpEntries b j

/-- The call emits an IPv4 frame to `mac`, and whoever has the address `ip`
takes it. -/
structure Reaches [NeZero h] (s : NetworkStackHandler n h l) (a : OutgoingArgs) (ip : UInt32) (mac : Fin 6 → UInt8) : Prop where
  emits : ((s.outgoing a).1.progress = .done ∨ (s.outgoing a).1.progress = .sendingFragment) ∧ 34 < (s.outgoing a).1.size
  dest : ∀ j : Fin 6, (s.outgoing a).1.writeBuffer j = mac j
  received : ∀ f, Carries f (s.outgoing a).1 → ∀ (n' h' l' : Nat) [NeZero n'] [NeZero h'] (B : NetworkStackHandler n' h' l'),
    (handlerLTS n' h' l').Reachable B → B.myIP = ip → ∃ B', B.incoming f = some (.ipv4Packet, B')

structure Exchange [NeZero n] [NeZero h] [NeZero h'] (A : NetworkStackHandler n h l) (B : NetworkStackHandler n' h' l')
    (a : OutgoingArgs) (i : Fin l) : Prop where
  waits : (A.outgoing a).1.progress = .waitingOnARPReply ∧ (A.outgoing a).1.size = 42
  asks : ∀ f, Delivers f 42 (A.outgoing a).1.writeBuffer →
    B.incoming f = some (.arpRequest, B) ∧
      (∀ (n'' h'' l'' : Nat) [NeZero h''] (C : NetworkStackHandler n'' h'' l''), C.myIP ≠ B.myIP →
        C.incoming f = some (.notForThisMachine, C)) ∧
      ∀ buffer, ∃ r, B.handleOutgoingArpReply f.data (some buffer) = (42, some r)
  learns : ∀ f g cs s, Delivers f 42 (A.outgoing a).1.writeBuffer → RepliesTo B f g →
    (heldLTS n h l B.myIP i).Run (A.outgoing a).2 cs s → HeldBy B.myIP i s →
    ∃ t, s.incoming g = some (.arpReply, t) ∧ Learned s t B.myIP i B.myMac ∧
      ∀ cs' u, (honestLTS n h l B.myIP i B.myMac).Run t cs' u → HeldBy B.myIP i u →
        tickCount cs' ≤ ARP_ENTRY_TIMEOUT → tickCount cs + tickCount cs' < 2 ^ 31 →
        ∀ a' data buffer, a'.destinationIP = B.myIP → HasWork a' data buffer → Reaches u a' B.myIP B.myMac

theorem reaches_of_known [NeZero h] {s : NetworkStackHandler n h l} (hok : TableOk s) {ip : UInt32} (hne : ip ≠ 0)
    {i : Fin l} {mac : Fin 6 → UInt8} {k m now q r : Nat} (hs : Known ip i mac k m now q r s) (hm : m < 2 ^ 31)
    (hk : k ≤ ARP_ENTRY_TIMEOUT) {a : OutgoingArgs} (hdest : a.destinationIP = ip) (hhop : s.nextHopIP ip = ip)
    {data buffer : Nat → UInt8} (hwork : HasWork a data buffer) : Reaches s a ip mac := by
  have hheld : (s.arpEntries (bucket ip) i).IP = ip := hs.asked.held
  have hne' : (s.arpEntries (bucket ip) i).IP ≠ 0 := by
    rw [hheld]
    exact hne
  have hslot {j : Fin l} (hj : (s.arpEntries (bucket ip) j).IP = ip) : j = i :=
    (hok.unique (bucket ip) i j (hheld.trans hj.symm) hne').symm
  have hcase := outgoing_cases s a
  rw [hdest, hhop] at hcase
  cases hcase with
  | idle hidle => exact absurd ⟨data, buffer, hwork⟩ hidle
  | full hnone => exact absurd hheld (hnone i)
  | assigned _ _ _ _ hnone => exact absurd hheld (hnone i)
  | requested j hj hask =>
    rw [hslot hj] at hask
    exact absurd hask (hs.not_askedAgain hm hk)
  | waiting j hj hun =>
    rw [hslot hj] at hun
    exact absurd hun (hs.answered hm).1
  | sent j mac' hj _ hto hframe _ =>
    rw [hslot hj] at hto
    have hmac := hs.sendsTo hm hto
    subst hmac
    obtain ⟨data', sent, size, last, hpos, hsize, heq, hwire⟩ := hframe.wire
    refine ⟨⟨hframe.progress, by omega⟩, hframe.dest, fun f hf n' h' l' _ _ B hB hip => ?_⟩
    have hfwire := hf.wire heq hwire
    have hfor : IsIPv4For f.data B.myIP f.dataLen := by
      rw [hf.len, heq, hip, ← hdest]
      exact hfwire.isIPv4For hsize
    obtain ⟨b, hrep⟩ := rep_of_reachable hB
    obtain ⟨B', haccept, _⟩ := acceptFrame_spec hrep f.data
    refine ⟨B', ?_⟩
    unfold incoming
    rw [handleIncoming_of_isIPv4For B f.data f.dataLen hfor, haccept]

/-- A call that gives a slot away sends a request. -/
theorem request_of_allocates [NeZero h] {s : NetworkStackHandler n h l} {a : OutgoingArgs} {ip : UInt32} {i : Fin l}
    (hhop : s.nextHopIP a.destinationIP = ip) (halloc : Allocates s a ip i) :
    ∃ buffer, (s.outgoing a).1.progress = .waitingOnARPReply ∧ (s.outgoing a).1.size = 42 ∧
      (s.outgoing a).1.writeBuffer = (s.sendARPRequest ip buffer).2 ∧
      ((s.outgoing a).2.arpEntries (bucket ip) i).lastRequested = s.timerCounter := by
  obtain ⟨hfree, hheld⟩ := halloc
  have hchanged (hip : ((s.outgoing a).2.arpEntries (bucket ip) i).IP = (s.arpEntries (bucket ip) i).IP) : False :=
    hfree (hip.symm.trans hheld)
  have hcase := outgoing_cases s a
  rw [hhop] at hcase
  cases hcase with
  | idle _ _ _ ht => exact absurd (by rw [ht]) hchanged
  | full _ _ _ ht => exact absurd (by rw [ht]) hchanged
  | waiting _ _ _ _ _ ht => exact absurd (by rw [ht]) hchanged
  | requested j _ _ _ _ hw => exact absurd (hw.ip rfl _ _) hchanged
  | sent j mac _ _ _ _ hw => exact absurd (hw.ip rfl _ _) hchanged
  | assigned j data buffer _ _ hp hsize hbuffer hw =>
    refine ⟨buffer, hp, hsize, hbuffer, ?_⟩
    have hi := hw (bucket ip) i
    by_cases hij : i = j
    · rw [if_pos ⟨rfl, hij⟩] at hi
      rw [hi]
      rfl
    · rw [if_neg (fun hand => hij hand.2)] at hi
      exact absurd (by rw [hi]) hchanged

section Reply
variable [NeZero h] {s : NetworkStackHandler n h l} {ip target : UInt32} {i : Fin l} {mac : Fin 6 → UInt8} {g : RxFrame}

theorem incoming_reply (hw : ArpWire 2 mac ip target g.data) (hlen : g.dataLen = 42) :
    s.incoming g = some (.arpReply, learnARP s g.data) :=
  handleIncoming_of_isARPReply s g.data g.dataLen (isARPReply_of_wire hw hlen)

/-- The reply goes to the slot, and to no other. -/
theorem learned_of_reply (hok : TableOk s) (hne : ip ≠ 0) (hheld : HeldBy ip i s) (hw : ArpWire 2 mac ip target g.data) :
    Learned s (learnARP s g.data) ip i mac := by
  have hne' : (s.arpEntries (bucket ip) i).IP ≠ 0 := by
    rw [hheld]
    exact hne
  refine ⟨?_, ?_, fun b j hbj => ?_⟩
  · unfold HeldBy
    rw [ip_learnARP]
    exact hheld
  · rw [arpEntries_learnARP hok hne' (hheld.trans hw.arpSender.symm)]
    exact funext hw.senderMac
  · refine arpEntries_learnARP_of_ne fun heq => hbj ?_
    rw [hw.arpSender] at heq
    have hbj' : (s.arpEntries b j).IP ≠ 0 := by
      rw [heq]
      exact hne
    have hb := hok.placed b j hbj'
    rw [heq] at hb
    subst hb
    exact ⟨rfl, hok.unique _ j i (heq.trans hheld.symm) hbj'⟩

theorem known_of_reply (hok : TableOk s) (hne : ip ≠ 0) {m now q : Nat} (hs : Asked ip i m now q s)
    (hw : ArpWire 2 mac ip target g.data) : Known ip i mac 0 m now q now (learnARP s g.data) := by
  have hne' : (s.arpEntries (bucket ip) i).IP ≠ 0 := by
    rw [hs.held]
    exact hne
  have hlearned := learned_of_reply hok hne hs.held hw
  have hentry := arpEntries_learnARP hok hne' (hs.held.trans hw.arpSender.symm)
  have htimer : (learnARP s g.data).timerCounter = s.timerCounter := by rw [(sameBuffers_learnARP s g.data).eq]
  refine ⟨⟨hlearned.held, by rw [htimer]; exact hs.timer, hs.le, hs.young, ?_⟩, hs.le, Nat.le_refl _, Nat.le_refl _, ?_,
    hlearned.MAC⟩
  · rw [hentry]
    exact hs.lastRequested
  · rw [hentry]
    exact hs.timer

end Reply

/-- A handler replies for its own address alone, so the replies of handlers
are honest if no two with address `ip` differ in their MAC. -/
theorem honest_of_repliesTo (C : NetworkStackHandler n h l) {ip : UInt32} {mac : Fin 6 → UInt8}
    (hC : C.myIP = ip → C.myMac = mac) {f g : RxFrame} (hg : RepliesTo C f g) : Honest ip mac (.incoming g) := by
  obtain ⟨buffer, r, hr, hg⟩ := hg
  have hw := arpWire_reply C f.data buffer (congrArg Prod.snd hr) hg
  intro _ hsender j
  rw [hw.arpSender] at hsender
  rw [hw.senderMac, hC hsender]

/-- The slot has just been asked for. -/
theorem asked_of_allocates [NeZero n] [NeZero h] {s : NetworkStackHandler n h l} (hs : (handlerLTS n h l).Reachable s)
    {a : OutgoingArgs} {ip : UInt32} {i : Fin l} (hhop : s.nextHopIP a.destinationIP = ip) (halloc : Allocates s a ip i) :
    Asked ip i 0 s.timerCounter.toNat s.timerCounter.toNat (s.outgoing a).2 := by
  obtain ⟨_, _, _, _, hrequested⟩ := request_of_allocates hhop halloc
  obtain ⟨hlow, hhigh⟩ := timer_of_reachable hs
  have htimer : (s.outgoing a).2.timerCounter = s.timerCounter := by rw [(sameBuffers_outgoing s a).eq]
  refine ⟨halloc.2, ?_, Nat.le_refl _, Nat.le_refl _, ?_⟩
  · rw [htimer]
    omega
  · rw [hrequested]
    omega

/-- The first call for the address of `B` that gets a slot resolves it. -/
theorem arp_exchange [NeZero n] [NeZero h] [NeZero h'] {A : NetworkStackHandler n h l} {B : NetworkStackHandler n' h' l'}
    (hA : (handlerLTS n h l).Reachable A) (hne : B.myIP ≠ 0) (hhop : A.nextHopIP B.myIP = B.myIP) {a : OutgoingArgs}
    (hdest : a.destinationIP = B.myIP) {i : Fin l} (halloc : Allocates A a B.myIP i) : Exchange A B a i := by
  have hhopA : A.nextHopIP a.destinationIP = B.myIP := by rw [hdest, hhop]
  obtain ⟨buffer, hprogress, hsize, hbuffer, _⟩ := request_of_allocates hhopA halloc
  constructor
  case waits => exact ⟨hprogress, hsize⟩
  case asks =>
    intro f hf
    rw [hbuffer] at hf
    have hw := arpWire_request A B.myIP buffer hf
    refine ⟨?_, fun n'' h'' l'' _ C hC => ?_, fun buffer' => ⟨_, rfl⟩⟩
    · rw [incoming_request B hw hf.len, if_neg (not_not.mpr rfl)]
    · rw [incoming_request C hw hf.len, if_pos hC.symm]
  case learns =>
    intro f g cs s _ hreply hrun hheld
    obtain ⟨buffer', r, hr, hg⟩ := hreply
    have hw := arpWire_reply B f.data buffer' (congrArg Prod.snd hr) hg
    have hincoming : s.incoming g = some (.arpReply, learnARP s g.data) := incoming_reply hw hg.len
    have hasks : (handlerLTS n h l).step A (.outgoing a) (A.outgoing a).2 := rfl
    obtain ⟨now, q, hasked, hreach, hhop'⟩ := asked_run hne (asked_of_allocates hA hhopA halloc) (hA.step hasks) hrun hheld
    rw [Nat.zero_add] at hasked
    have hok := tableOk_of_reachable hreach
    refine ⟨learnARP s g.data, hincoming, learned_of_reply hok hne hheld hw,
      fun cs' u hrun' hheld' hticks hall a' data buffer'' hdest' hwork => ?_⟩
    have hlearns : (handlerLTS n h l).step s (.incoming g) (learnARP s g.data) := by
      show (s.incoming g).map (·.2) = _
      rw [hincoming]
      rfl
    have hreach' := hreach.step hlearns
    obtain ⟨now', q', r', hknown, hhop''⟩ :=
      known_run hne (known_of_reply hok hne hasked hw) hreach' hrun' hheld' hall (by omega)
    have hhopu : u.nextHopIP B.myIP = B.myIP := by
      obtain ⟨repA, hrepA⟩ := rep_of_reachable hA
      obtain ⟨repS, hrepS⟩ := rep_of_reachable hreach
      rw [hhop'', call_nextHopIP hrepS hlearns, hhop', call_nextHopIP hrepA hasks]
      exact hhop
    have hreachu : (handlerLTS n h l).Reachable u := hreach'.run hrun'.of_guarded
    exact reaches_of_known (tableOk_of_reachable hreachu) hne hknown hall (by omega) hdest' hhopu hwork

end

/-! ## 10.0.0.1 and 10.0.0.2 -/

def otherHost : NetworkStackHandler 2 1 1 := { twoBuffers with myMac := fun _ => 4, myIP := 0x0A000002 }

/-- One zero byte to 10.0.0.2. -/
def zeroToOther : OutgoingArgs := ⟨0x0A000002, 0, 0, 17, some fun _ => 0, 1, 0, 0, some fun _ => 0⟩

theorem arp_exchange_otherHost : Allocates twoBuffers zeroToOther otherHost.myIP 0 ∧
    Exchange twoBuffers otherHost zeroToOther 0 := by
  have halloc : Allocates twoBuffers zeroToOther otherHost.myIP 0 := ⟨by unfold HeldBy; decide, rfl⟩
  refine ⟨halloc, arp_exchange ?_ (by decide) (by decide) rfl halloc⟩
  exact ⟨twoBuffers, [], init_twoBuffers, .nil _⟩

end CpuScheduler.L2
