import CpuScheduler.L2Network.PhysicalInterface

/-!
# What the card hands over

The invariant of the receive ring is `Receives`: the frames that the card has
stored and the driver has not read are those from `currentRx` to the head, and
the tail is the descriptor before `currentRx`. So the card never writes to a
buffer that is still to be read, at most 31 frames wait, and the packet
handler gets every frame once, in order and as the card stored it
(`received_in_order`).

What is missing is the drain itself: the interrupt handler tests the causes
one after the other and looks into the ring only if the receive timer is the
only one. `reception_stops`: a card that also reports few free descriptors
whenever half of the ring is used is never read again once 15 frames wait.
-/
namespace CpuScheduler.L2

open Cyclic

namespace NetworkCard

variable {s t : NetworkCard} {waiting : List (List UInt8)}

/-- In the packet handler the frame at `currentRx` is counted as passed. -/
def Logged (reception : Reception) (passed waiting accepted : List (List UInt8)) : Prop :=
  match reception with
  | .handling => ∃ frame rest, waiting = frame :: rest ∧ passed.getLast? = some frame ∧ passed ++ rest = accepted
  | _ => passed ++ waiting = accepted

structure Receives (s : NetworkCard) (waiting : List (List UInt8)) : Prop where
  ring : Cyclic.Holds s.interface.rxFrame s.interface.currentRx s.registers.rdh waiting
  tail : s.registers.rdt = slot s.interface.currentRx (32 - 1)
  length : waiting.length ≤ 31
  addr : ∀ i, (s.interface.rxDescs i).addrLow = RX_BUFFER_SIZE * i
  fits : ∀ i, (s.interface.rxDescs i).status &&& 0x1 ≠ 0 → (s.interface.rxDescs i).length.toNat ≤ RX_BUFFER_SIZE
  registered : s.interface.interruptsEnabled = true ∨ s.reception ≠ .idle → s.interface.pPacketHandler = true
  log : Logged s.reception s.passed waiting s.accepted

theorem receives_init (rxBuffers txBuffers : Nat → UInt8) (rxLength : RxIndex → UInt16) (ctrl : UInt32) :
    (init rxBuffers txBuffers rxLength ctrl).Receives [] where
  ring := by
    have hframe : (init rxBuffers txBuffers rxLength ctrl).interface.rxFrame = fun _ => none := by
      funext i
      exact if_pos (show (0 : UInt8) &&& 0x1 = 0 from rfl)
    rw [hframe]
    exact Cyclic.Holds.empty _
  tail := by
    apply Fin.ext
    rfl
  length := Nat.zero_le _
  addr _ := rfl
  fits i h := absurd (show (0 : UInt8) &&& 0x1 = 0 from rfl) h
  registered h := by
    rcases h with h | h
    · cases h
    · exact absurd rfl h
  log := rfl

/-! ## Steps of the sender -/

/-- What the receive ring is made of is the same. -/
structure SameReceiver (s t : NetworkCard) : Prop where
  rxDescs : t.interface.rxDescs = s.interface.rxDescs
  rxBufferSpace : t.interface.rxBufferSpace = s.interface.rxBufferSpace
  currentRx : t.interface.currentRx = s.interface.currentRx
  interruptsEnabled : t.interface.interruptsEnabled = s.interface.interruptsEnabled
  pPacketHandler : t.interface.pPacketHandler = s.interface.pPacketHandler
  rdh : t.registers.rdh = s.registers.rdh
  rdt : t.registers.rdt = s.registers.rdt
  icr : t.registers.icr = s.registers.icr
  reception : t.reception = s.reception
  accepted : t.accepted = s.accepted
  passed : t.passed = s.passed

theorem SameReceiver.refl (s : NetworkCard) : SameReceiver s s := ⟨rfl, rfl, rfl, rfl, rfl, rfl, rfl, rfl, rfl, rfl, rfl⟩

theorem Receives.same (h : s.Receives waiting) (hs : SameReceiver s t) : t.Receives waiting := by
  have hframe : t.interface.rxFrame = s.interface.rxFrame := by
    funext i
    rw [PhysicalNetworkInterface.rxFrame, hs.rxDescs, hs.rxBufferSpace, PhysicalNetworkInterface.rxFrame]
  constructor
  · rw [hframe, hs.currentRx, hs.rdh]
    exact h.ring
  · rw [hs.rdt, hs.currentRx]
    exact h.tail
  · exact h.length
  · rw [hs.rxDescs]
    exact h.addr
  · rw [hs.rxDescs]
    exact h.fits
  · rw [hs.interruptsEnabled, hs.reception, hs.pPacketHandler]
    exact h.registered
  · rw [hs.reception, hs.passed, hs.accepted]
    exact h.log

theorem same_transmit (ht : s.transmit = some t) : SameReceiver s t := by
  unfold transmit at ht
  split at ht
  · cases ht
  · split at ht
    · cases ht
    all_goals
      split at ht
      · cases ht
      · cases ht
        exact ⟨rfl, rfl, rfl, rfl, rfl, rfl, rfl, rfl, rfl, rfl, rfl⟩

theorem same_write (s : NetworkCard) (frame : List UInt8) : SameReceiver s { s with interface := s.interface.write frame } := by
  unfold PhysicalNetworkInterface.write
  split <;> exact ⟨rfl, rfl, rfl, rfl, rfl, rfl, rfl, rfl, rfl, rfl, rfl⟩

theorem same_finishWriteBuffer (s : NetworkCard) (length : UInt32) (isIpv4Packet : Bool) :
    SameReceiver s (s.finishWriteBuffer length isIpv4Packet) := by
  unfold finishWriteBuffer PhysicalNetworkInterface.finishWriteBuffer
  cases s.interface.descriptorFor length isIpv4Packet with
  | none => exact .refl s
  | some view => exact ⟨rfl, rfl, rfl, rfl, rfl, rfl, rfl, rfl, rfl, rfl, rfl⟩

/-! ## Steps of the card -/

/-- The card has a descriptor left exactly as long as fewer than 31 frames
wait. -/
theorem Receives.rdh_ne_rdt_iff (h : s.Receives waiting) : s.registers.rdh ≠ s.registers.rdt ↔ waiting.length < 31 := by
  have hlength := h.length
  rw [h.ring.producer, h.tail]
  constructor
  · intro hne
    by_contra hfull
    exact hne (congrArg (slot s.interface.currentRx) (by omega))
  · intro hlt heq
    have hsame := slot_inj s.interface.currentRx (show waiting.length < 32 by omega) lastRx_lt heq
    omega

theorem Receives.head_free (h : s.Receives waiting) : s.interface.rxFrame s.registers.rdh = none := by
  have hlength := h.length
  have hslot := h.ring.slot waiting.length (show waiting.length < 32 by omega)
  rwa [← h.ring.producer, List.getElem?_eq_none (Nat.le_refl _)] at hslot

/-- The buffer at the head is not one that waits to be read. -/
theorem receives_receive (h : s.Receives waiting) {bytes : List UInt8} (ht : s.receive bytes = some t) : t.Receives waiting := by
  unfold receive at ht
  split at ht
  · cases ht
  · rename_i hno
    cases ht
    rw [not_or, Nat.not_lt] at hno
    refine ⟨?_, h.tail, h.length, h.addr, h.fits, h.registered, h.log⟩
    dsimp only
    have hframe : PhysicalNetworkInterface.rxFrame { s.interface with
        rxBufferSpace := putBytes s.interface.rxBufferSpace (s.interface.rxDescs s.registers.rdh).addrLow bytes } =
        s.interface.rxFrame := by
      funext i
      have hfits := h.fits i
      unfold PhysicalNetworkInterface.rxFrame
      by_cases hready : (s.interface.rxDescs i).status &&& 0x1 = 0
      · rw [if_pos hready, if_pos hready]
      · have hne : i ≠ s.registers.rdh := by
          rintro rfl
          have hfree := h.head_free
          rw [PhysicalNetworkInterface.rxFrame, if_neg hready] at hfree
          cases hfree
        rw [if_neg hready, if_neg hready, h.addr, bytesFrom_putBytes _ (Fin.val_ne_of_ne hne) (hfits hready) hno.2]
    rw [hframe]
    exact h.ring

/-- The frame that is stored goes to the end of those that wait. -/
theorem receives_writeBack (h : s.Receives waiting) {length : UInt16} {status : UInt8} {threshold : Bool}
    (ht : s.writeBack length status threshold = some t) : ∃ frame, waiting.length < 31 ∧ t.Receives (waiting ++ [frame]) := by
  unfold writeBack at ht
  split at ht
  · cases ht
  · rename_i hno
    cases ht
    rw [not_or, not_or, Nat.not_lt] at hno
    obtain ⟨hhead, hlength, hstatus⟩ := hno
    have hroom := h.rdh_ne_rdt_iff.mp hhead
    refine ⟨bytesFrom s.interface.rxBufferSpace (RX_BUFFER_SIZE * s.registers.rdh) length.toNat, hroom, ?_⟩
    have hframe : PhysicalNetworkInterface.rxFrame { s.interface with
        rxDescs := Function.update s.interface.rxDescs s.registers.rdh
          ⟨(s.interface.rxDescs s.registers.rdh).addrLow, length, status⟩ } =
        Function.update s.interface.rxFrame s.registers.rdh
          (some (bytesFrom s.interface.rxBufferSpace (RX_BUFFER_SIZE * s.registers.rdh) length.toNat)) := by
      funext i
      by_cases hi : i = s.registers.rdh
      · subst hi
        simp only [PhysicalNetworkInterface.rxFrame, Function.update_self, if_neg hstatus]
      · simp only [PhysicalNetworkInterface.rxFrame, Function.update_of_ne hi]
    refine ⟨?_, h.tail, ?_, fun i => ?_, fun i hi => ?_, h.registered, ?_⟩
    · dsimp only
      rw [hframe]
      exact h.ring.push h.head_free _
    · rw [List.length_append]
      exact hroom
    · by_cases hi : i = s.registers.rdh
      · subst hi
        simp only [Function.update_self, h.addr]
      · simp only [Function.update_of_ne hi, h.addr]
    · by_cases hr : i = s.registers.rdh
      · subst hr
        simpa only [Function.update_self] using hlength
      · simp only [Function.update_of_ne hr] at hi ⊢
        exact h.fits i hi
    · have hlog := h.log
      dsimp only
      rw [h.addr]
      unfold Logged at hlog ⊢
      split at hlog
      · obtain ⟨frame, rest, hw, hlast, hall⟩ := hlog
        exact ⟨frame, rest ++ [_], by rw [hw]; rfl, hlast, by rw [← hall, List.append_assoc]⟩
      · rw [← hlog, List.append_assoc]

/-! ## Steps of the driver -/

theorem receives_interrupt (h : s.Receives waiting) (ht : s.interrupt = some t) : t.Receives waiting := by
  unfold interrupt at ht
  split at ht
  · cases ht
  · rename_i hno
    rw [not_or, Bool.not_eq_false, ne_eq, not_not] at hno
    obtain ⟨henabled, hidle⟩ := hno
    have hhandler := h.registered (.inl henabled)
    have hlog := h.log
    dsimp only at ht
    split at ht
    · cases ht
      exact ⟨h.ring, h.tail, h.length, h.addr, h.fits, h.registered, hlog⟩
    · split at ht
      · cases ht
        exact ⟨h.ring, h.tail, h.length, h.addr, h.fits, h.registered, hlog⟩
      · split at ht
        · cases ht
          rw [hidle] at hlog
          exact ⟨h.ring, h.tail, h.length, h.addr, h.fits, fun _ => hhandler, hlog⟩
        · cases ht
          exact ⟨h.ring, h.tail, h.length, h.addr, h.fits, h.registered, hlog⟩

theorem receives_registerPacketHandler (h : s.Receives waiting) : s.registerPacketHandler.Receives waiting := by
  unfold registerPacketHandler
  split <;> exact ⟨h.ring, h.tail, h.length, h.addr, h.fits, fun _ => rfl, h.log⟩

theorem receives_getReadBuffer (h : s.Receives waiting) (ht : s.getReadBuffer = some t) : t.Receives waiting := by
  unfold getReadBuffer at ht
  split at ht
  · cases ht
  · rename_i hdraining
    rw [ne_eq, not_not] at hdraining
    have hhandler := h.registered (.inr (by rw [hdraining]; decide))
    have hlog := h.log
    rw [hdraining] at hlog
    split at ht
    · cases ht
      exact ⟨h.ring, h.tail, h.length, h.addr, h.fits, fun _ => hhandler, hlog⟩
    · rename_i frame hframe
      cases ht
      have hhead : s.interface.getReadBuffer = waiting.head? := h.ring.head
      rw [hframe] at hhead
      obtain ⟨rest, rfl⟩ := List.head?_eq_some_iff.mp hhead.symm
      refine ⟨h.ring, h.tail, h.length, h.addr, h.fits, fun _ => hhandler, frame, rest, rfl, ?_, ?_⟩
      · simp [hhandler]
      · rw [← hlog]
        simp [hhandler]

/-- The descriptor that is given back is the one before the next to read. -/
theorem receives_finishReadBuffer (h : s.Receives waiting) (ht : s.finishReadBuffer = some t) :
    ∃ frame rest, waiting = frame :: rest ∧ t.Receives rest := by
  unfold finishReadBuffer at ht
  split at ht
  · cases ht
  · rename_i hhandling
    rw [ne_eq, not_not] at hhandling
    have hhandler := h.registered (.inr (by rw [hhandling]; decide))
    have hlog := h.log
    rw [hhandling] at hlog
    obtain ⟨frame, rest, rfl, hlast, hall⟩ := hlog
    refine ⟨frame, rest, rfl, ?_⟩
    have hlength := h.length
    rw [List.length_cons] at hlength
    have hready : ¬ (s.interface.rxDescs s.interface.currentRx).status &&& 0x1 = 0 := by
      intro hno
      have hhead : s.interface.rxFrame s.interface.currentRx = some frame := h.ring.head
      rw [PhysicalNetworkInterface.rxFrame, if_pos hno] at hhead
      cases hhead
    have hcall : s.interface.finishReadBuffer = ({ s.interface with
        rxDescs := Function.update s.interface.rxDescs s.interface.currentRx
          { s.interface.rxDescs s.interface.currentRx with status := 0 }
        currentRx := slot s.interface.currentRx 1 }, some s.interface.currentRx) := if_neg hready
    rw [hcall] at ht
    cases ht
    have hframe : PhysicalNetworkInterface.rxFrame { s.interface with
        rxDescs := Function.update s.interface.rxDescs s.interface.currentRx
          { s.interface.rxDescs s.interface.currentRx with status := 0 }
        currentRx := slot s.interface.currentRx 1 } =
        Function.update s.interface.rxFrame s.interface.currentRx none := by
      funext i
      by_cases hi : i = s.interface.currentRx
      · subst hi
        simp [PhysicalNetworkInterface.rxFrame]
      · simp only [PhysicalNetworkInterface.rxFrame, Function.update_of_ne hi]
    refine ⟨?_, ?_, by omega, fun i => ?_, fun i hi => ?_, fun _ => hhandler, hall⟩
    · dsimp only
      rw [hframe]
      exact h.ring.pop
    · dsimp only
      rw [slot_slot]
      exact (slot_n _).symm
    · by_cases hi : i = s.interface.currentRx
      · subst hi
        simp only [Function.update_self, h.addr]
      · simp only [Function.update_of_ne hi, h.addr]
    · by_cases hr : i = s.interface.currentRx
      · subst hr
        simp at hi
      · simp only [Function.update_of_ne hr] at hi ⊢
        exact h.fits i hi

/-! ## Runs -/

theorem receives_step (h : s.Receives waiting) {l : CardStep} (hstep : s.step l = some t) : ∃ waiting, t.Receives waiting := by
  cases l with
  | receive bytes => exact ⟨waiting, receives_receive h hstep⟩
  | writeBack length status threshold =>
    obtain ⟨frame, _, ht⟩ := receives_writeBack h hstep
    exact ⟨_, ht⟩
  | linkStatus =>
    cases hstep
    exact ⟨waiting, h.ring, h.tail, h.length, h.addr, h.fits, h.registered, h.log⟩
  | transmit => exact ⟨waiting, h.same (same_transmit hstep)⟩
  | registerPacketHandler =>
    cases hstep
    exact ⟨waiting, receives_registerPacketHandler h⟩
  | interrupt => exact ⟨waiting, receives_interrupt h hstep⟩
  | getReadBuffer => exact ⟨waiting, receives_getReadBuffer h hstep⟩
  | finishReadBuffer =>
    obtain ⟨frame, rest, _, ht⟩ := receives_finishReadBuffer h hstep
    exact ⟨rest, ht⟩
  | write frame =>
    rw [step] at hstep
    split at hstep
    · cases hstep
    · cases hstep
      exact ⟨waiting, h.same (same_write s frame)⟩
  | finishWriteBuffer length isIpv4Packet =>
    cases hstep
    exact ⟨waiting, h.same (same_finishWriteBuffer s length isIpv4Packet)⟩

theorem receives_inductive : cardLTS.Inductive fun s => ∃ waiting, s.Receives waiting where
  init := by
    rintro s ⟨rxBuffers, txBuffers, rxLength, ctrl, rfl⟩
    exact ⟨[], receives_init rxBuffers txBuffers rxLength ctrl⟩
  step := by
    rintro s l t ⟨waiting, h⟩ hstep
    exact receives_step h hstep

/-! ## Every frame once, in order -/

/-- The steps of the loop in the interrupt handler. -/
def ReadStep (l : CardStep) : Prop := l = .getReadBuffer ∨ l = .finishReadBuffer

theorem finishReadBuffer_of_handling (hd : s.reception = .handling) :
    ∃ t, s.finishReadBuffer = some t ∧ t.reception = .draining ∧ t.accepted = s.accepted := by
  rw [finishReadBuffer, if_neg (by rw [hd]; simp)]
  exact ⟨_, rfl, rfl, rfl⟩

/-- The loop alone passes on what the card had accepted before. -/
def Drains (s : NetworkCard) : Prop :=
  ∃ ls t, cardLTS.Run s ls t ∧ (∀ l ∈ ls, ReadStep l) ∧ t.reception = .idle ∧ t.passed = s.accepted ∧ t.accepted = s.accepted

theorem drains_draining (h : s.Receives waiting) (hd : s.reception = .draining) : s.Drains := by
  induction waiting generalizing s with
  | nil =>
    have hhead : s.interface.getReadBuffer = none := h.ring.head
    have hread : s.getReadBuffer = some { s with reception := .idle } := by
      rw [getReadBuffer, if_neg (by rw [hd]; simp), hhead]
    have hlog := h.log
    rw [hd] at hlog
    exact ⟨[.getReadBuffer], _, .cons hread (.nil _), by simp [ReadStep], rfl, by simpa [Logged] using hlog, rfl⟩
  | cons frame rest ih =>
    have hhead : s.interface.getReadBuffer = some frame := h.ring.head
    have hhandler := h.registered (.inr (by rw [hd]; decide))
    have hread : s.getReadBuffer = some { s with reception := .handling, passed := s.passed ++ [frame] } := by
      rw [getReadBuffer, if_neg (by rw [hd]; simp), hhead]
      simp [hhandler]
    have hnext := receives_getReadBuffer h hread
    obtain ⟨u, hfinish, hu, hacc⟩ :=
      finishReadBuffer_of_handling (s := { s with reception := .handling, passed := s.passed ++ [frame] }) rfl
    obtain ⟨frame', rest', hsame, hrest⟩ := receives_finishReadBuffer hnext hfinish
    cases hsame
    obtain ⟨ls, t, hrun, hls, hidle, hpassed, haccepted⟩ := ih hrest hu
    refine ⟨.getReadBuffer :: .finishReadBuffer :: ls, t, .cons hread (.cons hfinish hrun), ?_, hidle, ?_, ?_⟩
    · simpa [ReadStep] using hls
    · rw [hpassed, hacc]
    · rw [haccepted, hacc]

theorem drains_handling (h : s.Receives waiting) (hd : s.reception = .handling) : s.Drains := by
  obtain ⟨u, hfinish, hu, hacc⟩ := finishReadBuffer_of_handling hd
  obtain ⟨frame, rest, _, hrest⟩ := receives_finishReadBuffer h hfinish
  obtain ⟨ls, t, hrun, hls, hidle, hpassed, haccepted⟩ := drains_draining hrest hu
  refine ⟨.finishReadBuffer :: ls, t, .cons hfinish hrun, ?_, hidle, by rw [hpassed, hacc], by rw [haccepted, hacc]⟩
  simpa [ReadStep] using hls

/-- An interrupt for the receive timer alone starts the loop. -/
theorem interrupt_drains (h : s.Receives waiting) (henabled : s.interface.interruptsEnabled = true) (hidle : s.reception = .idle)
    (hlink : s.registers.icr &&& ICR_LSC = 0) (hhalf : s.registers.icr &&& ICR_RXDMT0 = 0)
    (htimer : s.registers.icr &&& ICR_RXT0 ≠ 0) : ∃ t, s.interrupt = some t ∧ t.accepted = s.accepted ∧ t.Drains := by
  have hstart : s.interrupt = some { s with registers := { s.registers with icr := 0 }, reception := .draining } := by
    rw [interrupt, if_neg (by simp [henabled, hidle])]
    simp [hlink, hhalf, htimer]
  exact ⟨_, hstart, rfl, drains_draining (receives_interrupt h hstart) rfl⟩

structure ReceivedInOrder (s : NetworkCard) : Prop where
  inOrder : s.passed <+: s.accepted
  few : s.accepted.length ≤ s.passed.length + 31
  handed : s.reception = .handling → ∃ frame, s.passed.getLast? = some frame ∧ s.interface.getReadBuffer = some frame
  drained : ∀ t, s.getReadBuffer = some t → t.reception = .idle → t.passed = t.accepted
  finishes : s.reception ≠ .idle → s.Drains
  starts : s.interface.interruptsEnabled = true → s.reception = .idle → s.registers.icr &&& ICR_LSC = 0 →
    s.registers.icr &&& ICR_RXDMT0 = 0 → s.registers.icr &&& ICR_RXT0 ≠ 0 →
    ∃ t, s.interrupt = some t ∧ t.accepted = s.accepted ∧ t.Drains

theorem Receives.receivedInOrder (h : s.Receives waiting) : s.ReceivedInOrder := by
  have hlog := h.log
  have hlength := h.length
  refine ⟨?_, ?_, fun hd => ?_, fun t ht hidle => ?_, fun hd => ?_, interrupt_drains h⟩
  · unfold Logged at hlog
    split at hlog
    · obtain ⟨frame, rest, _, _, hall⟩ := hlog
      exact ⟨rest, hall⟩
    · exact ⟨waiting, hlog⟩
  · unfold Logged at hlog
    split at hlog
    · obtain ⟨frame, rest, rfl, _, hall⟩ := hlog
      rw [← hall, List.length_append]
      rw [List.length_cons] at hlength
      omega
    · rw [← hlog, List.length_append]
      omega
  · rw [hd] at hlog
    obtain ⟨frame, rest, rfl, hlast, _⟩ := hlog
    exact ⟨frame, hlast, h.ring.head⟩
  · -- the loop has ended because nothing waits
    have hnext := receives_getReadBuffer h ht
    have hlog := hnext.log
    rw [hidle] at hlog
    have hempty : waiting = [] := by
      unfold getReadBuffer at ht
      split at ht
      · cases ht
      · split at ht
        · rename_i hnone
          exact h.ring.nil_of_none hnone
        · cases ht
          cases hidle
    rw [hempty] at hlog
    simpa [Logged] using hlog
  · cases hr : s.reception with
    | idle => exact absurd hr hd
    | draining => exact drains_draining h hr
    | handling => exact drains_handling h hr

/-- In any interleaving of the card, the interrupt handler and the senders,
the packet handler is called with the frames the card has stored, each once,
in order and unchanged until the call returns; no more than 31 wait. -/
theorem received_in_order (s : NetworkCard) (hs : cardLTS.Reachable s) : s.ReceivedInOrder := by
  obtain ⟨waiting, h⟩ := receives_inductive.reachable s hs
  exact h.receivedInOrder

/-! ## Half of the ring -/

/-- The number of descriptors that are the card's. -/
def free (registers : E1000Registers) : Nat := (registers.rdt.val + 32 - registers.rdh.val) % 32

/-- A card set to `RTCL_RDMTS_HALF` reports few free descriptors with every
frame after which at most half of them are left. -/
def ReportsHalf (s : NetworkCard) : CardStep → Prop
  | .writeBack _ _ threshold => threshold = decide (free { s.registers with rdh := slot s.registers.rdh 1 } ≤ 32 / 2)
  | _ => True

instance (s : NetworkCard) (l : CardStep) : Decidable (ReportsHalf s l) := by
  cases l <;> unfold ReportsHalf <;> infer_instance

theorem Receives.free_eq (h : s.Receives waiting) : free s.registers = 31 - waiting.length := by
  have hlength := h.length
  have hrx := s.interface.currentRx.isLt
  have hn : NUM_RX_DESCRIPTORS = 32 := rfl
  unfold free
  rw [h.ring.producer, h.tail]
  simp only [slot, hn] at hrx ⊢
  omega

/-- The receive timer is not the only cause. -/
def Masked (icr : UInt32) : Prop := icr &&& ICR_RXT0 ≠ 0 → icr &&& ICR_RXDMT0 ≠ 0

theorem masked_zero : Masked 0 := by
  intro h
  exact absurd rfl h

theorem or_and (a b c : UInt32) : (a ||| b) &&& c = (a &&& c) ||| (b &&& c) := by
  apply UInt32.toBitVec_inj.mp
  ext i
  simp [Bool.and_or_distrib_right]

theorem masked_link {icr : UInt32} (h : Masked icr) : Masked (icr ||| ICR_LSC) := by
  have hlsc : ICR_LSC &&& ICR_RXT0 = 0 := by decide
  have hhalf : ICR_LSC &&& ICR_RXDMT0 = 0 := by decide
  unfold Masked
  rw [or_and, or_and, hlsc, hhalf, UInt32.or_zero, UInt32.or_zero]
  exact h

theorem masked_half (icr : UInt32) : Masked (icr ||| ICR_RXT0 ||| ICR_RXDMT0) := by
  intro _ hzero
  rw [or_and, show ICR_RXDMT0 &&& ICR_RXDMT0 = ICR_RXDMT0 by decide] at hzero
  have hbits := congrArg UInt32.toNat hzero
  rw [UInt32.toNat_or] at hbits
  have hle : ICR_RXDMT0.toNat ≤ ((icr ||| ICR_RXT0) &&& ICR_RXDMT0).toNat ||| ICR_RXDMT0.toNat := Nat.right_le_or
  have hsmall : ICR_RXDMT0.toNat = 16 := rfl
  rw [hbits, hsmall] at hle
  simp at hle

/-- With 15 frames waiting and the loop not running, the next interrupt will
not start it. -/
structure HalfFull (s : NetworkCard) (waiting : List (List UInt8)) : Prop where
  receives : s.Receives waiting
  masked : s.reception = .idle → 15 ≤ waiting.length → Masked s.registers.icr

theorem halfFull_writeBack (h : s.HalfFull waiting) {length : UInt16} {status : UInt8} {threshold : Bool}
    (hreports : ReportsHalf s (.writeBack length status threshold)) (ht : s.writeBack length status threshold = some t) :
    ∃ frame, t.HalfFull (waiting ++ [frame]) ∧ t.reception = s.reception ∧ t.passed = s.passed := by
  obtain ⟨frame, _, hnext⟩ := receives_writeBack h.receives ht
  have hfree := hnext.free_eq
  rw [List.length_append, List.length_singleton] at hfree
  unfold writeBack at ht
  split at ht
  · cases ht
  · cases ht
    refine ⟨frame, ⟨hnext, fun _ hfull => ?_⟩, rfl, rfl⟩
    rw [List.length_append, List.length_singleton] at hfull
    have hthreshold : threshold = true := by
      rw [show threshold = _ from hreports, decide_eq_true_eq]
      have hsame : free { s.registers with rdh := slot s.registers.rdh 1 } = 31 - (waiting.length + 1) := hfree
      omega
    subst hthreshold
    exact masked_half _

/-- A step of the card or of a caller keeps the frames that wait; the
interrupt handler starts its loop only below 15. -/
theorem halfFull_step (h : s.HalfFull waiting) {l : CardStep} (hreports : ReportsHalf s l) (hstep : s.step l = some t) :
    ∃ waiting', t.HalfFull waiting' ∧ (s.reception = .idle → 15 ≤ waiting.length →
      t.reception = .idle ∧ t.passed = s.passed ∧ waiting.length ≤ waiting'.length) := by
  have hr := h.receives
  cases l with
  | receive bytes =>
    have hnext := receives_receive hr hstep
    rw [step, receive] at hstep
    split at hstep
    · cases hstep
    · cases hstep
      exact ⟨waiting, ⟨hnext, h.masked⟩, fun hidle _ => ⟨hidle, rfl, Nat.le_refl _⟩⟩
  | writeBack length status threshold =>
    obtain ⟨frame, hnext, hreception, hpassed⟩ := halfFull_writeBack h hreports hstep
    exact ⟨_, hnext, fun hidle _ => ⟨hreception.trans hidle, hpassed, by simp⟩⟩
  | linkStatus =>
    cases hstep
    exact ⟨waiting, ⟨⟨hr.ring, hr.tail, hr.length, hr.addr, hr.fits, hr.registered, hr.log⟩,
      fun hidle hfull => masked_link (h.masked hidle hfull)⟩, fun hidle _ => ⟨hidle, rfl, Nat.le_refl _⟩⟩
  | transmit =>
    have hsame := same_transmit hstep
    refine ⟨waiting, ⟨hr.same hsame, ?_⟩, fun hidle _ => ⟨hsame.reception.trans hidle, hsame.passed, Nat.le_refl _⟩⟩
    rw [hsame.reception, hsame.icr]
    exact h.masked
  | registerPacketHandler =>
    cases hstep
    have hnext := receives_registerPacketHandler hr
    revert hnext
    unfold registerPacketHandler
    split
    · intro hnext
      exact ⟨waiting, ⟨hnext, h.masked⟩, fun hidle _ => ⟨hidle, rfl, Nat.le_refl _⟩⟩
    · intro hnext
      exact ⟨waiting, ⟨hnext, fun _ _ => masked_zero⟩, fun hidle _ => ⟨hidle, rfl, Nat.le_refl _⟩⟩
  | interrupt =>
    have hnext := receives_interrupt hr hstep
    rw [step, interrupt] at hstep
    split at hstep
    · cases hstep
    · rename_i hno
      rw [not_or, Bool.not_eq_false, ne_eq, not_not] at hno
      have hmasked := h.masked hno.2
      dsimp only at hstep
      split at hstep
      · cases hstep
        exact ⟨waiting, ⟨hnext, fun _ _ => masked_zero⟩, fun hidle _ => ⟨hidle, rfl, Nat.le_refl _⟩⟩
      · split at hstep
        · cases hstep
          exact ⟨waiting, ⟨hnext, fun _ _ => masked_zero⟩, fun hidle _ => ⟨hidle, rfl, Nat.le_refl _⟩⟩
        · rename_i hhalf
          split at hstep
          · rename_i htimer
            cases hstep
            refine ⟨waiting, ⟨hnext, fun _ _ => masked_zero⟩, fun _ hfull => ?_⟩
            exact absurd (hmasked hfull htimer) hhalf
          · cases hstep
            exact ⟨waiting, ⟨hnext, fun _ _ => masked_zero⟩, fun hidle _ => ⟨hidle, rfl, Nat.le_refl _⟩⟩
  | getReadBuffer =>
    have hnext := receives_getReadBuffer hr hstep
    rw [step, getReadBuffer] at hstep
    split at hstep
    · cases hstep
    · rename_i hdraining
      rw [ne_eq, not_not] at hdraining
      refine ⟨waiting, ⟨hnext, fun hidle hfull => ?_⟩, fun hidle _ => absurd (hidle.symm.trans hdraining) (by simp)⟩
      split at hstep
      · -- the loop has ended, so nothing waits
        rename_i hnone
        rw [hr.ring.nil_of_none hnone] at hfull
        simp at hfull
      · cases hstep
        cases hidle
  | finishReadBuffer =>
    obtain ⟨frame, rest, _, hnext⟩ := receives_finishReadBuffer hr hstep
    rw [step, finishReadBuffer] at hstep
    split at hstep
    · cases hstep
    · rename_i hhandling
      rw [ne_eq, not_not] at hhandling
      cases hstep
      refine ⟨rest, ⟨hnext, fun hidle _ => ?_⟩, fun hidle _ => absurd (hidle.symm.trans hhandling) (by simp)⟩
      cases hidle
  | write frame =>
    rw [step] at hstep
    split at hstep
    · cases hstep
    · cases hstep
      exact ⟨waiting, ⟨hr.same (same_write s frame), h.masked⟩, fun hidle _ => ⟨hidle, rfl, Nat.le_refl _⟩⟩
  | finishWriteBuffer length isIpv4Packet =>
    cases hstep
    have hsame := same_finishWriteBuffer s length isIpv4Packet
    refine ⟨waiting, ⟨hr.same hsame, ?_⟩, fun hidle _ => ⟨hsame.reception.trans hidle, hsame.passed, Nat.le_refl _⟩⟩
    rw [hsame.reception, hsame.icr]
    exact h.masked

theorem halfFull_inductive : (cardLTS.Guarded ReportsHalf).Inductive fun s => ∃ waiting, s.HalfFull waiting where
  init := by
    rintro s ⟨rxBuffers, txBuffers, rxLength, ctrl, rfl⟩
    exact ⟨[], receives_init rxBuffers txBuffers rxLength ctrl, fun _ _ => masked_zero⟩
  step := by
    rintro s l t ⟨waiting, h⟩ ⟨hreports, hstep⟩
    obtain ⟨waiting', hnext, _⟩ := halfFull_step h hreports hstep
    exact ⟨waiting', hnext⟩

theorem stalled_run {ls : List CardStep} (hr : (cardLTS.Guarded ReportsHalf).Run s ls t) (h : s.HalfFull waiting)
    (hidle : s.reception = .idle) (hfull : 15 ≤ waiting.length) :
    t.reception = .idle ∧ t.passed = s.passed ∧ ∃ waiting', t.Receives waiting' := by
  induction hr generalizing waiting with
  | nil s => exact ⟨hidle, rfl, waiting, h.receives⟩
  | cons hstep _ ih =>
    obtain ⟨waiting', hnext, hstays⟩ := halfFull_step h hstep.1 hstep.2
    obtain ⟨hidle', hpassed, hmore⟩ := hstays hidle hfull
    obtain ⟨hidle'', hpassed', hreceives⟩ := ih hnext hidle' (by omega)
    exact ⟨hidle'', hpassed'.trans hpassed, hreceives⟩

/-- Once 15 frames wait while the interrupt handler is not running, no frame
is passed on any more, and the card stores 16 more at most. -/
theorem reception_stops {s t : NetworkCard} {ls : List CardStep} (hs : (cardLTS.Guarded ReportsHalf).Reachable s)
    (hidle : s.reception = .idle) (hfull : s.passed.length + 15 ≤ s.accepted.length)
    (hr : (cardLTS.Guarded ReportsHalf).Run s ls t) :
    t.reception = .idle ∧ t.passed = s.passed ∧ t.accepted.length ≤ s.passed.length + 31 := by
  obtain ⟨waiting, h⟩ := halfFull_inductive.reachable s hs
  have hlog := h.receives.log
  rw [hidle] at hlog
  have hcount := congrArg List.length (show s.passed ++ waiting = s.accepted from hlog)
  rw [List.length_append] at hcount
  obtain ⟨hidle', hpassed, waiting', hreceives⟩ := stalled_run hr h hidle (by omega)
  have hfew := hreceives.receivedInOrder.few
  rw [hpassed] at hfew
  exact ⟨hidle', hpassed, hfew⟩

/-! ## A burst -/

/-- The steps of `cardLTS.Guarded ReportsHalf`, as a function. -/
def reportingSteps (s : NetworkCard) : List CardStep → Option NetworkCard
  | [] => some s
  | l :: ls => if ReportsHalf s l then (s.step l).bind fun s => s.reportingSteps ls else none

theorem run_of_reportingSteps {s t : NetworkCard} {ls : List CardStep} (h : s.reportingSteps ls = some t) :
    (cardLTS.Guarded ReportsHalf).Run s ls t := by
  induction ls generalizing s with
  | nil =>
    cases h
    exact .nil _
  | cons l ls ih =>
    rw [reportingSteps] at h
    split at h
    · rename_i hreports
      obtain ⟨u, hu, hrest⟩ := Option.bind_eq_some_iff.mp h
      exact .cons ⟨hreports, hu⟩ (ih hrest)
    · cases h

def blankCard : NetworkCard := init (fun _ => 0) (fun _ => 0) (fun _ => 0) 0

def storeFrame (threshold : Bool) : List CardStep := [.receive (List.replicate 60 0xFF), .writeBack 60 3 threshold]

/-- Two frames; the first is with the packet handler. -/
theorem received_in_order_two : ∃ s, cardLTS.Reachable s ∧ s.reception = .handling ∧ s.accepted.length = 2 ∧
    s.ReceivedInOrder := by
  have hstate : ((blankCard.steps (.registerPacketHandler :: storeFrame false ++ storeFrame false ++
      [.interrupt, .getReadBuffer])).map fun s => (s.reception, s.accepted.length)) = some (.handling, 2) := by decide +kernel
  obtain ⟨s, hrun, hs⟩ := Option.map_eq_some_iff.mp hstate
  simp only [Prod.mk.injEq] at hs
  have hreach : cardLTS.Reachable s := ⟨blankCard, _, ⟨_, _, _, _, rfl⟩, run_of_cardSteps hrun⟩
  exact ⟨s, hreach, hs.1, hs.2, received_in_order s hreach⟩

/-- 15 frames arrive before the interrupt handler gets to run. -/
def burst : List CardStep :=
  .registerPacketHandler :: (List.replicate 14 (storeFrame false)).flatten ++ storeFrame true

/-- The handler runs, two more frames arrive, and it runs again. -/
def afterBurst : List CardStep := .interrupt :: storeFrame true ++ storeFrame true ++ [.interrupt]

theorem reception_stops_burst : ∃ s t, (cardLTS.Guarded ReportsHalf).Reachable s ∧
    (cardLTS.Guarded ReportsHalf).Run s afterBurst t ∧ t.accepted.length = 17 ∧
    t.reception = .idle ∧ t.passed = s.passed ∧ t.accepted.length ≤ s.passed.length + 31 := by
  have hburst : ((blankCard.reportingSteps burst).map fun s => (s.reception, s.passed.length, s.accepted.length)) =
      some (.idle, 0, 15) := by decide +kernel
  have hafter : (((blankCard.reportingSteps burst).bind fun s => s.reportingSteps afterBurst).map fun s => s.accepted.length) =
      some 17 := by decide +kernel
  obtain ⟨s, hs, hstate⟩ := Option.map_eq_some_iff.mp hburst
  rw [hs, Option.bind_some] at hafter
  obtain ⟨t, ht, haccepted⟩ := Option.map_eq_some_iff.mp hafter
  simp only [Prod.mk.injEq] at hstate
  have hreach : (cardLTS.Guarded ReportsHalf).Reachable s := ⟨blankCard, burst, ⟨_, _, _, _, rfl⟩, run_of_reportingSteps hs⟩
  have hrun := run_of_reportingSteps ht
  exact ⟨s, t, hreach, hrun, haccepted, reception_stops hreach hstate.1 (by omega) hrun⟩

end NetworkCard

end CpuScheduler.L2
