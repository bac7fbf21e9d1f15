import CpuScheduler.Core.LTS
import CpuScheduler.Core.Cyclic
import CpuScheduler.L2Network.Delivery

/-!
# LoopbackNetworkInterface

Five slots that are written at `currentTx` and read at `currentRx`.
`finishWriteBuffer` raises interrupt 80, whose handler passes every full slot
to the packet handler, all before `finishWriteBuffer` returns. The packet
handler runs inside of that loop and may write a frame of its own: then the
loop is entered again, from the inside, while the slot that is being handled
is still full.

`loopbackLTS` has the stack of the loops that have been entered; what the
packet handler does is left open. `accepted` and `passed` record the frames
that `finishWriteBuffer` took and the frames the packet handler was called
with.
-/
namespace CpuScheduler.L2

open Cyclic

def NUM_LOOPBACK_RX_AND_TX_BUFFERS : Nat := 5

abbrev LoopbackSlot := Fin NUM_LOOPBACK_RX_AND_TX_BUFFERS

/-- mirrors loopback_network_interface.h:9-12 -/
structure LoopbackRxAndTxDesc where
  length : Nat
  isFull : Bool
  deriving DecidableEq, Repr

/-- mirrors loopback_network_interface.h:14-41 -/
structure LoopbackNetworkInterface where
  rxAndTxBuffers : LoopbackSlot → Nat → UInt8
  rxAndTxDescs : LoopbackSlot → LoopbackRxAndTxDesc
  currentRx : LoopbackSlot
  currentTx : LoopbackSlot

theorem firstSlot_lt : 0 < NUM_LOOPBACK_RX_AND_TX_BUFFERS := by decide

namespace LoopbackNetworkInterface

/-- The constructor; `buffers` is what the memory held before.
mirrors loopback_network_interface.cpp:21-36 -/
def init (buffers : LoopbackSlot → Nat → UInt8) : LoopbackNetworkInterface where
  rxAndTxBuffers := buffers
  rxAndTxDescs _ := ⟨0, false⟩
  currentRx := ⟨0, firstSlot_lt⟩
  currentTx := ⟨0, firstSlot_lt⟩

variable (s : LoopbackNetworkInterface)

/-- The slot the caller may write to. mirrors loopback_network_interface.cpp:61-67 -/
def getWriteBuffer : Option LoopbackSlot :=
  if (s.rxAndTxDescs s.currentTx).isFull then none else some s.currentTx

def addWord (checksum : UInt32) (hi lo : UInt8) : UInt32 :=
  let checksum := checksum + ((hi.toUInt32 <<< 8) + lo.toUInt32)
  if checksum &&& (0xFFFF0000 : UInt32) ≠ 0 then (checksum &&& (0xFFFF : UInt32)) + (checksum >>> 16)
  else checksum

/-- The checksum over `headerLength` bytes, of which bytes 10 and 11 count as
zero. mirrors loopback_network_interface.cpp:100-115 -/
def putChecksum (data : Nat → UInt8) (headerLength : Nat) : Nat → UInt8 :=
  let data := putBytes data (ETHERNET_SIMPLE_HEADER_SIZE + 10) [0, 0]
  let checksum := ~~~ ((List.range (headerLength / 2)).foldl (fun c k =>
    addWord c (data (ETHERNET_SIMPLE_HEADER_SIZE + 2 * k)) (data (ETHERNET_SIMPLE_HEADER_SIZE + 2 * k + 1))) 0)
  putBytes data (ETHERNET_SIMPLE_HEADER_SIZE + 10) [(checksum >>> 8).toUInt8, (checksum &&& 0xFF).toUInt8]

/-- `(ipHeader[0] & 0x0F) * 4` -/
def headerLength (data : Nat → UInt8) : Nat := (data ETHERNET_SIMPLE_HEADER_SIZE &&& 0x0F).toNat * 4

/-- The bytes that are sent, if the call gets as far as the interrupt.
mirrors loopback_network_interface.cpp:70-116 -/
def checkedBytes (length : Nat) (isIpv4Packet : Bool) : Option (Nat → UInt8) :=
  let data := s.rxAndTxBuffers s.currentTx
  if length < ETHERNET_SIMPLE_HEADER_SIZE then none
  else if length > ETHERNET_MTU + ETHERNET_SIMPLE_HEADER_SIZE then none
  else if (s.rxAndTxDescs s.currentTx).isFull then none
  else if isIpv4Packet then
    if length < ETHERNET_SIMPLE_HEADER_SIZE + IPV4_MINIMAL_HEADER_SIZE then none
    else if headerLength data < IPV4_MINIMAL_HEADER_SIZE then none
    else if length < ETHERNET_SIMPLE_HEADER_SIZE + headerLength data then none
    else some (putChecksum data (headerLength data))
  else some data

/-- `none`: the call returns without the interrupt, and nothing has changed.
mirrors loopback_network_interface.cpp:69-124 -/
def finishWriteBuffer (length : Nat) (isIpv4Packet : Bool) : Option LoopbackNetworkInterface :=
  (s.checkedBytes length isIpv4Packet).map fun data =>
    { s with
      rxAndTxBuffers := Function.update s.rxAndTxBuffers s.currentTx data
      rxAndTxDescs := Function.update s.rxAndTxDescs s.currentTx ⟨length, true⟩
      currentTx := slot s.currentTx 1 }

/-- The bytes of a slot that is full. -/
def frame (i : LoopbackSlot) : Option (List UInt8) :=
  if (s.rxAndTxDescs i).isFull then
    some ((List.range (s.rxAndTxDescs i).length).map (s.rxAndTxBuffers i))
  else none

/-- The pointer and the length, as the bytes found there.
mirrors loopback_network_interface.cpp:126-132 -/
def getReadBuffer : Option (List UInt8) := s.frame s.currentRx

/-- mirrors loopback_network_interface.cpp:134-142 -/
def finishReadBuffer : LoopbackNetworkInterface :=
  if (s.rxAndTxDescs s.currentRx).isFull then
    { s with
      rxAndTxDescs := Function.update s.rxAndTxDescs s.currentRx { s.rxAndTxDescs s.currentRx with isFull := false }
      currentRx := slot s.currentRx 1 }
  else s

/-- The caller writes its frame where `getWriteBuffer` has said. -/
def write (data : Nat → UInt8) : LoopbackNetworkInterface :=
  match s.getWriteBuffer with
  | none => s
  | some i => { s with rxAndTxBuffers := Function.update s.rxAndTxBuffers i data }

end LoopbackNetworkInterface

/-! ## The interrupt -/

/-- Where a call of `handleLoopbackInterfaceInterrupt` is: about to look for
the next slot, or inside the packet handler. -/
inductive Activation where
  | draining
  | handling
  deriving DecidableEq, Repr

structure Loopback where
  interface : LoopbackNetworkInterface
  stack : List Activation
  accepted : List (List UInt8)
  passed : List (List UInt8)

/-- The four places where control can go on. The first two are calls of the
sender, or of the packet handler. -/
inductive LoopbackStep where
  | write (data : Nat → UInt8)
  | finishWriteBuffer (length : Nat) (isIpv4Packet : Bool)
  | getReadBuffer
  | finishReadBuffer

/-- The code that runs is not the loop. -/
def Loopback.Outside (s : Loopback) : Prop := s.stack.head? ≠ some .draining

/-- `finishWriteBuffer`, up to the first look of the interrupt handler. -/
def Loopback.finishWriteBuffer (s : Loopback) (length : Nat) (isIpv4Packet : Bool) : Loopback :=
  match s.interface.finishWriteBuffer length isIpv4Packet with
  | none => s
  | some interface =>
    { s with
      interface := interface
      stack := .draining :: s.stack
      accepted := s.accepted ++ (interface.frame s.interface.currentTx).toList }

/-- mirrors loopback_network_interface.cpp:12-15 -/
def Loopback.getReadBuffer (s : Loopback) (stack : List Activation) : Loopback :=
  match s.interface.getReadBuffer with
  | none => { s with stack := stack }
  | some frame => { s with stack := .handling :: stack, passed := s.passed ++ [frame] }

def loopbackStep (s : Loopback) : LoopbackStep → Loopback → Prop
  | .write data, t => s.Outside ∧ t = { s with interface := s.interface.write data }
  | .finishWriteBuffer length isIpv4Packet, t => s.Outside ∧ t = s.finishWriteBuffer length isIpv4Packet
  | .getReadBuffer, t => ∃ stack, s.stack = .draining :: stack ∧ t = s.getReadBuffer stack
  | .finishReadBuffer, t => ∃ stack, s.stack = .handling :: stack ∧
      t = { s with interface := s.interface.finishReadBuffer, stack := .draining :: stack }

/-- Any sender with any packet handler. -/
def loopbackLTS : LTS Loopback LoopbackStep where
  init s := (∃ buffers, s.interface = .init buffers) ∧ s.stack = [] ∧ s.accepted = [] ∧ s.passed = []
  step := loopbackStep

/-- The step is not a frame that the packet handler sends. -/
def NoReply (s : Loopback) : LoopbackStep → Prop
  | .finishWriteBuffer length isIpv4Packet =>
    s.stack ≠ [] → s.interface.finishWriteBuffer length isIpv4Packet = none
  | _ => True

/-! ## The slots -/

namespace LoopbackNetworkInterface

variable {s t : LoopbackNetworkInterface}

/-- The full slots are the cyclic interval from `currentRx` to `currentTx`,
with the frames `waiting`. -/
def Holding (s : LoopbackNetworkInterface) (waiting : List (List UInt8)) : Prop :=
  Cyclic.Holds s.frame s.currentRx s.currentTx waiting

theorem holding_init (buffers : LoopbackSlot → Nat → UInt8) : (init buffers).Holding [] := Cyclic.Holds.empty _

theorem frame_of_not_full {i : LoopbackSlot} (h : (s.rxAndTxDescs i).isFull = false) : s.frame i = none := by
  simp [frame, h]

theorem frame_write (data : Nat → UInt8) : (s.write data).frame = s.frame := by
  funext i
  unfold write getWriteBuffer
  cases hfull : (s.rxAndTxDescs s.currentTx).isFull with
  | true => rfl
  | false =>
    by_cases hi : i = s.currentTx
    · subst hi
      simp [frame, hfull]
    · simp [frame, Function.update_of_ne hi]

theorem holding_write {waiting : List (List UInt8)} (h : s.Holding waiting) (data : Nat → UInt8) :
    (s.write data).Holding waiting := by
  have hframe := frame_write (s := s) data
  unfold Holding
  rw [hframe]
  unfold write
  split <;> exact h

/-- A frame that is accepted goes to the end of those that wait. -/
theorem holding_finishWriteBuffer {waiting : List (List UInt8)} (h : s.Holding waiting) {length : Nat}
    {isIpv4Packet : Bool} (ht : s.finishWriteBuffer length isIpv4Packet = some t) :
    ∃ f, t.frame s.currentTx = some f ∧ t.Holding (waiting ++ [f]) := by
  obtain ⟨data, hdata, rfl⟩ := Option.map_eq_some_iff.mp ht
  have hfree : (s.rxAndTxDescs s.currentTx).isFull = false := by
    unfold checkedBytes at hdata
    by_contra hfull
    simp [hfull] at hdata
  have hframe : ∀ i, frame { s with
      rxAndTxBuffers := Function.update s.rxAndTxBuffers s.currentTx data
      rxAndTxDescs := Function.update s.rxAndTxDescs s.currentTx ⟨length, true⟩
      currentTx := slot s.currentTx 1 } i =
      Function.update s.frame s.currentTx (some ((List.range length).map data)) i := by
    intro i
    by_cases hi : i = s.currentTx
    · subst hi
      simp [frame]
    · simp [frame, Function.update_of_ne hi]
  refine ⟨(List.range length).map data, by rw [hframe, Function.update_self], ?_⟩
  unfold Holding
  rw [funext hframe]
  exact h.push (frame_of_not_full hfree) _

/-- The slot that has been read is free again. -/
theorem holding_finishReadBuffer {f : List UInt8} {waiting : List (List UInt8)} (h : s.Holding (f :: waiting)) :
    s.finishReadBuffer.Holding waiting := by
  have hhead : s.frame s.currentRx = some f := h.head
  have hfull : (s.rxAndTxDescs s.currentRx).isFull = true := by
    by_contra hfree
    rw [frame_of_not_full (by simpa using hfree)] at hhead
    cases hhead
  have hframe : s.finishReadBuffer.frame = Function.update s.frame s.currentRx none := by
    funext i
    unfold finishReadBuffer
    rw [if_pos hfull]
    by_cases hi : i = s.currentRx
    · subst hi
      simp [frame]
    · simp [frame, Function.update_of_ne hi]
  unfold Holding
  rw [hframe]
  unfold finishReadBuffer
  rw [if_pos hfull]
  exact h.pop

theorem finishReadBuffer_of_empty (h : s.Holding []) : s.finishReadBuffer = s := by
  have hhead : s.frame s.currentRx = none := h.head
  unfold finishReadBuffer
  rw [if_neg]
  intro hfull
  simp [frame, hfull] at hhead

end LoopbackNetworkInterface

/-! ## Runs without a reply -/

/-- No frame has been lost or passed twice. -/
def Quiet (s : Loopback) : Prop :=
  ∃ waiting, s.interface.Holding waiting ∧
    ((s.stack = [] ∧ waiting = [] ∧ s.passed = s.accepted) ∨
      (s.stack = [.draining] ∧ s.passed ++ waiting = s.accepted) ∨
      (s.stack = [.handling] ∧ s.passed ++ waiting.tail = s.accepted ∧ waiting ≠ []))

theorem quiet_init {s : Loopback} (h : loopbackLTS.init s) : Quiet s := by
  obtain ⟨⟨buffers, hi⟩, hs, ha, hp⟩ := h
  refine ⟨[], ?_, .inl ⟨hs, rfl, hp.trans ha.symm⟩⟩
  rw [hi]
  exact LoopbackNetworkInterface.holding_init buffers

/-- The loop looks at the next slot. -/
theorem quiet_getReadBuffer {s : Loopback} (h : Quiet s) {stack : List Activation}
    (hs : s.stack = .draining :: stack) : Quiet (s.getReadBuffer stack) := by
  obtain ⟨waiting, hring, ⟨h0, _⟩ | ⟨h0, hacc⟩ | ⟨h0, _⟩⟩ := h
  · rw [h0] at hs
    cases hs
  · rw [h0] at hs
    cases hs
    have hhead : s.interface.getReadBuffer = waiting.head? := hring.head
    unfold Loopback.getReadBuffer
    rw [hhead]
    cases waiting with
    | nil =>
      refine ⟨[], hring, .inl ⟨rfl, rfl, ?_⟩⟩
      simpa using hacc
    | cons f waiting =>
      refine ⟨f :: waiting, hring, .inr (.inr ⟨rfl, ?_, by simp⟩)⟩
      simpa using hacc
  · rw [h0] at hs
    cases hs

/-- The packet handler returns. -/
theorem quiet_finishReadBuffer {s : Loopback} (h : Quiet s) {stack : List Activation}
    (hs : s.stack = .handling :: stack) :
    Quiet { s with interface := s.interface.finishReadBuffer, stack := .draining :: stack } := by
  obtain ⟨waiting, hring, ⟨h0, _⟩ | ⟨h0, _⟩ | ⟨h0, hacc, hne⟩⟩ := h
  · rw [h0] at hs
    cases hs
  · rw [h0] at hs
    cases hs
  · rw [h0] at hs
    cases hs
    cases waiting with
    | nil => exact absurd rfl hne
    | cons f waiting =>
      exact ⟨waiting, LoopbackNetworkInterface.holding_finishReadBuffer hring, .inr (.inl ⟨rfl, hacc⟩)⟩

theorem quiet_write {s : Loopback} (h : Quiet s) (data : Nat → UInt8) :
    Quiet { s with interface := s.interface.write data } := by
  obtain ⟨waiting, hring, hcases⟩ := h
  exact ⟨waiting, LoopbackNetworkInterface.holding_write hring data, hcases⟩

/-- A frame that the sender hands over. -/
theorem quiet_finishWriteBuffer {s : Loopback} (h : Quiet s) {length : Nat} {isIpv4Packet : Bool}
    (hreply : s.stack ≠ [] → s.interface.finishWriteBuffer length isIpv4Packet = none) :
    Quiet (s.finishWriteBuffer length isIpv4Packet) := by
  unfold Loopback.finishWriteBuffer
  cases hf : s.interface.finishWriteBuffer length isIpv4Packet with
  | none => exact h
  | some interface =>
    have hnil : s.stack = [] := by
      by_contra hne
      rw [hreply hne] at hf
      cases hf
    obtain ⟨waiting, hring, ⟨_, rfl, hacc⟩ | ⟨h0, _⟩ | ⟨h0, _⟩⟩ := h
    · obtain ⟨f, hframe, hring'⟩ := LoopbackNetworkInterface.holding_finishWriteBuffer hring hf
      refine ⟨_, hring', .inr (.inl ⟨by rw [hnil], ?_⟩)⟩
      dsimp only
      rw [hframe, hacc]
      rfl
    · rw [h0] at hnil
      cases hnil
    · rw [h0] at hnil
      cases hnil

theorem quiet_step {s t : Loopback} {l : LoopbackStep} (h : Quiet s) (hn : NoReply s l) (hstep : loopbackStep s l t) :
    Quiet t := by
  cases l with
  | write data =>
    obtain ⟨_, rfl⟩ := hstep
    exact quiet_write h data
  | finishWriteBuffer length isIpv4Packet =>
    obtain ⟨_, rfl⟩ := hstep
    exact quiet_finishWriteBuffer h hn
  | getReadBuffer =>
    obtain ⟨stack, hs, rfl⟩ := hstep
    exact quiet_getReadBuffer h hs
  | finishReadBuffer =>
    obtain ⟨stack, hs, rfl⟩ := hstep
    exact quiet_finishReadBuffer h hs

/-- The steps of the interrupt handler alone. -/
def LoopStep (l : LoopbackStep) : Prop := l = .getReadBuffer ∨ l = .finishReadBuffer

/-- `finishWriteBuffer` returns as soon as the packet handler does. -/
def Returns (s : Loopback) : Prop :=
  ∃ ls t, loopbackLTS.Run s ls t ∧ (∀ l ∈ ls, LoopStep l) ∧ t.stack = [] ∧ t.accepted = s.accepted

theorem returns_draining (waiting : List (List UInt8)) {s : Loopback} (hring : s.interface.Holding waiting)
    (hs : s.stack = [.draining]) : Returns s := by
  induction waiting generalizing s with
  | nil =>
    have hhead : s.interface.getReadBuffer = none := hring.head
    refine ⟨[.getReadBuffer], s.getReadBuffer [], .cons ⟨[], hs, rfl⟩ (.nil _), ?_, ?_⟩
    · simp [LoopStep]
    · unfold Loopback.getReadBuffer
      rw [hhead]
      exact ⟨rfl, rfl⟩
  | cons f waiting ih =>
    have hhead : s.interface.getReadBuffer = some f := hring.head
    have hread : s.getReadBuffer [] = { s with stack := [.handling], passed := s.passed ++ [f] } := by
      unfold Loopback.getReadBuffer
      rw [hhead]
    obtain ⟨ls, t, hrun, hloop, hnil, hacc⟩ := ih
      (s := { s with interface := s.interface.finishReadBuffer, stack := [.draining], passed := s.passed ++ [f] })
      (LoopbackNetworkInterface.holding_finishReadBuffer hring) rfl
    refine ⟨.getReadBuffer :: .finishReadBuffer :: ls, t, .cons ⟨[], hs, rfl⟩ (.cons ⟨[], ?_, ?_⟩ hrun), ?_, hnil, hacc⟩
    · rw [hread]
    · rw [hread]
    · simpa [LoopStep] using hloop

theorem returns_of_quiet {s : Loopback} (h : Quiet s) : Returns s := by
  obtain ⟨waiting, hring, ⟨h0, _⟩ | ⟨h0, _⟩ | ⟨h0, _, hne⟩⟩ := h
  · exact ⟨[], s, .nil s, by simp, h0, rfl⟩
  · exact returns_draining waiting hring h0
  · cases waiting with
    | nil => exact absurd rfl hne
    | cons f waiting =>
      obtain ⟨ls, t, hrun, hloop, hnil, hacc⟩ := returns_draining waiting
        (s := { s with interface := s.interface.finishReadBuffer, stack := [.draining] })
        (LoopbackNetworkInterface.holding_finishReadBuffer hring) rfl
      refine ⟨.finishReadBuffer :: ls, t, .cons ⟨[], h0, rfl⟩ hrun, ?_, hnil, hacc⟩
      simpa [LoopStep] using hloop

/-! ## Runs with a reply -/

/-- More frames have been passed, or are about to be, than have been
accepted. `fresh` packet handlers are running on the slot at `currentRx`,
which only one of them will free; `again` frames have been passed a second
time. -/
structure Overrun (s : Loopback) (waiting : List (List UInt8)) (fresh again : Nat) : Prop where
  ring : s.interface.Holding waiting
  count : s.passed.length + waiting.length = s.accepted.length + again + fresh
  occupied : 0 < fresh → waiting ≠ []
  handling : s.stack.head? = some .handling → waiting ≠ [] → 0 < fresh
  outside : s.stack = [] → waiting = []
  excess : 0 < again ∨ 1 < fresh ∨ fresh = 1 ∧ s.stack.head? = some .draining

/-- The first reply: the slot that is being handled is read again. -/
theorem overrun_of_reply {s : Loopback} (h : Quiet s) {length : Nat} {isIpv4Packet : Bool}
    (hout : s.Outside) (hs : s.stack ≠ []) {interface : LoopbackNetworkInterface}
    (hf : s.interface.finishWriteBuffer length isIpv4Packet = some interface) :
    ∃ waiting fresh again, Overrun (s.finishWriteBuffer length isIpv4Packet) waiting fresh again := by
  obtain ⟨waiting, hring, ⟨h0, _⟩ | ⟨h0, _⟩ | ⟨h0, hacc, hne⟩⟩ := h
  · exact absurd h0 hs
  · refine absurd ?_ hout
    rw [h0]
    rfl
  · obtain ⟨f, hframe, hring'⟩ := LoopbackNetworkInterface.holding_finishWriteBuffer hring hf
    have hlen := congrArg List.length hacc
    have hpos := List.length_pos_iff.mpr hne
    rw [List.length_append, List.length_tail] at hlen
    refine ⟨waiting ++ [f], 1, 0, ?_⟩
    unfold Loopback.finishWriteBuffer
    rw [hf]
    refine ⟨hring', ?_, by simp, ?_, ?_, .inr (.inr ⟨rfl, rfl⟩)⟩
    · simp only [hframe, Option.toList_some, List.length_append, List.length_singleton]
      omega
    · intro hd
      cases hd
    · intro hd
      cases hd

theorem overrun_finishWriteBuffer {s : Loopback} {waiting : List (List UInt8)} {fresh again : Nat}
    (h : Overrun s waiting fresh again) (hout : s.Outside) (length : Nat) (isIpv4Packet : Bool) :
    ∃ waiting fresh again, Overrun (s.finishWriteBuffer length isIpv4Packet) waiting fresh again := by
  unfold Loopback.finishWriteBuffer
  cases hf : s.interface.finishWriteBuffer length isIpv4Packet with
  | none => exact ⟨waiting, fresh, again, h⟩
  | some interface =>
    obtain ⟨f, hframe, hring⟩ := LoopbackNetworkInterface.holding_finishWriteBuffer h.ring hf
    have hcount := h.count
    refine ⟨waiting ++ [f], fresh, again, hring, ?_, by simp, ?_, ?_, ?_⟩
    · simp only [hframe, Option.toList_some, List.length_append, List.length_singleton]
      omega
    · intro hd
      cases hd
    · intro hd
      cases hd
    · rcases h.excess with hover | hover | ⟨_, hd⟩
      · exact .inl hover
      · exact .inr (.inl hover)
      · exact absurd hd hout

theorem overrun_getReadBuffer {s : Loopback} {waiting : List (List UInt8)} {fresh again : Nat}
    (h : Overrun s waiting fresh again) (stack : List Activation) :
    ∃ waiting fresh again, Overrun (s.getReadBuffer stack) waiting fresh again := by
  have hhead : s.interface.getReadBuffer = waiting.head? := h.ring.head
  have hcount := h.count
  unfold Loopback.getReadBuffer
  rw [hhead]
  cases waiting with
  | nil =>
    -- nothing waits, so no handler runs on a full slot
    have hfresh : fresh = 0 := by
      by_contra hne
      exact h.occupied (Nat.pos_of_ne_zero hne) rfl
    have hagain : 0 < again := by
      rcases h.excess with hover | hover | ⟨hover, _⟩
      · exact hover
      · omega
      · omega
    exact ⟨[], fresh, again, h.ring, hcount, h.occupied, fun _ hne => absurd rfl hne, fun _ => rfl, .inl hagain⟩
  | cons f waiting =>
    dsimp only [List.head?_cons]
    refine ⟨f :: waiting, fresh + 1, again, h.ring, ?_, by simp, fun _ _ => Nat.succ_pos _, ?_, ?_⟩
    · dsimp only
      rw [List.length_append, List.length_singleton]
      omega
    · intro hd
      cases hd
    · rcases h.excess with hover | hover | ⟨hover, _⟩
      · exact .inl hover
      · exact .inr (.inl (by omega))
      · exact .inr (.inl (by omega))

theorem overrun_finishReadBuffer {s : Loopback} {waiting : List (List UInt8)} {fresh again : Nat}
    (h : Overrun s waiting fresh again) {stack : List Activation} (hs : s.stack = .handling :: stack) :
    ∃ waiting fresh again,
      Overrun { s with interface := s.interface.finishReadBuffer, stack := .draining :: stack } waiting fresh again := by
  have hcount := h.count
  have hover : 0 < again ∨ 1 < fresh := by
    rcases h.excess with hover | hover | ⟨_, hd⟩
    · exact .inl hover
    · exact .inr hover
    · rw [hs] at hd
      cases hd
  cases waiting with
  | nil =>
    have hfresh : ¬ 0 < fresh := fun hpos => h.occupied hpos rfl
    refine ⟨[], fresh, again, ?_, hcount, h.occupied, ?_, ?_, .inl (by omega)⟩
    · rw [LoopbackNetworkInterface.finishReadBuffer_of_empty h.ring]
      exact h.ring
    · intro hd
      cases hd
    · intro hd
      cases hd
  | cons f waiting =>
    have hfresh := h.handling (by rw [hs]; rfl) (by simp)
    refine ⟨waiting, 0, again + fresh - 1, LoopbackNetworkInterface.holding_finishReadBuffer h.ring, ?_, ?_, ?_, ?_, ?_⟩
    · rw [List.length_cons] at hcount
      dsimp only
      omega
    · intro hpos
      omega
    · intro hd
      cases hd
    · intro hd
      cases hd
    · exact .inl (by omega)

theorem overrun_step {s t : Loopback} {l : LoopbackStep} {waiting : List (List UInt8)} {fresh again : Nat}
    (h : Overrun s waiting fresh again) (hstep : loopbackStep s l t) :
    ∃ waiting fresh again, Overrun t waiting fresh again := by
  cases l with
  | write data =>
    obtain ⟨_, rfl⟩ := hstep
    exact ⟨waiting, fresh, again, LoopbackNetworkInterface.holding_write h.ring data, h.count, h.occupied, h.handling,
      h.outside, h.excess⟩
  | finishWriteBuffer length isIpv4Packet =>
    obtain ⟨hout, rfl⟩ := hstep
    exact overrun_finishWriteBuffer h hout length isIpv4Packet
  | getReadBuffer =>
    obtain ⟨stack, _, rfl⟩ := hstep
    exact overrun_getReadBuffer h stack
  | finishReadBuffer =>
    obtain ⟨stack, hs, rfl⟩ := hstep
    exact overrun_finishReadBuffer h hs

/-- A step keeps the order, or it is a reply. -/
theorem quiet_or_overrun {s t : Loopback} {l : LoopbackStep} (h : Quiet s) (hstep : loopbackStep s l t) :
    (NoReply s l ∧ Quiet t) ∨ ∃ waiting fresh again, Overrun t waiting fresh again := by
  by_cases hn : NoReply s l
  · exact .inl ⟨hn, quiet_step h hn hstep⟩
  · right
    cases l with
    | finishWriteBuffer length isIpv4Packet =>
      obtain ⟨hout, rfl⟩ := hstep
      obtain ⟨hs, hf⟩ := Classical.not_imp.mp hn
      obtain ⟨interface, hf⟩ := Option.ne_none_iff_exists'.mp hf
      exact overrun_of_reply h hout hs hf
    | write | getReadBuffer | finishReadBuffer => exact absurd trivial hn

theorem run_quiet_or_overrun {s t : Loopback} {ls : List LoopbackStep} (h : Quiet s) (hr : loopbackLTS.Run s ls t) :
    ((loopbackLTS.Guarded NoReply).Run s ls t ∧ Quiet t) ∨ ∃ waiting fresh again, Overrun t waiting fresh again := by
  induction hr with
  | nil s => exact .inl ⟨.nil s, h⟩
  | cons hstep hrun ih =>
    rcases quiet_or_overrun h hstep with ⟨hn, hq⟩ | hover
    · rcases ih hq with ⟨hg, hq'⟩ | hover
      · exact .inl ⟨.cons ⟨hn, hstep⟩ hg, hq'⟩
      · exact .inr hover
    · right
      refine hrun.keeps (I := fun t => ∃ waiting fresh again, Overrun t waiting fresh again)
        (fun _ _ _ hI hstep => ?_) hover
      obtain ⟨waiting, fresh, again, hover⟩ := hI
      exact overrun_step hover hstep

/-! ## Every frame once, in order -/

/-- The frames that have been passed are the first of those accepted, and no
more than the return of the packet handler is needed for the rest. -/
structure PassedInOrder (s : Loopback) : Prop where
  inOrder : s.passed <+: s.accepted
  finished : s.stack = [] → s.passed = s.accepted
  returns : Returns s

theorem passedInOrder_of_quiet {s : Loopback} (h : Quiet s) : PassedInOrder s := by
  have hreturns := returns_of_quiet h
  obtain ⟨waiting, _, ⟨h0, _, hacc⟩ | ⟨h0, hacc⟩ | ⟨h0, hacc, _⟩⟩ := h
  · exact ⟨hacc ▸ List.prefix_refl _, fun _ => hacc, hreturns⟩
  · refine ⟨⟨_, hacc⟩, fun hnil => ?_, hreturns⟩
    rw [h0] at hnil
    cases hnil
  · refine ⟨⟨_, hacc⟩, fun hnil => ?_, hreturns⟩
    rw [h0] at hnil
    cases hnil

theorem passed_ne_of_overrun {s : Loopback} {waiting : List (List UInt8)} {fresh again : Nat}
    (h : Overrun s waiting fresh again) (hs : s.stack = []) : s.passed ≠ s.accepted := by
  intro heq
  have hcount := h.count
  have hnil := h.outside hs
  have hfresh : ¬ 0 < fresh := fun hpos => h.occupied hpos hnil
  rw [heq, hnil, List.length_nil] at hcount
  have hover := h.excess
  omega

/-- Every frame is passed once and in order exactly in the runs in which the
packet handler sends nothing; the full slots are always those from `currentRx`
to `currentTx`. -/
theorem loopback_passes_once {s0 s : Loopback} {ls : List LoopbackStep} (h0 : loopbackLTS.init s0)
    (hr : loopbackLTS.Run s0 ls s) :
    (∃ waiting, s.interface.Holding waiting) ∧
      ((loopbackLTS.Guarded NoReply).Run s0 ls s → PassedInOrder s) ∧
      (s.stack = [] → (s.passed = s.accepted ↔ (loopbackLTS.Guarded NoReply).Run s0 ls s)) := by
  have hguarded (hg : (loopbackLTS.Guarded NoReply).Run s0 ls s) : PassedInOrder s := by
    refine passedInOrder_of_quiet (hg.keeps (I := Quiet) (fun u l v h hstep => ?_) (quiet_init h0))
    exact quiet_step h hstep.1 hstep.2
  rcases run_quiet_or_overrun (quiet_init h0) hr with ⟨hg, waiting, hring, _⟩ | ⟨waiting, fresh, again, hover⟩
  · exact ⟨⟨waiting, hring⟩, hguarded, fun hs => ⟨fun _ => hg, fun hg => (hguarded hg).finished hs⟩⟩
  · refine ⟨⟨waiting, hover.ring⟩, hguarded, fun hs => ⟨fun heq => ?_, fun hg => (hguarded hg).finished hs⟩⟩
    exact absurd heq (passed_ne_of_overrun hover hs)

/-! ## A host that asks for its own address -/

/-- The steps of `loopbackStep`, as a function. -/
def Loopback.step (s : Loopback) : LoopbackStep → Option Loopback
  | .write data =>
    if s.stack.head? ≠ some .draining then some { s with interface := s.interface.write data } else none
  | .finishWriteBuffer length isIpv4Packet =>
    if s.stack.head? ≠ some .draining then some (s.finishWriteBuffer length isIpv4Packet) else none
  | .getReadBuffer =>
    match s.stack with
    | .draining :: stack => some (s.getReadBuffer stack)
    | _ => none
  | .finishReadBuffer =>
    match s.stack with
    | .handling :: stack => some { s with interface := s.interface.finishReadBuffer, stack := .draining :: stack }
    | _ => none

def Loopback.steps (s : Loopback) : List LoopbackStep → Option Loopback
  | [] => some s
  | l :: ls => (s.step l).bind fun s => s.steps ls

theorem loopbackStep_of_step {s t : Loopback} {l : LoopbackStep} (h : s.step l = some t) : loopbackStep s l t := by
  cases l with
  | write data =>
    obtain ⟨hout, he⟩ := Option.ite_none_right_eq_some.mp h
    exact ⟨hout, (Option.some.inj he).symm⟩
  | finishWriteBuffer length isIpv4Packet =>
    obtain ⟨hout, he⟩ := Option.ite_none_right_eq_some.mp h
    exact ⟨hout, (Option.some.inj he).symm⟩
  | getReadBuffer =>
    rw [Loopback.step] at h
    split at h
    · rename_i stack hs
      cases h
      exact ⟨stack, hs, rfl⟩
    · cases h
  | finishReadBuffer =>
    rw [Loopback.step] at h
    split at h
    · rename_i stack hs
      cases h
      exact ⟨stack, hs, rfl⟩
    · cases h

theorem run_of_steps {s t : Loopback} {ls : List LoopbackStep} (h : s.steps ls = some t) : loopbackLTS.Run s ls t := by
  induction ls generalizing s with
  | nil =>
    cases h
    exact .nil _
  | cons l ls ih =>
    obtain ⟨u, hu, hrest⟩ := Option.bind_eq_some_iff.mp h
    exact .cons (loopbackStep_of_step hu) (ih hrest)

def emptyLoopback : Loopback := ⟨.init fun _ _ => 0, [], [], []⟩

/-- 10.0.0.1 asks for 10.0.0.1, -/
def ownRequest : Nat → UInt8 := (twoBuffers.sendARPRequest 0x0A000001 fun _ => 0).2

/-- and answers. -/
def ownReply : Nat → UInt8 :=
  (twoBuffers.handleOutgoingArpReply ownRequest (some fun _ => 0)).2.getD fun _ => 0

/-- The packet handler is called with the request, and replies. -/
def replySteps : List LoopbackStep := [.getReadBuffer, .write ownReply, .finishWriteBuffer 42 false]

/-- The packet handler is called with a frame it does not answer. -/
def readSteps : List LoopbackStep := [.getReadBuffer, .finishReadBuffer]

/-- What `LoopbackNetworkInterfacePacketHandler` does with the request. With
four replies waiting the slots are full, so the fifth gets no write buffer and
length 0. Then the replies are read, and the packet handlers return one by one.
mirrors network_management_task.cpp:164-180 -/
def ownRequestSteps : List LoopbackStep :=
  [.write ownRequest, .finishWriteBuffer 42 false] ++ (List.replicate 4 replySteps).flatten ++
    [.getReadBuffer, .finishWriteBuffer 0 false, .finishReadBuffer] ++ (List.replicate 4 readSteps).flatten ++
    [.getReadBuffer] ++ (List.replicate 4 [.finishReadBuffer, .getReadBuffer]).flatten

/-- The one request is passed to the packet handler five times. -/
theorem own_request_passed_again : ∃ s, loopbackLTS.init emptyLoopback ∧
    loopbackLTS.Run emptyLoopback ownRequestSteps s ∧ s.stack = [] ∧
    s.accepted.count ((List.range 42).map ownRequest) = 1 ∧ s.passed.count ((List.range 42).map ownRequest) = 5 := by
  have hrun : (emptyLoopback.steps ownRequestSteps).isSome := by decide +kernel
  obtain ⟨s, hs⟩ := Option.isSome_iff_exists.mp hrun
  have hcounts : (emptyLoopback.steps ownRequestSteps).map (fun s => (s.stack,
      s.accepted.count ((List.range 42).map ownRequest), s.passed.count ((List.range 42).map ownRequest))) =
      some ([], 1, 5) := by decide +kernel
  rw [hs] at hcounts
  simp only [Option.map_some, Option.some.injEq, Prod.mk.injEq] at hcounts
  exact ⟨s, ⟨⟨_, rfl⟩, rfl, rfl, rfl⟩, run_of_steps hs, hcounts⟩

/-- The same request, when the packet handler only reads it. -/
theorem loopback_passes_once_read : ∃ s, loopbackLTS.Run emptyLoopback
      [.write ownRequest, .finishWriteBuffer 42 false, .getReadBuffer, .finishReadBuffer, .getReadBuffer] s ∧
    s.stack = [] ∧ s.accepted = [(List.range 42).map ownRequest] ∧
    (s.passed = s.accepted ↔ (loopbackLTS.Guarded NoReply).Run emptyLoopback
      [.write ownRequest, .finishWriteBuffer 42 false, .getReadBuffer, .finishReadBuffer, .getReadBuffer] s) := by
  have hstate : (emptyLoopback.steps
      [.write ownRequest, .finishWriteBuffer 42 false, .getReadBuffer, .finishReadBuffer, .getReadBuffer]).map
      (fun s => (s.stack, s.accepted)) = some ([], [(List.range 42).map ownRequest]) := by decide +kernel
  obtain ⟨s, hs, he⟩ := Option.map_eq_some_iff.mp hstate
  simp only [Prod.mk.injEq] at he
  have hrun := run_of_steps hs
  exact ⟨s, hrun, he.1, he.2, (loopback_passes_once ⟨⟨_, rfl⟩, rfl, rfl, rfl⟩ hrun).2.2 he.1⟩

end CpuScheduler.L2
