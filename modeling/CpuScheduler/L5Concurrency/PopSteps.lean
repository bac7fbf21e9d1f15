import CpuScheduler.L2Network.Delivery

/-!
# popLatestIPv4Packet, one memory access at a time

A task calls `popLatestIPv4Packet`; the interrupt handlers
(`handleIncomingEthernetPacket`, `incrementTimerCounter`) run to their end
between any two of its memory accesses. `PopPc` is the program counter of
the pop together with its local variables, `popStep` the next access (a
plain read, a plain write or a `conditionalExchange`), and a schedule is a
list of `Move`s: an access of the task, or a complete interrupt handler.

`splitLast` cuts the interrupts of a schedule at the last successful
`conditionalExchange`.
-/
namespace CpuScheduler.L5

open Links L2 L2.NetworkStackHandler

variable {n h l : Nat}

/-- The next access of the pop, with the local variables it needs.
`popped` is `poppedPacket` (and, from line 185 on, `listFirst`).
mirrors network_stack_handler.h:679-690 and 185-213 -/
inductive PopPc (n : Nat) where
  /-- `readyToReadPacketsHead==nullptr` -/
  | testHead
  /-- `poppedPacket = readyToReadPacketsHead` -/
  | readHead
  /-- exchange of `readyToReadPacketsTail` -/
  | exchangeTail (popped : Fin n)
  /-- `newHead = poppedPacket->next` -/
  | readNext (popped : Fin n)
  /-- `newHead->prev = nullptr` -/
  | writePrev (popped newHead : Fin n)
  /-- exchange of `readyToReadPacketsHead` -/
  | exchangeHead (popped : Fin n) (newHead : Ptr n)
  /-- `nextFragment`, from `firstFragment->value.nextFragment` -/
  | readFragment (popped firstFragment : Fin n)
  /-- `firstFragment->next = nextFragment` -/
  | writeNext (popped firstFragment : Fin n) (nextFragment : Ptr n)
  /-- `oldHead = unusedPacketsHead` -/
  | readUnused (popped listLast : Fin n)
  /-- `listLast->next = oldHead` -/
  | writeLast (popped listLast : Fin n) (oldHead : Ptr n)
  /-- exchange of `unusedPacketsHead` -/
  | exchangeUnused (popped listLast : Fin n) (oldHead : Ptr n)
  | done
  deriving DecidableEq, Repr

/-- The result of one access: the next program counter, memory, and whether
it was an exchange that succeeded. -/
structure Access (n h l : Nat) where
  pc : PopPc n
  mem : NetworkStackHandler n h l
  exchanged : Bool

/-- One access of the task. -/
def popStep (s : NetworkStackHandler n h l) : PopPc n → Access n h l
  | .testHead =>
    if s.readyToReadPacketsHead = none then ⟨.done, s, false⟩ else ⟨.readHead, s, false⟩
  | .readHead =>
    match s.readyToReadPacketsHead with
    | none => ⟨.done, s, false⟩
    | some popped => ⟨.exchangeTail popped, s, false⟩
  | .exchangeTail popped =>
    if s.readyToReadPacketsTail = some popped then
      ⟨.readNext popped, { s with readyToReadPacketsTail := none }, true⟩
    else ⟨.readNext popped, s, false⟩
  | .readNext popped =>
    match s.next popped with
    | none => ⟨.exchangeHead popped none, s, false⟩
    | some newHead => ⟨.writePrev popped newHead, s, false⟩
  | .writePrev popped newHead =>
    ⟨.exchangeHead popped (some newHead), { s with prev := Function.update s.prev newHead none },
      false⟩
  | .exchangeHead popped newHead =>
    if s.readyToReadPacketsHead = some popped then
      ⟨.readFragment popped popped, { s with readyToReadPacketsHead := newHead }, true⟩
    else ⟨.readFragment popped popped, s, false⟩
  | .readFragment popped firstFragment =>
    ⟨.writeNext popped firstFragment (s.nextFragment firstFragment), s, false⟩
  | .writeNext popped firstFragment nextFragment =>
    let s := { s with next := Function.update s.next firstFragment nextFragment }
    match nextFragment with
    | none => ⟨.readUnused popped firstFragment, s, false⟩
    | some nextFragment => ⟨.readFragment popped nextFragment, s, false⟩
  | .readUnused popped listLast => ⟨.writeLast popped listLast s.unusedPacketsHead, s, false⟩
  | .writeLast popped listLast oldHead =>
    ⟨.exchangeUnused popped listLast oldHead,
      { s with next := Function.update s.next listLast oldHead }, false⟩
  | .exchangeUnused popped listLast oldHead =>
    if s.unusedPacketsHead = oldHead then
      ⟨.done, { s with unusedPacketsHead := some popped }, true⟩
    else ⟨.readUnused popped listLast, s, false⟩
  | .done => ⟨.done, s, false⟩

/-- An interrupt handler. -/
inductive Interrupt where
  | packet (f : RxFrame)
  | timer

def Interrupt.call : Interrupt → Call
  | .packet f => .incoming f
  | .timer => .tick

/-- One step of a schedule. -/
inductive Move where
  | task
  | interrupt (i : Interrupt)

def Move.interrupts : Move → List Interrupt
  | .task => []
  | .interrupt i => [i]

/-- The interrupts of a schedule, in order. -/
def interrupts (ms : List Move) : List Interrupt := ms.flatMap Move.interrupts

section Schedule
variable [NeZero h]

/-- One move; `none`: an interrupt handler that comes to no defined end. -/
def move (pc : PopPc n) (s : NetworkStackHandler n h l) : Move → Option (Access n h l)
  | .task => some (popStep s pc)
  | .interrupt i => (s.call i.call).map (⟨pc, ·, false⟩)

/-- The moves of a schedule one after the other. -/
def runMoves : List Move → PopPc n → NetworkStackHandler n h l →
    Option (PopPc n × NetworkStackHandler n h l)
  | [], pc, s => some (pc, s)
  | m :: ms, pc, s => (move pc s m).bind fun r => runMoves ms r.pc r.mem

/-- The interrupts before and after the last successful exchange. -/
def splitLast : List Move → PopPc n → NetworkStackHandler n h l →
    Option (List Interrupt × List Interrupt)
  | [], _, _ => none
  | m :: ms, pc, s => (move pc s m).bind fun r =>
    match splitLast ms r.pc r.mem with
    | some (before, after) => some (m.interrupts ++ before, after)
    | none => if r.exchanged then some ([], interrupts ms) else none

/-- The interrupt handlers `is`, one after the other. -/
def handle (s : NetworkStackHandler n h l) (is : List Interrupt) : Option (NetworkStackHandler n h l) :=
  s.calls (is.map Interrupt.call)

end Schedule

end CpuScheduler.L5
