import CpuScheduler.L2Network.ArpTable

/-!
# Many datagrams, one sender

`handleOutgoingIPv4Packet` sends one fragment per call. What it has to
remember between two calls for a datagram (`identification`,
`fragmentOffset`) is kept by the caller, one pair per datagram; the
identification counter is shared. Between two calls for one datagram there
may be calls for any other, ticks, frames that arrive, and slots of the ARP
table that expire or are given away.

`senderLTS` is the handler with any set of datagrams under every such order
of calls. `frames` keeps what was sent, for the statements only.
-/
namespace CpuScheduler.L2

open Word NetworkStackHandler

variable {n h l : Nat} {D : Type}

/-! ## One call -/

/-- The call left a fragment in the buffer.
mirrors network_management_task.cpp:374-375 -/
def Outgoing.isFragment (o : Outgoing) : Bool :=
  decide (0 < o.size) && (decide (o.progress = .done) || decide (o.progress = .sendingFragment))

/-- What is to be sent: the parts of an `OutgoingUDPPacket` that stay the
same from call to call. -/
structure Datagram where
  destinationIP : UInt32
  sourcePort : UInt16
  destinationPort : UInt16
  protocol : UInt8
  data : Nat → UInt8
  dataLen : Nat
  nonempty : 0 < dataLen
  fits : dataLen ≤ 65535

/-- A handler and the variables of its callers. -/
structure Sender (D : Type) (n h l : Nat) where
  handler : NetworkStackHandler n h l
  identification : D → UInt16
  fragmentOffset : D → Nat
  frames : List (D × Outgoing)

namespace Sender

variable [DecidableEq D] (ds : D → Datagram)

/-- The arguments of the next call for `d`. -/
def args (s : Sender D n h l) (d : D) (writeBuffer : Nat → UInt8) : OutgoingArgs where
  destinationIP := (ds d).destinationIP
  sourcePort := (ds d).sourcePort
  destinationPort := (ds d).destinationPort
  protocol := (ds d).protocol
  data := some (ds d).data
  dataLen := (ds d).dataLen
  identification := s.identification d
  fragmentOffset := s.fragmentOffset d
  writeBuffer := some writeBuffer

/-- What the next call for `d` returns. -/
def result [NeZero h] (s : Sender D n h l) (d : D) (writeBuffer : Nat → UInt8) : Outgoing :=
  (s.handler.outgoing (s.args ds d writeBuffer)).1

/-- `identification` and `fragmentOffset` are reference parameters. -/
def send [NeZero h] (s : Sender D n h l) (d : D) (writeBuffer : Nat → UInt8) : Sender D n h l where
  handler := (s.handler.outgoing (s.args ds d writeBuffer)).2
  identification := Function.update s.identification d (s.result ds d writeBuffer).identification
  fragmentOffset := Function.update s.fragmentOffset d (s.result ds d writeBuffer).fragmentOffset
  frames := if (s.result ds d writeBuffer).isFragment then s.frames ++ [(d, s.result ds d writeBuffer)] else s.frames

/-- The frames sent for `d`. -/
def framesOf (s : Sender D n h l) (d : D) : List Outgoing := (s.frames.filter fun p => p.1 = d).map (·.2)

/-- The datagrams in the order of their first fragments. -/
def firstFragments (s : Sender D n h l) : List D :=
  (s.frames.filter fun p => ipFragmentOffset p.2.writeBuffer = 0).map (·.1)

end Sender

/-- Frame `o` carries the `size` bytes of `g` from `offset` on. -/
structure CarriesBytes (g : Datagram) (identification : UInt16) (offset size : Nat) (o : Outgoing) : Prop where
  nonempty : 0 < size
  aligned : offset % 8 = 0
  frameSize : o.size = 34 + size
  fits : o.size ≤ 1514
  totalLength : ipTotalLength o.writeBuffer = 20 + size
  offsetField : ipFragmentOffset o.writeBuffer = offset
  identificationField : ipIdentification o.writeBuffer = identification.toNat
  payload : ∀ i < size, o.writeBuffer (34 + i) = g.data (offset + i)

/-- The frames carry the bytes of `g` up to `bound`, each byte once and in
order. -/
inductive Covers (g : Datagram) (identification : UInt16) : List Outgoing → Nat → Prop where
  | nil : Covers g identification [] 0
  | snoc {os : List Outgoing} {offset size : Nat} {o : Outgoing} : Covers g identification os offset →
      CarriesBytes g identification offset size o → Covers g identification (os ++ [o]) (offset + size)

section Invariant
variable [NeZero n] [NeZero h] [DecidableEq D] {ds : D → Datagram} {s : Sender D n h l}

structure SenderInv (ds : D → Datagram) (s : Sender D n h l) : Prop where
  handler : (handlerLTS n h l).Reachable s.handler
  covers : ∀ d, Covers (ds d) (s.identification d) (s.framesOf d) (s.fragmentOffset d)
  offset : ∀ d, s.fragmentOffset d = (ds d).dataLen ∨ s.fragmentOffset d < (ds d).dataLen ∧ s.fragmentOffset d % 8 = 0
  counter : s.handler.identificationCounter = UInt16.ofNat s.firstFragments.length
  first : ∀ i d, s.firstFragments[i]? = some d → s.identification d = UInt16.ofNat i ∧ 0 < s.fragmentOffset d

theorem SenderInv.congr (hs : SenderInv ds s) {u : NetworkStackHandler n h l} (hu : (handlerLTS n h l).Reachable u)
    (hcnt : u.identificationCounter = s.handler.identificationCounter) : SenderInv ds { s with handler := u } where
  handler := hu
  covers := hs.covers
  offset := hs.offset
  counter := hcnt.trans hs.counter
  first := hs.first

end Invariant

/-! ## One byte to oneself -/

end CpuScheduler.L2
