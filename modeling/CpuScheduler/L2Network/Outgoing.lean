import CpuScheduler.Core.LTS
import CpuScheduler.L2Network.Handler

/-!
# NetworkStackHandler: sending, the ARP table, and the handler as a system

`handleOutgoingIPv4Packet` writes one frame per call: an ARP request while
the next hop is unknown, else the next fragment of the datagram. The caller
keeps `identification` and `fragmentOffset` between the calls for one
datagram (they are reference parameters), so they are arguments and results
here. A `writeBuffer` is a function from an index to a byte, of which the
first `size` are sent.

`handlerLTS` is the handler under any sequence of calls: incoming frames of
any content and of any length an interface can hand over, timer ticks,
outgoing packets and pops.
-/
namespace CpuScheduler.L2

open Links Word

def UNUSED_ARP_ENTRY_TIMEOUT : Nat := 15
def ARP_REQUEST_TIMEOUT : Nat := 10
def ARP_ENTRY_TIMEOUT : Nat := 120
def ARP_BROADCAST_ON_FAILURE_TIMEOUT : Nat := 15

/-- mirrors network_stack_handler.h:68-73 -/
inductive IPv4PacketProgress where
  | waitingOnARPReply | arpTableFull | sendingFragment | done
  deriving DecidableEq, Repr

/-- What a call of `handleOutgoingIPv4Packet` leaves behind outside the
handler: the returned pair, the two reference parameters and the buffer. -/
structure Outgoing where
  progress : IPv4PacketProgress
  size : Nat
  identification : UInt16
  fragmentOffset : Nat
  writeBuffer : Nat → UInt8

/-- `bytes` written from index `start` on. -/
def putBytes (buffer : Nat → UInt8) (start : Nat) (bytes : List UInt8) : Nat → UInt8 := fun i =>
  if start ≤ i then bytes[i - start]?.getD (buffer i) else buffer i

/-- `memCopy(data + start, buffer + at, numBytes)` -/
def copyBytes (buffer : Nat → UInt8) (pos : Nat) (data : Nat → UInt8) (start numBytes : Nat) :
    Nat → UInt8 := fun i =>
  if pos ≤ i ∧ i < pos + numBytes then data (start + (i - pos)) else buffer i

/-- An address as the four bytes the code writes. -/
def ipBytes (ip : UInt32) : List UInt8 :=
  [(ip >>> 24).toUInt8, ((ip >>> 16) &&& 0xFF).toUInt8, ((ip >>> 8) &&& 0xFF).toUInt8,
    (ip &&& 0xFF).toUInt8]

namespace NetworkStackHandler

variable {n h l : Nat}

/-- mirrors network_stack_handler.h:341-370 -/
def sendARPRequest (s : NetworkStackHandler n h l) (destinationIP : UInt32)
    (writeBuffer : Nat → UInt8) : Nat × (Nat → UInt8) :=
  (28 + ETHERNET_SIMPLE_HEADER_SIZE, putBytes writeBuffer 0
    (List.replicate 6 0xFF ++ List.ofFn s.myMac ++ [0x08, 0x06] ++
      [0x00, 0x01, 0x08, 0x00, 0x06, 0x04, 0x00, 0x01] ++ List.ofFn s.myMac ++ ipBytes s.myIP ++
      List.replicate 6 0x00 ++ ipBytes destinationIP))

/-- A null `writeBuffer` is `none`. mirrors network_stack_handler.h:484-521 -/
def handleOutgoingArpReply (s : NetworkStackHandler n h l) (incomingARPReq : Nat → UInt8)
    (writeBuffer : Option (Nat → UInt8)) : Nat × Option (Nat → UInt8) :=
  match writeBuffer with
  | none => (0, none)
  | some writeBuffer =>
    let destinationMac : List UInt8 := List.ofFn fun i : Fin 6 => incomingARPReq (22 + i)
    let destinationIP := be32 (incomingARPReq 28) (incomingARPReq 29) (incomingARPReq 30) (incomingARPReq 31)
    (28 + ETHERNET_SIMPLE_HEADER_SIZE, some (putBytes writeBuffer 0
      (destinationMac ++ List.ofFn s.myMac ++ [0x08, 0x06] ++
        [0x00, 0x01, 0x08, 0x00, 0x06, 0x04, 0x00, 0x02] ++ List.ofFn s.myMac ++ ipBytes s.myIP ++
        destinationMac ++ ipBytes destinationIP)))

/-- `~0U << (32 - networkMask)`; the shift count is taken modulo 32.
mirrors network_stack_handler.h:546-547 -/
def nextHopIP (s : NetworkStackHandler n h l) (destinationIP : UInt32) : UInt32 :=
  let bitMask : UInt32 := 0xFFFFFFFF <<< (32 - s.networkMask).toUInt32
  if destinationIP &&& bitMask = s.myIP &&& bitMask then destinationIP else s.gatewayIP

/-- One round of the search for a slot that does not already hold the next
hop. mirrors network_stack_handler.h:557-567 -/
def considerEntry (s : NetworkStackHandler n h l) (b : Fin h) (arpEntry : Option (Fin l))
    (i : Fin l) : Option (Fin l) :=
  let entry := s.arpEntries b i
  match arpEntry with
  | none =>
    if entry.IP = 0 then some i
    else if entry.lastUsed = -1 ∧ s.passedTimeSince entry.lastRequested > UNUSED_ARP_ENTRY_TIMEOUT then
      some i
    else if entry.lastUsed ≠ -1 then some i
    else none
  | some j =>
    let best := s.arpEntries b j
    if best.IP ≠ 0 then
      if entry.IP = 0 then some i
      else if entry.lastUsed = -1 ∧
          s.passedTimeSince entry.lastRequested > UNUSED_ARP_ENTRY_TIMEOUT then some i
      else if entry.lastUsed ≠ -1 ∧ best.lastUsed ≠ -1 ∧
          s.passedTimeSince entry.lastUsed > s.passedTimeSince best.lastUsed then some i
      else some j
    else some j

/-- mirrors network_stack_handler.h:550-568 -/
def selectLoop (s : NetworkStackHandler n h l) (nextHop : UInt32) (b : Fin h) :
    List (Fin l) → Option (Fin l) → Option (Fin l)
  | [], arpEntry => arpEntry
  | i :: is, arpEntry =>
    if (s.arpEntries b i).IP = nextHop then some i
    else selectLoop s nextHop b is (s.considerEntry b arpEntry i)

/-- The outcome of the ARP part: no slot, an early return (with the bytes
written), or a slot whose `MAC` is to be used. -/
inductive Resolution (n h l : Nat) where
  | full
  | waiting (size : Nat) (writeBuffer : Nat → UInt8) (s : NetworkStackHandler n h l)
  | known (i : Fin l) (s : NetworkStackHandler n h l)

/-- `lastRequested = timerCounter`, and the request frame. -/
def requestARP (s : NetworkStackHandler n h l) (nextHop : UInt32) (b : Fin h) (i : Fin l)
    (entry : ARPEntry) (writeBuffer : Nat → UInt8) : Resolution n h l :=
  let (size, buffer) := s.sendARPRequest nextHop writeBuffer
  .waiting size buffer (s.setARPEntry b i { entry with lastRequested := s.timerCounter })

/-- mirrors network_stack_handler.h:545-612 -/
def resolve [NeZero h] (s : NetworkStackHandler n h l) (nextHop : UInt32)
    (writeBuffer : Nat → UInt8) : Resolution n h l :=
  let b : Fin h := bucket nextHop
  match s.selectLoop nextHop b (List.finRange l) none with
  | none => .full
  | some i =>
    let entry := if (s.arpEntries b i).IP ≠ nextHop then
        { s.arpEntries b i with
          IP := nextHop, lastUsed := -1, lastRequested := -1, lastAnswered := -1 }
      else s.arpEntries b i
    if entry.lastRequested = -1 then s.requestARP nextHop b i entry writeBuffer
    else if entry.lastAnswered = -1 ∨
        s.passedTimeSince entry.lastAnswered > s.passedTimeSince entry.lastRequested then
      -- last ARP request has not been answered yet
      if s.passedTimeSince entry.lastRequested > ARP_REQUEST_TIMEOUT ∧
          s.passedTimeSince entry.lastRequested ≤ ARP_BROADCAST_ON_FAILURE_TIMEOUT then
        .known i (s.setARPEntry b i { entry with MAC := fun _ => 0xFF })
      else if s.passedTimeSince entry.lastRequested > ARP_BROADCAST_ON_FAILURE_TIMEOUT then
        s.requestARP nextHop b i entry writeBuffer
      else .waiting 0 writeBuffer (s.setARPEntry b i entry)
    else if s.passedTimeSince entry.lastAnswered > ARP_ENTRY_TIMEOUT then
      s.requestARP nextHop b i entry writeBuffer
    else .known i (s.setARPEntry b i entry)

/-- The Ethernet and IPv4 header of a fragment.
mirrors network_stack_handler.h:630-658 -/
def fragmentHeader (s : NetworkStackHandler n h l) (mac : Fin 6 → UInt8) (destinationIP : UInt32)
    (protocol : UInt8) (identification : UInt16) (fragmentOffset fragmentSize : Nat)
    (lastFragment : Bool) : List UInt8 :=
  let totalLength := IPV4_MINIMAL_HEADER_SIZE + fragmentSize
  let flagsAndFragmentOffset :=
    ((if lastFragment then 0 else 0x2000) ||| (fragmentOffset >>> 3)) % 65536
  List.ofFn mac ++ List.ofFn s.myMac ++
    [0x08, 0x00, 0x45, 0x00, UInt8.ofNat (totalLength >>> 8), UInt8.ofNat (totalLength &&& 0xFF),
      UInt8.ofNat (identification.toNat >>> 8), UInt8.ofNat (identification.toNat &&& 0xFF),
      UInt8.ofNat (flagsAndFragmentOffset >>> 8), UInt8.ofNat (flagsAndFragmentOffset &&& 0xFF),
      255, protocol, 0x00, 0x00] ++ ipBytes s.myIP ++ ipBytes destinationIP

/-- Lines 616-668: the fragment itself, to the `MAC` of slot `i` in bucket `b`. -/
def sendFragment (s : NetworkStackHandler n h l) (b : Fin h) (i : Fin l) (destinationIP : UInt32)
    (protocol : UInt8) (data : Nat → UInt8) (dataLen : Nat) (identification : UInt16)
    (fragmentOffset : Nat) (writeBuffer : Nat → UInt8) : Outgoing × NetworkStackHandler n h l :=
  let mac := (s.arpEntries b i).MAC
  let s := s.setARPEntry b i { s.arpEntries b i with lastUsed := s.timerCounter }
  let lastFragment := decide (dataLen - fragmentOffset < ETHERNET_MTU - IPV4_MINIMAL_HEADER_SIZE)
  let fragmentSize :=
    if lastFragment then dataLen - fragmentOffset else ETHERNET_MTU - IPV4_MINIMAL_HEADER_SIZE
  let identification' := if fragmentOffset = 0 then s.identificationCounter else identification
  let s := if fragmentOffset = 0 then
    { s with identificationCounter := s.identificationCounter + 1 } else s
  let headerSize := ETHERNET_SIMPLE_HEADER_SIZE + IPV4_MINIMAL_HEADER_SIZE
  let buffer := putBytes writeBuffer 0 (s.fragmentHeader mac destinationIP protocol identification'
    fragmentOffset fragmentSize lastFragment)
  ({ progress := if lastFragment then .done else .sendingFragment
     size := headerSize + fragmentSize
     identification := identification'
     fragmentOffset := fragmentOffset + fragmentSize
     writeBuffer := copyBytes buffer headerSize data fragmentOffset fragmentSize }, s)

/-- The ports are parameters of the source that it does not use. A null
`data` or `writeBuffer` is `none`.
mirrors network_stack_handler.h:527-669 -/
def handleOutgoingIPv4Packet [NeZero h] (s : NetworkStackHandler n h l) (destinationIP : UInt32)
    (_sourcePort _destinationPort : UInt16) (protocol : UInt8) (data : Option (Nat → UInt8))
    (dataLen : Nat) (identification : UInt16) (fragmentOffset : Nat)
    (writeBuffer : Option (Nat → UInt8)) : Outgoing × NetworkStackHandler n h l :=
  match data, writeBuffer with
  | some data, some writeBuffer =>
    if fragmentOffset ≥ dataLen then (⟨.done, 0, identification, fragmentOffset, writeBuffer⟩, s)
    else
      let nextHop := s.nextHopIP destinationIP
      match s.resolve nextHop writeBuffer with
      | .full => (⟨.arpTableFull, 0, identification, fragmentOffset, writeBuffer⟩, s)
      | .waiting size buffer s =>
        (⟨.waitingOnARPReply, size, identification, fragmentOffset, buffer⟩, s)
      | .known i s => s.sendFragment (bucket nextHop) i destinationIP protocol data dataLen
          identification fragmentOffset writeBuffer
  | _, _ => (⟨.done, 0, identification, fragmentOffset, writeBuffer.getD fun _ => 0⟩, s)

end NetworkStackHandler

/-! ## The handler as a transition system -/

/-- A frame as an interface hands it over: one receive buffer
(`rxBufferSpace+RX_BUFFER_SIZE*currentRx`) of which the card, or the
loopback interface, filled `dataLen` bytes. -/
structure RxFrame where
  data : Nat → UInt8
  dataLen : Nat
  fits : dataLen ≤ RX_BUFFER_SIZE

/-- The arguments of one `handleOutgoingIPv4Packet` call. -/
structure OutgoingArgs where
  destinationIP : UInt32
  sourcePort : UInt16
  destinationPort : UInt16
  protocol : UInt8
  data : Option (Nat → UInt8)
  dataLen : Nat
  identification : UInt16
  fragmentOffset : Nat
  writeBuffer : Option (Nat → UInt8)

/-- One call on the handler. -/
inductive Call where
  | incoming (f : RxFrame)
  | pop
  | outgoing (a : OutgoingArgs)
  | tick

namespace NetworkStackHandler

variable {n h l : Nat}

def incoming [NeZero h] (s : NetworkStackHandler n h l) (f : RxFrame) :
    Option (PacketType × NetworkStackHandler n h l) :=
  (s.handleIncomingEthernetPacket f.data f.dataLen).val

def outgoing [NeZero h] (s : NetworkStackHandler n h l) (a : OutgoingArgs) :
    Outgoing × NetworkStackHandler n h l :=
  s.handleOutgoingIPv4Packet a.destinationIP a.sourcePort a.destinationPort a.protocol a.data
    a.dataLen a.identification a.fragmentOffset a.writeBuffer

/-- The state after one call; `none`: the call comes to no defined end. -/
def call [NeZero h] (s : NetworkStackHandler n h l) : Call → Option (NetworkStackHandler n h l)
  | .incoming f => (s.incoming f).map (·.2)
  | .pop => s.popLatestIPv4Packet
  | .outgoing a => some (s.outgoing a).2
  | .tick => some s.incrementTimerCounter

/-- The calls `cs` one after the other. -/
def calls [NeZero h] (s : NetworkStackHandler n h l) : List Call → Option (NetworkStackHandler n h l)
  | [] => some s
  | c :: cs => (s.call c).bind fun s => s.calls cs

end NetworkStackHandler

/-- Any sequence of calls on a newly constructed handler. -/
def handlerLTS (n h l : Nat) [NeZero n] [NeZero h] : LTS (NetworkStackHandler n h l) Call where
  init s := ∃ mem myMac myIP gatewayIP networkMask,
    s = NetworkStackHandler.init mem myMac myIP gatewayIP networkMask
  step s c t := s.call c = some t

end CpuScheduler.L2
