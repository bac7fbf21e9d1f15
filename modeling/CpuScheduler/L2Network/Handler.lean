import CpuScheduler.Core.Links
import CpuScheduler.Core.Traced
import CpuScheduler.Core.Word

/-!
# NetworkStackHandler: packet buffers, reassembly and the ready queue

`network_stack_handler.h`, the receiving side. A handler owns an array of
`numPacketBuffers` list elements, each with its own 2048-byte data buffer.
Every element is meant to be in one of three lists:

* the unused list (`unusedPacketsHead`, linked through `next`),
* a chain of the incomplete list: the heads are linked through `next`
  from `incompleteFragmentedDatagramsHead`, the fragments of one datagram
  through `nextFragment`,
* a chain of the ready list (`readyToReadPacketsHead` / `Tail`, heads
  doubly linked through `next` and `prev`).

The element array is modelled field by field: `next`, `prev` and
`nextFragment` are functions from an element to a pointer, `value` holds the
other fields of its `IPv4Packet` (with the bytes `pData` points to). A
pointer is `Option (Fin n)`; the template parameters are the indices
`n h l` of the type.

The loops of the source follow pointers, so they are bounded by a number of
iterations here. The result `none` means that the code comes to no defined
end: a loop is not over after as many iterations as there are elements, or
a null pointer is dereferenced. `Refine` shows that this never happens in a
reachable state.

The received frame is the pointer `data` (a function from an index to the
byte found there, whatever lies behind the frame) and `dataLen`. Accesses to
it are logged (`FrameAccess`), so that what the code reads is part of the
model.
-/
namespace CpuScheduler.L2

open Links Word

/-- A pointer to an element of `packetListElements`. -/
abbrev Ptr (n : Nat) := Option (Fin n)

def FRAGMENT_TIMEOUT : Nat := 10
def RX_BUFFER_SIZE : Nat := 2048
def ETHERNET_MTU : Nat := 1500
def ETHERNET_SIMPLE_HEADER_SIZE : Nat := 14
def IPV4_MINIMAL_HEADER_SIZE : Nat := 20
def INT_MAX : Int := 2147483647

/-- mirrors network_stack_handler.h:31-37 -/
inductive PacketType where
  | notForThisMachine | arpReply | arpRequest | ipv4Packet | unknownType
  deriving DecidableEq, Repr

/-- mirrors network_stack_handler.h:43-57; `nextFragment` is a field of its
own in the handler and `data` are the bytes at `pData`. -/
structure IPv4Packet where
  sourceIP : UInt32
  destIP : UInt32
  dataSize : Nat
  protocol : UInt8
  moreFragments : Bool
  fragmentOffset : Nat
  identification : Nat
  createdTime : Nat
  data : Nat → UInt8

/-- mirrors network_stack_handler.h:59-66 -/
structure ARPEntry where
  IP : UInt32
  lastUsed : Int
  lastRequested : Int
  lastAnswered : Int
  MAC : Fin 6 → UInt8
  deriving DecidableEq

/-- `arpEntries i j` is the source's `arpEntries[i*arpHashEntryListSize + j]`.
mirrors network_stack_handler.h:372-390 -/
structure NetworkStackHandler (n h l : Nat) where
  next : Fin n → Ptr n
  prev : Fin n → Ptr n
  nextFragment : Fin n → Ptr n
  value : Fin n → IPv4Packet
  arpEntries : Fin h → Fin l → ARPEntry
  unusedPacketsHead : Ptr n
  incompleteFragmentedDatagramsHead : Ptr n
  readyToReadPacketsHead : Ptr n
  readyToReadPacketsTail : Ptr n
  myMac : Fin 6 → UInt8
  myIP : UInt32
  gatewayIP : UInt32
  networkMask : Nat
  timerCounter : Int
  identificationCounter : UInt16

/-- One access of the code to a frame or to a packet's data buffer: `read i`
reads `data[i]`, `store i` writes `pData->data[i]`. -/
inductive FrameAccess where
  | read (i : Nat)
  | store (i : Nat)
  deriving DecidableEq, Repr

namespace NetworkStackHandler

variable {n h l : Nat}

/-- The constructor. The elements' `prev`, `value` and `nextFragment` are not
initialised: `mem` is what the memory held before.
mirrors network_stack_handler.h:393-429 -/
def init [NeZero n] (mem : NetworkStackHandler n h l) (myMac : Fin 6 → UInt8)
    (myIP gatewayIP : UInt32) (networkMask : Nat) : NetworkStackHandler n h l :=
  { mem with
    next := fun i => if hi : i.val + 1 < n then some ⟨i.val + 1, hi⟩ else none
    arpEntries := fun _ _ => ⟨0, -1, -1, -1, fun _ => 0⟩
    unusedPacketsHead := some 0
    incompleteFragmentedDatagramsHead := none
    readyToReadPacketsHead := none
    readyToReadPacketsTail := none
    myMac := myMac
    myIP := myIP
    gatewayIP := gatewayIP
    networkMask := if networkMask ≤ 32 then networkMask else 24
    timerCounter := 0
    identificationCounter := 0 }

/-- `int` arithmetic in the first branch, `unsigned` (through `INT_MAX`) in
the second; the result is an `unsigned int`.
mirrors network_stack_handler.h:328-339 -/
def passedTimeSince (s : NetworkStackHandler n h l) (oldTimerCounter : Int) : Nat :=
  if s.timerCounter ≥ oldTimerCounter then asUInt (s.timerCounter - oldTimerCounter)
  else asUInt ((INT_MAX - oldTimerCounter + 1) + s.timerCounter)

/-- mirrors network_stack_handler.h:692-700 -/
def incrementTimerCounter (s : NetworkStackHandler n h l) : NetworkStackHandler n h l :=
  let t := asInt (s.timerCounter + 1)
  { s with timerCounter := if t < 0 then 0 else t }

/-! ## The unused list -/

/-- The loop that links the fragments of a chain through `next`; returns the
new links and `listLast`.
mirrors network_stack_handler.h:191-204 -/
def relinkLoop (frag : Fin n → Ptr n) :
    Nat → (Fin n → Ptr n) → Fin n → Option ((Fin n → Ptr n) × Fin n)
  | 0, _, _ => none
  | fuel + 1, next, firstFragment =>
    let next := Function.update next firstFragment (frag firstFragment)
    match frag firstFragment with
    | none => some (next, firstFragment)
    | some nextFragment => relinkLoop frag fuel next nextFragment

/-- Without an interrupt between the read of the head and the exchange, the
`conditionalExchange` of the retry loop succeeds the first time (the
interrupted runs are in `L5Concurrency`).
mirrors network_stack_handler.h:185-213 -/
def insertFragmentedPacketsInUnusedPacketsList (s : NetworkStackHandler n h l) :
    Ptr n → Option (NetworkStackHandler n h l)
  | none => some s
  | some firstFragment =>
    (relinkLoop s.nextFragment n s.next firstFragment).map fun (next, listLast) =>
      { s with next := Function.update next listLast s.unusedPacketsHead
               unusedPacketsHead := some firstFragment }

/-- Returns 0 if successful, 1 if not.
mirrors network_stack_handler.h:171-183 -/
def makeSureUnusedPacketsHeadIsntNullptr (s : NetworkStackHandler n h l) :
    Option (Nat × NetworkStackHandler n h l) :=
  if s.unusedPacketsHead ≠ none then some (0, s)
  else match s.incompleteFragmentedDatagramsHead with
    | none => some (1, s)
    | some incompleteDatagramFragment =>
      (insertFragmentedPacketsInUnusedPacketsList
        { s with incompleteFragmentedDatagramsHead := s.next incompleteDatagramFragment }
        (some incompleteDatagramFragment)).map (0, ·)

/-- Take the first unused element; `none` as element: every element is in
the ready list and the packet is dropped.
mirrors network_stack_handler.h:138-144 -/
def takeUnusedPacket (s : NetworkStackHandler n h l) :
    Option (Option (Fin n) × NetworkStackHandler n h l) :=
  match makeSureUnusedPacketsHeadIsntNullptr s with
  | none => none
  | some (failed, s) =>
    if failed = 1 then some (none, s)
    else match s.unusedPacketsHead with
      | none => none
      | some e => some (some e,
          { s with unusedPacketsHead := s.next e, next := Function.update s.next e none })

/-! ## The ready list -/

/-- mirrors network_stack_handler.h:314-326 -/
def insertInReadyToReadPacketsList (s : NetworkStackHandler n h l) (pNewPacket : Fin n) :
    NetworkStackHandler n h l :=
  let s := { s with next := Function.update s.next pNewPacket none
                    prev := Function.update s.prev pNewPacket s.readyToReadPacketsTail }
  let s := match s.readyToReadPacketsTail with
    | none => { s with readyToReadPacketsHead := some pNewPacket }
    | some tail => { s with next := Function.update s.next tail (some pNewPacket) }
  { s with readyToReadPacketsTail := some pNewPacket }

/-- mirrors network_stack_handler.h:679-690, run without interruption -/
def popLatestIPv4Packet (s : NetworkStackHandler n h l) : Option (NetworkStackHandler n h l) :=
  match s.readyToReadPacketsHead with
  | none => some s
  | some poppedPacket =>
    let s := if s.readyToReadPacketsTail = some poppedPacket
      then { s with readyToReadPacketsTail := none } else s
    let newHead := s.next poppedPacket
    let s := match newHead with
      | none => s
      | some b => { s with prev := Function.update s.prev b none }
    let s := if s.readyToReadPacketsHead = some poppedPacket
      then { s with readyToReadPacketsHead := newHead } else s
    insertFragmentedPacketsInUnusedPacketsList s (some poppedPacket)

/-! ## Reassembly -/

/-- What `nextListElementPtr` points to: the head of the incomplete list or
the `next` link of an element. -/
inductive Slot (n : Nat) where
  | head
  | next (i : Fin n)
  deriving DecidableEq, Repr

def load (s : NetworkStackHandler n h l) : Slot n → Ptr n
  | .head => s.incompleteFragmentedDatagramsHead
  | .next i => s.next i

def store (s : NetworkStackHandler n h l) (v : Ptr n) : Slot n → NetworkStackHandler n h l
  | .head => { s with incompleteFragmentedDatagramsHead := v }
  | .next i => { s with next := Function.update s.next i v }

/-- More than `FRAGMENT_TIMEOUT` ticks have passed since the packet's
`createdTime` (an `unsigned int`, passed on as `int`). -/
def timedOut (s : NetworkStackHandler n h l) (p : IPv4Packet) : Bool :=
  decide (s.passedTimeSince (asInt p.createdTime) > FRAGMENT_TIMEOUT)

/-- Same source, destination and identification. -/
def sameDatagram (p q : IPv4Packet) : Bool :=
  p.sourceIP == q.sourceIP && p.destIP == q.destIP && p.identification == q.identification

/-- The search for the chain of the new fragment, dropping the timed-out
chains on the way.
mirrors network_stack_handler.h:217-235 -/
def findLoop (pNewFragment : Fin n) :
    Nat → NetworkStackHandler n h l → Slot n → Option (NetworkStackHandler n h l × Slot n)
  | 0, _, _ => none
  | fuel + 1, s, nextListElementPtr =>
    match s.load nextListElementPtr with
    | none => some (s, nextListElementPtr)
    | some nextListElement =>
      if s.timedOut (s.value nextListElement) then
        (insertFragmentedPacketsInUnusedPacketsList
          (s.store (s.next nextListElement) nextListElementPtr) (some nextListElement)).bind
          fun s => findLoop pNewFragment fuel s nextListElementPtr
      else if sameDatagram (s.value pNewFragment) (s.value nextListElement) then
        some (s, nextListElementPtr)
      else findLoop pNewFragment fuel s (.next nextListElement)

/-- The local variables of the two loops over a chain. -/
structure Walk (n : Nat) where
  listIsFullSoFar : Bool
  previous : Ptr n
  current : Ptr n
  previousOffset : Nat
  previousSize : Nat

/-- The walk to the place of the new fragment. The inner `none` is the
`return` of line 254.
mirrors network_stack_handler.h:248-261 -/
def placeLoop (s : NetworkStackHandler n h l) (newest : Fin n) :
    Nat → Walk n → Option (Option (Walk n))
  | 0, _ => none
  | fuel + 1, w =>
    match w.current with
    | none => some (some w)
    | some c =>
      if (s.value c).fragmentOffset < (s.value newest).fragmentOffset then
        if !(s.value c).moreFragments then some none
        else placeLoop s newest fuel
          { listIsFullSoFar := w.listIsFullSoFar &&
              (s.value c).fragmentOffset == w.previousOffset + w.previousSize
            previous := some c
            current := s.nextFragment c
            previousOffset := (s.value c).fragmentOffset
            previousSize := (s.value c).dataSize }
      else some (some w)

/-- Linking the new fragment in before the first, at the end, or in the
middle. `none` is the `return` of lines 267 and 284 (and the null
dereference that would follow if the walk had stopped on an empty chain).
mirrors network_stack_handler.h:263-288 -/
def linkFragment (s : NetworkStackHandler n h l) (newest : Fin n) (nextListElementPtr : Slot n)
    (w : Walk n) : Option (NetworkStackHandler n h l) :=
  match w.previous, w.current with
  | none, none => none
  | none, some current =>
    if !(s.value newest).moreFragments then none
    else some (store
      { s with
        value := Function.update s.value newest
          { s.value newest with createdTime := (s.value current).createdTime }
        nextFragment := Function.update s.nextFragment newest (some current)
        next := Function.update s.next newest (s.next current) }
      (some newest) nextListElementPtr)
  | some previous, none =>
    some { s with nextFragment := Function.update s.nextFragment previous (some newest) }
  | some previous, some current =>
    if !(s.value newest).moreFragments then none
    else
      let nextFragment := Function.update s.nextFragment newest (some current)
      some { s with nextFragment := Function.update nextFragment previous (some newest) }

/-- The completeness scan from the new fragment to the end of its chain.
mirrors network_stack_handler.h:292-302 -/
def fullLoop (s : NetworkStackHandler n h l) : Nat → Walk n → Option (Walk n)
  | 0, _ => none
  | fuel + 1, w =>
    match w.listIsFullSoFar, w.current with
    | true, some c => fullLoop s fuel
        { listIsFullSoFar := (s.value c).fragmentOffset == w.previousOffset + w.previousSize
          previous := some c
          current := s.nextFragment c
          previousOffset := (s.value c).fragmentOffset
          previousSize := (s.value c).dataSize }
    | _, _ => some w

/-- `listIsFullSoFar && current==nullptr && !previous->moreFragments` -/
def Walk.complete (s : NetworkStackHandler n h l) (w : Walk n) : Bool :=
  w.listIsFullSoFar && w.current.isNone &&
    match w.previous with
    | none => false
    | some p => !(s.value p).moreFragments

/-- Lines 237-309 without the last call: what remains to be put in the ready
list is returned. -/
def attachFragment (s : NetworkStackHandler n h l) (pNewFragment : Fin n)
    (nextListElementPtr : Slot n) : Option (Ptr n × NetworkStackHandler n h l) :=
  match s.load nextListElementPtr with
  | none => some (none, s.store (some pNewFragment) nextListElementPtr)
  | some first =>
    (placeLoop s pNewFragment (n + 1) ⟨true, none, some first, 0, 0⟩).bind fun
    | none => some (none, s)
    | some w =>
      match s.linkFragment pNewFragment nextListElementPtr w with
      | none => some (none, s)
      | some s =>
        (fullLoop s (n + 1) { w with current := some pNewFragment }).bind fun w =>
          if w.complete s then
            match s.load nextListElementPtr with
            | none => none
            | some pNewPacket =>
              some (some pNewPacket, s.store (s.next pNewPacket) nextListElementPtr)
          else some (none, s)

/-- The state changes of `insertInIncompleteFragmentedDatagramsList` outside
the ready list, and the completed chain if there is one. -/
def collectFragment (s : NetworkStackHandler n h l) (pNewFragment : Fin n) :
    Option (Ptr n × NetworkStackHandler n h l) :=
  (findLoop pNewFragment (n + 1) s .head).bind fun (s, nextListElementPtr) =>
    attachFragment s pNewFragment nextListElementPtr

/-- mirrors network_stack_handler.h:215-312 -/
def insertInIncompleteFragmentedDatagramsList (s : NetworkStackHandler n h l)
    (pNewFragment : Fin n) : Option (NetworkStackHandler n h l) :=
  (collectFragment s pNewFragment).map fun
    | (none, s) => s
    | (some pNewPacket, s) => insertInReadyToReadPacketsList s pNewPacket

/-! ## Incoming frames -/

/-- `*(data+i)` -/
def byteAt (data : Nat → UInt8) (i : Nat) : Traced FrameAccess UInt8 := do
  Traced.emit [.read i]
  return data i

/-- The six bytes from `data+start` on. -/
def macAt (data : Nat → UInt8) (start : Nat) : Traced FrameAccess (Fin 6 → UInt8) := do
  Traced.emit ((List.range 6).map fun i => .read (start + i))
  return fun i => data (start + i)

/-- `memCopy(&data[start], pData->data, numBytes)` -/
def copyToBuffer (data : Nat → UInt8) (start numBytes : Nat) (buffer : Nat → UInt8) :
    Traced FrameAccess (Nat → UInt8) := do
  Traced.emit ((List.range numBytes).flatMap fun i => [.read (start + i), .store i])
  return fun i => if i < numBytes then data (start + i) else buffer i

/-- `ip % arpHashTableSize` -/
def bucket [NeZero h] (ip : UInt32) : Fin h := Fin.ofNat h ip.toNat

/-- The first entry of the bucket of `ip` that holds `ip`.
mirrors network_stack_handler.h:91-102 -/
def findARPEntry [NeZero h] (s : NetworkStackHandler n h l) (ip : UInt32) : Option (Fin l) :=
  (List.finRange l).find? fun i => (s.arpEntries (bucket ip) i).IP == ip

def setARPEntry (s : NetworkStackHandler n h l) (b : Fin h) (i : Fin l) (e : ARPEntry) :
    NetworkStackHandler n h l :=
  { s with arpEntries := Function.update s.arpEntries b (Function.update (s.arpEntries b) i e) }

/-- mirrors network_stack_handler.h:81-118 -/
def incomingARPPacketHelper [NeZero h] (s : NetworkStackHandler n h l) (data : Nat → UInt8) (dataLen : Nat) :
    Traced FrameAccess (PacketType × NetworkStackHandler n h l) := do
  if dataLen < 42 then return (.unknownType, s)
  let operation := be16 (← byteAt data 20) (← byteAt data 21)
  let arpProtocolType := be16 (← byteAt data 16) (← byteAt data 17)
  if arpProtocolType = 0x0800 then
    if operation = 2 then
      let senderIP := be32 (← byteAt data 28) (← byteAt data 29) (← byteAt data 30) (← byteAt data 31)
      match s.findARPEntry senderIP with
      | none => return (.arpReply, s)
      | some i =>
        let mac ← macAt data 22
        return (.arpReply, s.setARPEntry (bucket senderIP) i
          { s.arpEntries (bucket senderIP) i with MAC := mac, lastAnswered := s.timerCounter })
    else if operation = 1 then
      let requestedIP := be32 (← byteAt data 38) (← byteAt data 39) (← byteAt data 40) (← byteAt data 41)
      if requestedIP ≠ s.myIP then return (.notForThisMachine, s)
      return (.arpRequest, s)
    else return (.unknownType, s)
  else return (.unknownType, s)

/-- The fields of the packet, read from the frame into the element's old
value. mirrors network_stack_handler.h:146-158 -/
def fillPacket (s : NetworkStackHandler n h l) (data : Nat → UInt8)
    (headerLength totalLength : Nat) (sourceIP destIP : UInt32) (old : IPv4Packet) :
    Traced FrameAccess IPv4Packet := do
  let protocol ← byteAt data 23
  let moreFragments := decide ((← byteAt data 20) &&& 0x20 > 0)
  let fragmentOffset := 8 * be16 ((← byteAt data 20) &&& 0x1F) (← byteAt data 21)
  let identification := be16 (← byteAt data 18) (← byteAt data 19)
  let bytes ← copyToBuffer data (14 + headerLength * 4) (totalLength - headerLength * 4) old.data
  return {
    sourceIP := sourceIP
    destIP := destIP
    dataSize := totalLength - headerLength * 4
    protocol := protocol
    moreFragments := moreFragments
    fragmentOffset := fragmentOffset
    identification := identification
    createdTime := asUInt s.timerCounter
    data := bytes }

/-- mirrors network_stack_handler.h:146-165 (`p` are the assigned fields) -/
def storePacket (s : NetworkStackHandler n h l) (e : Fin n) (p : IPv4Packet) :
    Option (NetworkStackHandler n h l) :=
  let s := { s with value := Function.update s.value e p
                    nextFragment := Function.update s.nextFragment e none }
  if p.moreFragments || p.fragmentOffset != 0 then insertInIncompleteFragmentedDatagramsList s e
  else some (insertInReadyToReadPacketsList s e)

/-- mirrors network_stack_handler.h:120-168 -/
def incomingIPv4PacketHelper (s : NetworkStackHandler n h l) (data : Nat → UInt8) (dataLen : Nat) :
    Traced FrameAccess (Option (PacketType × NetworkStackHandler n h l)) := do
  if dataLen < 34 then return some (.unknownType, s)
  let headerLength := ((← byteAt data 14) &&& 0xF).toNat
  let version := ((← byteAt data 14) &&& 0xF0) >>> 4
  if version ≠ 4 ∨ headerLength < 5 then return some (.unknownType, s)
  let sourceIP := be32 (← byteAt data 26) (← byteAt data 27) (← byteAt data 28) (← byteAt data 29)
  let destIP := be32 (← byteAt data 30) (← byteAt data 31) (← byteAt data 32) (← byteAt data 33)
  -- IPv4 packet is not destined for this host
  if destIP ≠ s.myIP ∧ destIP ≠ 0xFFFFFFFF then return some (.notForThisMachine, s)
  let totalLength := be16 (← byteAt data 16) (← byteAt data 17)
  if totalLength < headerLength * 4 ∨ totalLength + ETHERNET_SIMPLE_HEADER_SIZE > dataLen then
    return some (.unknownType, s)
  match s.takeUnusedPacket with
  | none => return none
  | some (none, s) => return some (.ipv4Packet, s)
  | some (some e, s) =>
    let p ← s.fillPacket data headerLength totalLength sourceIP destIP (s.value e)
    return (s.storePacket e p).map (.ipv4Packet, ·)

/-- The bodies of the two `if`s (lines 432 and 446) are expression
statements without `return`: they evaluate an enumerator and go on, so
neither the length nor the destination MAC decides anything here.
mirrors network_stack_handler.h:431-460 -/
def handleIncomingEthernetPacket [NeZero h] (s : NetworkStackHandler n h l)
    (data : Nat → UInt8) (dataLen : Nat) :
    Traced FrameAccess (Option (PacketType × NetworkStackHandler n h l)) := do
  -- lines 434-444: compared with `myMac` and with the broadcast address, to no effect
  let _ ← macAt data 0
  let protocolType := be16 (← byteAt data 12) (← byteAt data 13)
  if protocolType = 0x0806 then
    let r ← s.incomingARPPacketHelper data dataLen
    return some r
  else if protocolType = 0x0800 then s.incomingIPv4PacketHelper data dataLen
  else return some (.unknownType, s)

end NetworkStackHandler

end CpuScheduler.L2
