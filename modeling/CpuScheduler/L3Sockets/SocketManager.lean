import CpuScheduler.Core.LTS
import CpuScheduler.Core.Traced
import CpuScheduler.L2Network.Handler

/-!
# SocketManager

`socket_manager.cpp`: the socket descriptors of all tasks, the table of UDP
ports and the list of transmission requests. The number of tasks `T` is the
source's `NUM_POSSIBLE_TASKS` (50, or 7 in the end-to-end build).

Task memory is a function from an address to a byte; pointers and sizes are
32-bit words. Packets are those of `L2Network`: a datagram is its first
packet and the list of the fragments that follow.

`udpPortStates` is indexed with a 16-bit port. `portState` logs the index;
behind the end of the table it finds whatever memory holds there, which is a
parameter (`behind`). A result `none` means that the code has no defined
outcome, because a descriptor outside the table is used or a null pointer is
dereferenced.
-/
namespace CpuScheduler.L3

open Links Word L2

def MAX_NUM_SOCKETS_PER_TASK : Nat := 10
def NUM_UDP_PORTS : Nat := 9000
def MAX_NUM_TRANSMISSION_REQUESTS : Nat := 15
def RECEIVE_BUFFER_HEADER_SIZE : Nat := 8
def SEND_BUFFER_HEADER_SIZE : Nat := 8
def UDP_HEADER_SIZE : Nat := 8

/-- mirrors socket_manager.h:18-28 -/
structure SocketDesc where
  isActive : UInt32
  udpPort : UInt16
  receiveBuffer : UInt32
  receiveBufferSize : UInt32
  sendBuffer : UInt32
  sendBufferSize : UInt32
  sendBufferIdentification : UInt16
  sendBufferFragmentOffset : UInt32
  sendBufferIndicatorWhenFinished : UInt32
  deriving DecidableEq, Repr

/-- mirrors socket_manager.h:30-38 -/
structure OutgoingUDPPacket where
  sourcePort : UInt16
  destinationPort : UInt16
  destinationIP : UInt32
  data : UInt32
  dataLen : UInt32
  identification : UInt16
  fragmentOffset : UInt32
  deriving DecidableEq, Repr

/-- mirrors socket_manager.h:40-44 -/
structure UDPPortState where
  isActive : UInt32
  taskID : UInt8
  socketID : UInt8
  deriving DecidableEq, Repr

abbrev SocketID := Fin MAX_NUM_SOCKETS_PER_TASK

/-- A pointer to an element of `transmissionRequestListElements`. -/
abbrev ReqPtr := Option (Fin MAX_NUM_TRANSMISSION_REQUESTS)

/-- The bytes of all tasks. -/
abbrev Mem := UInt32 → UInt8

/-- A request is the port it is for.
mirrors socket_manager.h:104-110 -/
structure SocketManager (T : Nat) where
  socketDescs : Fin T → SocketID → SocketDesc
  udpPortStates : Fin NUM_UDP_PORTS → UDPPortState
  next : Fin MAX_NUM_TRANSMISSION_REQUESTS → ReqPtr
  prev : Fin MAX_NUM_TRANSMISSION_REQUESTS → ReqPtr
  request : Fin MAX_NUM_TRANSMISSION_REQUESTS → UInt16
  transmissionRequestsHead : ReqPtr
  transmissionRequestsTail : ReqPtr
  unusedTransmissionRequestsHead : ReqPtr

/-- `numBytes` bytes written from address `start` on. -/
def writeBytes (mem : Mem) (start : UInt32) (bytes : Nat → UInt8) (numBytes : Nat) : Mem := fun a =>
  if (a - start).toNat < numBytes then bytes (a - start).toNat else mem a

namespace SocketManager

variable {T : Nat}

def setDesc (s : SocketManager T) (t : Fin T) (i : SocketID) (d : SocketDesc) : SocketManager T :=
  { s with socketDescs := Function.update s.socketDescs t (Function.update (s.socketDescs t) i d) }

def setPortState (s : SocketManager T) (p : Fin NUM_UDP_PORTS) (d : UDPPortState) :
    SocketManager T :=
  { s with udpPortStates := Function.update s.udpPortStates p d }

/-- The constructor; `mem` is what the memory held before.
mirrors socket_manager.cpp:5-25 -/
def init (mem : SocketManager T) : SocketManager T :=
  { mem with
    socketDescs := fun t i => { mem.socketDescs t i with isActive := 0 }
    udpPortStates := fun _ => ⟨0, 0, 0⟩
    next := fun i => if hi : i.val + 1 < MAX_NUM_TRANSMISSION_REQUESTS then some ⟨i.val + 1, hi⟩ else none
    request := fun _ => 0
    transmissionRequestsHead := none
    transmissionRequestsTail := none
    unusedTransmissionRequestsHead := some ⟨0, by decide⟩ }

/-! ## System calls -/

/-- `none`: the descriptor's port is outside the table.
mirrors socket_manager.cpp:27-38 -/
def closeSocket (s : SocketManager T) (taskID : Fin T) (socketID : UInt8) :
    Option (SocketManager T) :=
  if hs : socketID.toNat < MAX_NUM_SOCKETS_PER_TASK then
    let d := s.socketDescs taskID ⟨socketID.toNat, hs⟩
    if d.isActive = 1 then
      if hp : d.udpPort.toNat < NUM_UDP_PORTS then
        let p : Fin NUM_UDP_PORTS := ⟨d.udpPort.toNat, hp⟩
        let s := s.setPortState p { s.udpPortStates p with isActive := 0 }
        some (s.setDesc taskID ⟨socketID.toNat, hs⟩ { d with isActive := 0 })
      else none
    else some s
  else some s

/-- The loop over the sockets of a task. -/
def closeLoop (taskID : Fin T) : List Nat → SocketManager T → Option (SocketManager T)
  | [], s => some s
  | i :: is, s => (s.closeSocket taskID (UInt8.ofNat i)).bind (closeLoop taskID is)

/-- mirrors socket_manager.cpp:40-44 -/
def closeAllSocketsForTask (s : SocketManager T) (taskID : Fin T) : Option (SocketManager T) :=
  closeLoop taskID (List.range MAX_NUM_SOCKETS_PER_TASK) s

/-- Returns -1 for failure, otherwise the socketID.
mirrors socket_manager.cpp:46-76 -/
def openSocket (s : SocketManager T) (taskID : Fin T) (udpPort : UInt16) : Int × SocketManager T :=
  if hp : udpPort.toNat < NUM_UDP_PORTS then
    let p : Fin NUM_UDP_PORTS := ⟨udpPort.toNat, hp⟩
    if (s.udpPortStates p).isActive = 1 then (-1, s)
    else
      match (List.finRange MAX_NUM_SOCKETS_PER_TASK).find?
        fun i => (s.socketDescs taskID i).isActive == 0 with
      | none => (-1, s)
      | some i =>
        let s := s.setDesc taskID i
          { isActive := 1, udpPort := udpPort, receiveBuffer := 0, receiveBufferSize := 0
            sendBuffer := 0, sendBufferSize := 0, sendBufferIdentification := 0
            sendBufferFragmentOffset := 0, sendBufferIndicatorWhenFinished := 0 }
        (i.val, s.setPortState p ⟨1, UInt8.ofNat taskID.val, UInt8.ofNat i.val⟩)
  else (-1, s)

/-- Returns -1 for failure, otherwise 0.
mirrors socket_manager.cpp:78-97 -/
def setReceiveBuffer (s : SocketManager T) (taskID : Fin T) (socketID : UInt8)
    (newBuffer newBufferSize : UInt32) : Int × SocketManager T :=
  if hs : socketID.toNat < MAX_NUM_SOCKETS_PER_TASK then
    if newBufferSize.toNat < 2 * RECEIVE_BUFFER_HEADER_SIZE ∧ (newBufferSize ≠ 0 ∨ newBuffer ≠ 0) then
      (-1, s)
    else
      let d := s.socketDescs taskID ⟨socketID.toNat, hs⟩
      if d.isActive = 0 then (-1, s)
      else (0, s.setDesc taskID ⟨socketID.toNat, hs⟩
        { d with receiveBuffer := newBuffer, receiveBufferSize := newBufferSize })
  else (-1, s)

/-- The first unused request element goes to the front of the transmission
list; `none`: there is no unused element.
mirrors socket_manager.cpp:125-143 -/
def addRequest (s : SocketManager T) (udpPort : UInt16) : Option (SocketManager T) :=
  s.unusedTransmissionRequestsHead.map fun e =>
    let s := { s with
      unusedTransmissionRequestsHead := s.next e
      request := Function.update s.request e udpPort
      next := Function.update s.next e s.transmissionRequestsHead
      prev := Function.update s.prev e none }
    let s := match s.transmissionRequestsHead with
      | some head => { s with prev := Function.update s.prev head (some e) }
      | none => { s with transmissionRequestsTail := some e }
    { s with transmissionRequestsHead := some e }

/-- Returns -1 for failure, otherwise 0.
mirrors socket_manager.cpp:99-153 -/
def setSendBuffer (s : SocketManager T) (taskID : Fin T) (socketID : UInt8)
    (newBuffer newBufferSize indicatorWhenFinished : UInt32) : Int × SocketManager T :=
  if hs : socketID.toNat < MAX_NUM_SOCKETS_PER_TASK then
    if newBufferSize.toNat < SEND_BUFFER_HEADER_SIZE + UDP_HEADER_SIZE ∧
        (newBufferSize ≠ 0 ∨ newBuffer ≠ 0 ∨ indicatorWhenFinished ≠ 0) then (-1, s)
    else
      let i : SocketID := ⟨socketID.toNat, hs⟩
      let d := s.socketDescs taskID i
      if d.isActive = 0 then (-1, s)
      else if newBufferSize = 0 ∧ newBuffer = 0 ∧ indicatorWhenFinished = 0 then
        (0, s.setDesc taskID i
          { d with sendBuffer := 0, sendBufferSize := 0, sendBufferIdentification := 0
                   sendBufferFragmentOffset := 0, sendBufferIndicatorWhenFinished := 0 })
      else
        match s.addRequest d.udpPort with
        | none => (-1, s)
        | some s => (0, s.setDesc taskID i
            { d with sendBuffer := newBuffer, sendBufferSize := newBufferSize
                     sendBufferIdentification := 0, sendBufferFragmentOffset := 0
                     sendBufferIndicatorWhenFinished := indicatorWhenFinished })
  else (-1, s)

/-! ## Received datagrams -/

/-- `udpPortStates[i]` -/
def portState (s : SocketManager T) (behind : Nat → UDPPortState) (i : Nat) :
    Traced Nat UDPPortState := do
  Traced.emit [i]
  return if hi : i < NUM_UDP_PORTS then s.udpPortStates ⟨i, hi⟩ else behind i

/-- The descriptor `socketDescs[taskID][socketID]`, if it is in the table. -/
def descIndex (T : Nat) (taskID socketID : UInt8) : Option (Fin T × SocketID) :=
  if ht : taskID.toNat < T then
    if hs : socketID.toNat < MAX_NUM_SOCKETS_PER_TASK then
      some (⟨taskID.toNat, ht⟩, ⟨socketID.toNat, hs⟩)
    else none
  else none

/-- The loop over the fragments: `accumulatedUDPSize` at its end (`none`: the
`return` of line 188) and task memory.
mirrors socket_manager.cpp:184-205 -/
def copyLoop (receiveBuffer : UInt32) (udpLength : Nat) :
    Bool → Nat → Mem → List IPv4Packet → Option Nat × Mem
  | _, accumulatedUDPSize, mem, [] => (some accumulatedUDPSize, mem)
  | first, accumulatedUDPSize, mem, packet :: packets =>
    if (accumulatedUDPSize + packet.dataSize) % 2 ^ 32 > udpLength then (none, mem)
    else
      let start := receiveBuffer + UInt32.ofNat RECEIVE_BUFFER_HEADER_SIZE
      let mem := if first then
          writeBytes mem start (fun k => packet.data (UDP_HEADER_SIZE + k))
            (packet.dataSize - UDP_HEADER_SIZE)
        else writeBytes mem (start + UInt32.ofNat (accumulatedUDPSize - UDP_HEADER_SIZE)) packet.data
          packet.dataSize
      copyLoop receiveBuffer udpLength false ((accumulatedUDPSize + packet.dataSize) % 2 ^ 16) mem
        packets

/-- The header in front of the data in the receive buffer: source IP, source
port and size. mirrors socket_manager.cpp:211-220 -/
def receiveHeader (packet : IPv4Packet) (udpLength : Nat) : List UInt8 :=
  let sourcePort := be16 (packet.data 0) (packet.data 1)
  [(packet.sourceIP &&& 0xFF).toUInt8, ((packet.sourceIP >>> 8) &&& 0xFF).toUInt8,
    ((packet.sourceIP >>> 16) &&& 0xFF).toUInt8, ((packet.sourceIP >>> 24) &&& 0xFF).toUInt8,
    UInt8.ofNat (sourcePort &&& 0xFF), UInt8.ofNat ((sourcePort >>> 8) &&& 0xFF),
    UInt8.ofNat ((udpLength - UDP_HEADER_SIZE) &&& 0xFF),
    UInt8.ofNat (((udpLength - UDP_HEADER_SIZE) >>> 8) &&& 0xFF)]

/-- The part of `handleReceivedPacket` behind the port table, for the
descriptor of task `t` and socket `i`. `fragments` are the packets behind the
first. mirrors socket_manager.cpp:174-228 -/
def deliver (s : SocketManager T) (mem : Mem) (t : Fin T) (i : SocketID) (packet : IPv4Packet)
    (fragments : List IPv4Packet) : SocketManager T × Mem :=
  let d := s.socketDescs t i
  let udpLength := be16 (packet.data 4) (packet.data 5)
  -- `int` arithmetic; the sum is at least 8, so the comparison as `unsigned` is the same
  if (udpLength : Int) - UDP_HEADER_SIZE + 2 * RECEIVE_BUFFER_HEADER_SIZE > d.receiveBufferSize.toNat then
    (s, mem)
  else
    match copyLoop d.receiveBuffer udpLength true 0 mem (packet :: fragments) with
    | (none, mem) => (s, mem)
    | (some accumulatedUDPSize, mem) =>
      if accumulatedUDPSize ≠ udpLength then (s, mem)
      else
        let used := UInt32.ofNat (RECEIVE_BUFFER_HEADER_SIZE + (udpLength - UDP_HEADER_SIZE))
        let mem := writeBytes mem d.receiveBuffer
          (fun k => (receiveHeader packet udpLength).getD k 0) RECEIVE_BUFFER_HEADER_SIZE
        let mem := writeBytes mem (d.receiveBuffer + used) (fun _ => 0) RECEIVE_BUFFER_HEADER_SIZE
        (s.setDesc t i { d with receiveBuffer := d.receiveBuffer + used
                                receiveBufferSize := d.receiveBufferSize - used }, mem)

/-- mirrors socket_manager.cpp:155-228 -/
def handleReceivedPacket (s : SocketManager T) (mem : Mem) (behind : Nat → UDPPortState)
    (packet : IPv4Packet) (fragments : List IPv4Packet) :
    Traced Nat (Option (SocketManager T × Mem)) := do
  if packet.protocol ≠ 17 then return some (s, mem)
  if packet.dataSize < UDP_HEADER_SIZE then return some (s, mem)
  let destinationPort := be16 (packet.data 2) (packet.data 3)
  if (← s.portState behind destinationPort).isActive = 0 then return some (s, mem)
  let taskID := (← s.portState behind destinationPort).taskID
  let socketID := (← s.portState behind destinationPort).socketID
  match descIndex T taskID socketID with
  | none => return none
  | some (t, i) => return some (s.deliver mem t i packet fragments)

end SocketManager

end CpuScheduler.L3
