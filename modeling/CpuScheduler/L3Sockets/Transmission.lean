import CpuScheduler.L3Sockets.SocketManager

/-!
# Transmission requests, and the socket layer as a system

A transmission request names a port; its data is in the send buffer of the
socket that is bound to the port at the time the request is worked on. The
network task walks the transmission list with an iterator (`cursor` here).

`socketLTS` is the socket layer under any sequence of system calls of the
tasks, received datagrams, accesses of the tasks to their own memory and
steps of the network task's walk.
-/
namespace CpuScheduler.L3

open Links Word L2

namespace SocketManager

variable {T : Nat}

/-! ## One request -/

/-- The descriptor of the socket bound to a port: `some none`, if the port is
not active; `none`, if it is outside the tables. -/
def boundSocket (s : SocketManager T) (udpPort : UInt16) : Option (Option (Fin T × SocketID)) :=
  if hp : udpPort.toNat < NUM_UDP_PORTS then
    let p := s.udpPortStates ⟨udpPort.toNat, hp⟩
    if p.isActive = 0 then some none else (descIndex T p.taskID p.socketID).map some
  else none

/-- The length in the header of the send buffer's first packet. -/
def sendLength (mem : Mem) (sendBuffer : UInt32) : Nat :=
  be16 (mem (sendBuffer + 7)) (mem (sendBuffer + 6))

/-- mirrors socket_manager.cpp:315-347 -/
def getTop (s : SocketManager T) (mem : Mem) (udpPort : UInt16) : Option OutgoingUDPPacket :=
  (s.boundSocket udpPort).map fun
  | none => ⟨0, 0, 0, 0, 0, 0, 0⟩
  | some (t, i) =>
    let d := s.socketDescs t i
    let udpLength := sendLength mem d.sendBuffer
    if d.sendBufferSize.toNat < SEND_BUFFER_HEADER_SIZE + UDP_HEADER_SIZE then ⟨0, 0, 0, 0, 0, 0, 0⟩
    else if udpLength < UDP_HEADER_SIZE ∨
        d.sendBufferSize.toNat < SEND_BUFFER_HEADER_SIZE + udpLength then ⟨0, 0, 0, 0, 0, 0, 0⟩
    else
      { sourcePort := udpPort
        destinationPort := UInt16.ofNat (be16 (mem (d.sendBuffer + 5)) (mem (d.sendBuffer + 4)))
        destinationIP := be32 (mem (d.sendBuffer + 3)) (mem (d.sendBuffer + 2))
          (mem (d.sendBuffer + 1)) (mem d.sendBuffer)
        data := d.sendBuffer + UInt32.ofNat SEND_BUFFER_HEADER_SIZE
        dataLen := UInt32.ofNat udpLength
        identification := d.sendBufferIdentification
        fragmentOffset := d.sendBufferFragmentOffset }

/-- mirrors socket_manager.cpp:234-249 -/
def updateTop (s : SocketManager T) (udpPort : UInt16) (newFragmentOffset : UInt32)
    (newIdentification : UInt16) : Option (SocketManager T) :=
  (s.boundSocket udpPort).map fun
  | none => s
  | some (t, i) =>
    let d := s.socketDescs t i
    if d.sendBufferSize = 0 then s
    else s.setDesc t i { d with sendBufferFragmentOffset := newFragmentOffset
                                sendBufferIdentification := newIdentification }

/-- Returns true if the transmission request is now empty.
mirrors socket_manager.cpp:251-287 -/
def removeTop (s : SocketManager T) (mem : Mem) (udpPort : UInt16) :
    Option (Bool × SocketManager T) :=
  (s.boundSocket udpPort).map fun
  | none => (true, s)
  | some (t, i) =>
    let d := s.socketDescs t i
    let udpLength := sendLength mem d.sendBuffer
    if d.sendBufferSize.toNat < 2 * (SEND_BUFFER_HEADER_SIZE + UDP_HEADER_SIZE) then (true, s)
    else if udpLength < UDP_HEADER_SIZE ∨
        d.sendBufferSize.toNat < 2 * SEND_BUFFER_HEADER_SIZE + UDP_HEADER_SIZE + udpLength then (true, s)
    else
      let used := UInt32.ofNat (SEND_BUFFER_HEADER_SIZE + udpLength)
      (false, s.setDesc t i
        { d with sendBuffer := d.sendBuffer + used, sendBufferSize := d.sendBufferSize - used
                 sendBufferIdentification := 0, sendBufferFragmentOffset := 0 })

/-- mirrors socket_manager.cpp:289-307 -/
def indicateAsFinished (s : SocketManager T) (mem : Mem) (udpPort : UInt16) :
    Option (SocketManager T × Mem) :=
  (s.boundSocket udpPort).map fun
  | none => (s, mem)
  | some (t, i) =>
    let d := s.socketDescs t i
    let mem := if d.sendBufferIndicatorWhenFinished ≠ 0 then
        writeBytes mem d.sendBufferIndicatorWhenFinished (fun k => if k = 0 then 1 else 0) 4
      else mem
    (s.setDesc t i
      { d with sendBufferIndicatorWhenFinished := 0, sendBuffer := 0, sendBufferSize := 0 }, mem)

/-! ## The transmission list -/

/-- The iterator is moved on before the element is removed.
mirrors socket_manager.cpp:379-406 -/
def remove (s : SocketManager T) (cursor : ReqPtr) : SocketManager T × ReqPtr :=
  match cursor with
  | none => (s, none)
  | some e =>
    let cursor := s.next e
    let s := match s.prev e with
      | some p => { s with next := Function.update s.next p (s.next e) }
      | none => { s with transmissionRequestsHead := s.next e }
    let s := match s.next e with
      | some q => { s with prev := Function.update s.prev q (s.prev e) }
      | none => { s with transmissionRequestsTail := s.prev e }
    ({ s with next := Function.update s.next e s.unusedTransmissionRequestsHead
              unusedTransmissionRequestsHead := some e }, cursor)

/-- `none`: the tail is a null pointer.
mirrors socket_manager.cpp:408-438 -/
def relocateToEnd (s : SocketManager T) (cursor : ReqPtr) : Option (SocketManager T × ReqPtr) :=
  match cursor with
  | none => some (s, none)
  | some e =>
    match s.next e with
    | none => some (s, some e)
    | some q =>
      let s := { s with prev := Function.update s.prev q (s.prev e) }
      let s := match s.prev e with
        | some p => { s with next := Function.update s.next p (some q) }
        | none => { s with transmissionRequestsHead := some q }
      s.transmissionRequestsTail.map fun tail =>
        let s := { s with next := Function.update s.next tail (some e) }
        let s := { s with prev := Function.update s.prev e (some tail) }
        ({ s with next := Function.update s.next e none
                  transmissionRequestsTail := some e }, some q)

end SocketManager

/-! ## The socket layer as a transition system -/

/-- The manager, task memory, and the iterator of the network task. -/
structure Sockets (T : Nat) where
  manager : SocketManager T
  mem : Mem
  cursor : ReqPtr

/-- One call on the manager, or an access of a task to its memory. -/
inductive SocketCall (T : Nat) where
  | openSocket (taskID : Fin T) (udpPort : UInt16)
  | closeSocket (taskID : Fin T) (socketID : UInt8)
  | closeAllSocketsForTask (taskID : Fin T)
  | setReceiveBuffer (taskID : Fin T) (socketID : UInt8) (newBuffer newBufferSize : UInt32)
  | setSendBuffer (taskID : Fin T) (socketID : UInt8)
      (newBuffer newBufferSize indicatorWhenFinished : UInt32)
  | received (behind : Nat → UDPPortState) (packet : IPv4Packet) (fragments : List IPv4Packet)
  | userWrite (mem : Mem)
  | getTransmissionRequestsIterator
  | goToNext
  | updateTop (newFragmentOffset : UInt32) (newIdentification : UInt16)
  | removeTop
  | indicateAsFinished
  | remove
  | relocateToEnd

namespace Sockets

variable {T : Nat}

/-- The state after one call; `none`: the call has no defined outcome. -/
def call (s : Sockets T) : SocketCall T → Option (Sockets T)
  | .openSocket taskID udpPort => some { s with manager := (s.manager.openSocket taskID udpPort).2 }
  | .closeSocket taskID socketID =>
    (s.manager.closeSocket taskID socketID).map ({ s with manager := · })
  | .closeAllSocketsForTask taskID =>
    (s.manager.closeAllSocketsForTask taskID).map ({ s with manager := · })
  | .setReceiveBuffer taskID socketID newBuffer newBufferSize =>
    some { s with manager := (s.manager.setReceiveBuffer taskID socketID newBuffer newBufferSize).2 }
  | .setSendBuffer taskID socketID newBuffer newBufferSize indicatorWhenFinished =>
    some { s with manager := (s.manager.setSendBuffer taskID socketID newBuffer newBufferSize
      indicatorWhenFinished).2 }
  | .received behind packet fragments =>
    (s.manager.handleReceivedPacket s.mem behind packet fragments).val.map
      fun (manager, mem) => { s with manager := manager, mem := mem }
  | .userWrite mem => some { s with mem := mem }
  | .getTransmissionRequestsIterator => some { s with cursor := s.manager.transmissionRequestsHead }
  | .goToNext => some { s with cursor := s.cursor.bind s.manager.next }
  | .updateTop newFragmentOffset newIdentification => s.cursor.bind fun e =>
    (s.manager.updateTop (s.manager.request e) newFragmentOffset newIdentification).map
      ({ s with manager := · })
  | .removeTop => s.cursor.bind fun e =>
    (s.manager.removeTop s.mem (s.manager.request e)).map fun r => { s with manager := r.2 }
  | .indicateAsFinished => s.cursor.bind fun e =>
    (s.manager.indicateAsFinished s.mem (s.manager.request e)).map
      fun (manager, mem) => { s with manager := manager, mem := mem }
  | .remove =>
    let (manager, cursor) := s.manager.remove s.cursor
    some { s with manager := manager, cursor := cursor }
  | .relocateToEnd => (s.manager.relocateToEnd s.cursor).map
      fun (manager, cursor) => { s with manager := manager, cursor := cursor }

end Sockets

/-- Any sequence of calls on a newly constructed manager. -/
def socketLTS (T : Nat) : LTS (Sockets T) (SocketCall T) where
  init s := ∃ old, s.manager = SocketManager.init old
  step s c t := s.call c = some t

end CpuScheduler.L3
