import CpuScheduler.L2Network.Fragmentation
import CpuScheduler.L3Sockets.SendCalls
import CpuScheduler.L3Sockets.SendFormat

/-!
# One pass over the transmission requests

Each time the network task wakes up it walks the whole transmission list
once. A request that has sent its packet and has more goes to the end of the
list and is visited again; the last request stays where it is and is visited
again at once.

What is outside the loop is given per call: the handler of each interface at
that time, the write buffer it offers, and what the tasks have done to their
memory since the call before (`Around`). An interface always has a write
buffer here.
-/
namespace CpuScheduler.L3

open Links Word L2 SocketManager

variable {T n h l n' h' l' : Nat}

def UDP_IPV4_PROTOCOL : UInt8 := 17

/-- What a call of the loop finds. -/
structure Around (n h l n' h' l' : Nat) where
  physical : NetworkStackHandler n h l
  loopback : NetworkStackHandler n' h' l'
  writeBuffer : Nat → UInt8
  tasks : Mem → Mem

/-- mirrors network_management_task.cpp:345-353 -/
def udpHeader (packet : OutgoingUDPPacket) : List UInt8 :=
  [(packet.sourcePort >>> 8).toUInt8, (packet.sourcePort &&& 0xFF).toUInt8,
    (packet.destinationPort >>> 8).toUInt8, (packet.destinationPort &&& 0xFF).toUInt8,
    (packet.dataLen >>> 8).toUInt8, (packet.dataLen &&& 0xFF).toUInt8, 0x00, 0x00]

section Loop
variable [NeZero h] [NeZero h']

/-- A null data pointer is `none`. -/
def packetArgs (packet : OutgoingUDPPacket) (mem : Mem) (identification : UInt16) (fragmentOffset : Nat)
    (writeBuffer : Nat → UInt8) : OutgoingArgs where
  destinationIP := packet.destinationIP
  sourcePort := packet.sourcePort
  destinationPort := packet.destinationPort
  protocol := UDP_IPV4_PROTOCOL
  data := if packet.data = 0 then none else some (view mem packet.data)
  dataLen := packet.dataLen.toNat
  identification := identification
  fragmentOffset := fragmentOffset
  writeBuffer := some writeBuffer

/-- A packet to this machine goes to the loopback interface.
mirrors network_management_task.cpp:331-337, 355-364 -/
def Around.transmit (w : Around n h l n' h' l') (thisIP : UInt32) (packet : OutgoingUDPPacket) (mem : Mem)
    (identification : UInt16) (fragmentOffset : Nat) : Outgoing :=
  let args := packetArgs packet mem identification fragmentOffset w.writeBuffer
  if packet.destinationIP = thisIP then (w.loopback.outgoing args).1 else (w.physical.outgoing args).1

/-- The calls for one packet, `k` of them made. The first component is what
the last call returned; `none`: no end within `fuel` calls.
mirrors network_management_task.cpp:340-376 -/
def sendingLoop (w : Nat → Around n h l n' h' l') (thisIP : UInt32) (packet : OutgoingUDPPacket) :
    Nat → Nat → Mem → UInt16 → Nat → Option (IPv4PacketProgress × SendOutcome)
  | 0, _, _, _, _ => none
  | fuel + 1, k, mem, identification, fragmentOffset =>
    let mem := (w k).tasks mem
    let mem := if fragmentOffset = 0 then
        writeBytes mem packet.data (fun i => (udpHeader packet).getD i 0) 8
      else mem
    let state := (w k).transmit thisIP packet mem identification fragmentOffset
    if state.progress = .sendingFragment then
      sendingLoop w thisIP packet fuel (k + 1) mem state.identification state.fragmentOffset
    else some (state.progress, ⟨UInt32.ofNat state.fragmentOffset, state.identification, true, mem⟩)

/-- One round, with the packet it was for and what the last call for it
returned; no call is made for a packet without data.
mirrors network_management_task.cpp:328-411 -/
def Sockets.round (s : Sockets T) (w : Nat → Around n h l n' h' l') (thisIP : UInt32) :
    Option (Option (OutgoingUDPPacket × IPv4PacketProgress) × Sockets T) :=
  s.cursor.bind fun e =>
  (s.manager.getTop s.mem (s.manager.request e)).bind fun packet =>
    if packet.dataLen = 0 then
      (s.handleTransmissionRequest ⟨packet.fragmentOffset, packet.identification, true, s.mem⟩).map (none, ·)
    else
      (sendingLoop w thisIP packet (packet.dataLen.toNat + 1) 0 s.mem packet.identification
        packet.fragmentOffset.toNat).bind fun (progress, outcome) =>
          (s.handleTransmissionRequest outcome).map (some (packet, progress), ·)

/-- For each request, the packet of its last call and what the call returned. -/
abbrev LastCalls := ReqElem → Option (OutgoingUDPPacket × IPv4PacketProgress)

def LastCalls.after (last : LastCalls) (e : ReqElem) (call : Option (OutgoingUDPPacket × IPv4PacketProgress)) :
    LastCalls :=
  if call.isSome then Function.update last e call else last

/-- The last call for a packet did not announce more fragments, and it only
says `Done` for a packet that is sent, or has a null data pointer. -/
structure Ended (packet : OutgoingUDPPacket) (progress : IPv4PacketProgress) (outcome : SendOutcome) : Prop where
  writeBuffer : outcome.writeBuffer = true
  stopped : progress ≠ .sendingFragment
  done : progress = .done → packet.data = 0 ∨ packet.dataLen ≤ outcome.fragmentOffset

end Loop

/-! ## One round and the list -/

section
variable {s : SocketManager T} {t : Fin T} {i : SocketID} {d : SocketDesc}

end

section Round
variable {s t : Sockets T} {as bs ys : List ReqElem} {e : ReqElem} {outcome : SendOutcome} {packet : OutgoingUDPPacket}

end Round

/-! ## The pass -/

/-- The last call for the request is one that leaves it in the list. -/
def LastCalls.Held (last : LastCalls) (e : ReqElem) : Prop :=
  ∃ packet progress, last e = some (packet, progress) ∧
    (progress = .waitingOnARPReply ∨ progress = .arpTableFull ∨ progress = .done ∧ packet.data = 0)

theorem LastCalls.Held.after {last : LastCalls} {x e : ReqElem} (h : last.Held x) (hne : x ≠ e)
    (call : Option (OutgoingUDPPacket × IPv4PacketProgress)) : (last.after e call).Held x := by
  unfold LastCalls.after
  split
  · unfold Held
    rw [Function.update_of_ne hne]
    exact h
  · exact h

/-- A call that leaves a packet unfinished, with a write buffer at hand. -/
theorem Ended.held {packet : OutgoingUDPPacket} {progress : IPv4PacketProgress} {outcome : SendOutcome}
    (h : Ended packet progress outcome) (hoff : ¬ packet.dataLen ≤ outcome.fragmentOffset) (last : LastCalls)
    (e : ReqElem) : (last.after e (some (packet, progress))).Held e := by
  refine ⟨packet, progress, Function.update_self .., ?_⟩
  cases progress with
  | waitingOnARPReply => exact .inl rfl
  | arpTableFull => exact .inr (.inl rfl)
  | sendingFragment => exact absurd rfl h.stopped
  | done => exact .inr (.inr ⟨rfl, (h.done rfl).resolve_right hoff⟩)

section Pass
variable [NeZero h] [NeZero h']

end Pass

/-! ## One request for port 80 -/

/-- Nothing is known of the next hop. -/
def quiet : Around 2 1 1 2 1 1 := ⟨twoBuffers, twoBuffers, fun _ => 0, id⟩

end CpuScheduler.L3
