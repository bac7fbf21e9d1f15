import CpuScheduler.Core.LTS
import CpuScheduler.Core.Cyclic
import CpuScheduler.L2Network.Checksum

/-!
# PhysicalNetworkInterface

The driver of the 82540EM and the card share two rings of descriptors in
memory. A ring has a head, which the card moves, and a tail, which the driver
writes to a register; the descriptors from the head to the tail are the
card's, and when the two are equal the card has none.

* receive: the driver reads at `currentRx`, and gives a descriptor back by
  writing its index to the tail;
* transmit: the driver fills at `currentTx`, and writes the index behind it to
  the tail.

`cardLTS` interleaves the card, the interrupt handler and the callers of
`getWriteBuffer` and `finishWriteBuffer` in any order. The steps of the card
are what its manual says a card does with the registers that the driver
writes. `accepted`, `passed`, `queued` and `sent` record the frames that the
card stored, that the packet handler was called with, that
`finishWriteBuffer` took and that went out on the wire.
-/
namespace CpuScheduler.L2

open Cyclic

def NUM_RX_DESCRIPTORS : Nat := 32
def NUM_TX_DESCRIPTORS : Nat := 8
def TX_BUFFER_SIZE : Nat := 16288

abbrev RxIndex := Fin NUM_RX_DESCRIPTORS
abbrev TxIndex := Fin NUM_TX_DESCRIPTORS

theorem firstRx_lt : 0 < NUM_RX_DESCRIPTORS := by decide

theorem lastRx_lt : 32 - 1 < NUM_RX_DESCRIPTORS := by decide

theorem firstTx_lt : 0 < NUM_TX_DESCRIPTORS := by decide

def TSTA_DD : UInt8 := 1
def CMD_EOP : UInt8 := 1
def CMD_IFCS : UInt8 := 2
def CMD_RS : UInt8 := 8

/-- Bit 5 of the command byte: the descriptor is not a legacy one. -/
def CMD_DEXT : UInt8 := 32

/-- Bit 0 of `popts`: the card puts in the IPv4 checksum. -/
def POPTS_IXSM : UInt8 := 1

/-- `addrLow` is given relative to `rxBufferSpace`.
mirrors physical_network_interface.h:38-46 -/
structure E1000RxDesc where
  addrLow : Nat
  length : UInt16
  status : UInt8

/-- mirrors physical_network_interface.h:57-66, without `status` -/
structure E1000TxDescLegacy where
  addrLow : Nat
  addrHigh : UInt32
  length : UInt16
  cso : UInt8
  cmd : UInt8
  css : UInt8
  special : UInt16
  deriving DecidableEq, Repr

/-- mirrors physical_network_interface.h:68-81, without `staAndRsv` -/
structure E1000TxDescTCPIPContext where
  ipcss : UInt8
  ipcso : UInt8
  ipcse : UInt16
  tucss : UInt8
  tucso : UInt8
  tucse : UInt16
  paylenLow : UInt16
  paylenHighAndDtyp : UInt8
  tucmd : UInt8
  hdrlen : UInt8
  mss : UInt16
  deriving DecidableEq, Repr

/-- mirrors physical_network_interface.h:83-92, without `staAndRsv` -/
structure E1000TxDescTCPIPData where
  addrLow : Nat
  addrHigh : UInt32
  dtalenLow : UInt16
  dtalenHighAndDtype : UInt8
  dcmd : UInt8
  popts : UInt8
  special : UInt16
  deriving DecidableEq, Repr

/-- Through which of the four structures the sixteen bytes were written last. -/
inductive TxView where
  | unwritten
  | legacy (d : E1000TxDescLegacy)
  | context (d : E1000TxDescTCPIPContext)
  | data (d : E1000TxDescTCPIPData)
  deriving DecidableEq, Repr

/-- `status` and `staAndRsv` are the same byte, 12.
mirrors physical_network_interface.h:48-55 -/
structure E1000TxDesc where
  view : TxView
  status : UInt8
  deriving DecidableEq, Repr

/-- `length` bytes from `start` on. -/
def bytesFrom (space : Nat → UInt8) (start length : Nat) : List UInt8 := (List.range length).map fun k => space (start + k)

/-- The fields the two rings and the interrupt handler use. `pPacketHandler`:
the pointer is not null. mirrors physical_network_interface.h:94-128 -/
structure PhysicalNetworkInterface where
  rxDescs : RxIndex → E1000RxDesc
  txDescs : TxIndex → E1000TxDesc
  rxBufferSpace : Nat → UInt8
  txBufferSpace : Nat → UInt8
  currentRx : RxIndex
  currentTx : TxIndex
  interruptsEnabled : Bool
  pPacketHandler : Bool

/-- The registers, and the offload context the card has loaded. -/
structure E1000Registers where
  rdh : RxIndex
  rdt : RxIndex
  tdh : TxIndex
  tdt : TxIndex
  icr : UInt32
  ctrl : UInt32
  offload : Option E1000TxDescTCPIPContext

namespace PhysicalNetworkInterface

variable (s : PhysicalNetworkInterface)

/-- The frame in the buffer of descriptor `i`, if the card has stored one. -/
def rxFrame (i : RxIndex) : Option (List UInt8) :=
  if (s.rxDescs i).status &&& 0x1 = 0 then none
  else some (bytesFrom s.rxBufferSpace (RX_BUFFER_SIZE * i) (s.rxDescs i).length.toNat)

/-- The pointer and the length, as the bytes found there.
mirrors physical_network_interface.cpp:458-465 -/
def getReadBuffer : Option (List UInt8) := s.rxFrame s.currentRx

/-- With the value written to register 0x2818, if any.
mirrors physical_network_interface.cpp:467-478 -/
def finishReadBuffer : PhysicalNetworkInterface × Option RxIndex :=
  if (s.rxDescs s.currentRx).status &&& 0x1 = 0 then (s, none)
  else
    ({ s with
        rxDescs := Function.update s.rxDescs s.currentRx { s.rxDescs s.currentRx with status := 0 }
        currentRx := slot s.currentRx 1 }, some s.currentRx)

/-- Where the caller may write, relative to `txBufferSpace`.
mirrors physical_network_interface.cpp:403-410 -/
def getWriteBuffer : Option Nat :=
  if (s.txDescs s.currentTx).status = 0 then none else some (TX_BUFFER_SIZE * s.currentTx)

/-- mirrors physical_network_interface.cpp:426-434 -/
def legacyDescriptor (length : UInt32) : E1000TxDescLegacy where
  addrLow := TX_BUFFER_SIZE * s.currentTx
  addrHigh := 0
  length := length.toUInt16
  cso := 0
  cmd := CMD_EOP ||| CMD_IFCS ||| CMD_RS
  css := 0
  special := 0

/-- mirrors physical_network_interface.cpp:441-449 -/
def dataDescriptor (length : UInt32) : E1000TxDescTCPIPData where
  addrLow := TX_BUFFER_SIZE * s.currentTx
  addrHigh := 0
  dtalenLow := length.toUInt16
  dtalenHighAndDtype := (1 : UInt8) <<< 4
  dcmd := ((1 : UInt8) <<< 0) ||| ((0 : UInt8) <<< 1) ||| ((1 : UInt8) <<< 3) ||| ((1 : UInt8) <<< 5) ||| ((0 : UInt8) <<< 7)
  popts := ((1 : UInt8) <<< 0) ||| ((0 : UInt8) <<< 1)
  special := 0

/-- What is written to the descriptor; `none`: the call returns before.
mirrors physical_network_interface.cpp:413-450 -/
def descriptorFor (length : UInt32) (isIpv4Packet : Bool) : Option TxView :=
  if length.toNat < ETHERNET_SIMPLE_HEADER_SIZE then none
  else if length.toNat > ETHERNET_MTU + ETHERNET_SIMPLE_HEADER_SIZE then none
  else if (s.txDescs s.currentTx).status = 0 then none
  else if !isIpv4Packet then some (.legacy (s.legacyDescriptor length))
  else if length.toNat < IPV4_MINIMAL_HEADER_SIZE + ETHERNET_SIMPLE_HEADER_SIZE then none
  else some (.data (s.dataDescriptor length))

/-- With the value written to register 0x3818.
mirrors physical_network_interface.cpp:412-456 -/
def finishWriteBuffer (length : UInt32) (isIpv4Packet : Bool) : Option (PhysicalNetworkInterface × TxIndex) :=
  (s.descriptorFor length isIpv4Packet).map fun view =>
    ({ s with
        txDescs := Function.update s.txDescs s.currentTx ⟨view, 0⟩
        currentTx := slot s.currentTx 1 }, slot s.currentTx 1)

/-- The caller writes its frame where `getWriteBuffer` has said. -/
def write (frame : List UInt8) : PhysicalNetworkInterface :=
  match s.getWriteBuffer with
  | none => s
  | some start => { s with txBufferSpace := putBytes s.txBufferSpace start frame }

/-- The context that the constructor writes: the checksum of bytes 14 to 33
goes to byte 24. mirrors physical_network_interface.cpp:341-352 -/
def checksumContext : E1000TxDescTCPIPContext where
  ipcss := 14
  ipcso := 14 + 10
  ipcse := 14 + 19
  tucss := 0
  tucso := 0
  tucse := 0
  paylenLow := 0
  paylenHighAndDtyp := 0
  tucmd := ((0 : UInt8) <<< 0) ||| ((1 : UInt8) <<< 1) ||| ((1 : UInt8) <<< 3) ||| ((1 : UInt8) <<< 5) ||| ((0 : UInt8) <<< 7)
  hdrlen := 0
  mss := 0

/-- `rxInit`, `txInit` and the context descriptor; `rxBuffers` and `txBuffers`
are what the memory held before.
mirrors physical_network_interface.cpp:177-181,338-356,361-366,378-381 -/
def init (rxBuffers txBuffers : Nat → UInt8) (rxLength : RxIndex → UInt16) : PhysicalNetworkInterface where
  rxDescs i := ⟨RX_BUFFER_SIZE * i, rxLength i, 0⟩
  txDescs i := if i.val = 0 then ⟨.context checksumContext, 0⟩ else ⟨.unwritten, TSTA_DD⟩
  rxBufferSpace := rxBuffers
  txBufferSpace := txBuffers
  currentRx := ⟨0, firstRx_lt⟩
  currentTx := slot ⟨0, firstTx_lt⟩ 1
  interruptsEnabled := false
  pPacketHandler := false

/-- The registers after the constructor. The cause register has been read,
which clears it. mirrors physical_network_interface.cpp:324-335,367-371,382-388,353 -/
def initRegisters (ctrl : UInt32) : E1000Registers where
  rdh := ⟨0, firstRx_lt⟩
  rdt := ⟨32 - 1, lastRx_lt⟩
  tdh := ⟨0, firstTx_lt⟩
  tdt := ⟨0, firstTx_lt⟩
  icr := 0
  ctrl := ctrl ||| 0x40
  offload := none

end PhysicalNetworkInterface

/-! ## The card -/

/-- The bytes from `start` to `stop` are summed up in words, as they are, and
the complement goes to `offset`. -/
def insertChecksum (start offset stop : Nat) (frame : List UInt8) : List UInt8 :=
  let words := (List.range ((stop + 1 - start) / 2)).map fun k =>
    Word.be16 (frame.getD (start + 2 * k) 0) (frame.getD (start + 2 * k + 1) 0)
  let checksum := 0xFFFF - EndAround.endAroundSum 16 words
  (frame.set offset (UInt8.ofNat (checksum / 256))).set (offset + 1) (UInt8.ofNat checksum)

/-- What goes out for a data descriptor. -/
def offloaded (offload : Option E1000TxDescTCPIPContext) (d : E1000TxDescTCPIPData) (frame : List UInt8) : List UInt8 :=
  if d.popts &&& POPTS_IXSM = 0 then frame
  else match offload with
    | none => frame
    | some c => insertChecksum c.ipcss.toNat c.ipcso.toNat c.ipcse.toNat frame

/-- Where the interrupt handler is: not running, about to look for the next
frame, or inside the packet handler. -/
inductive Reception where
  | idle
  | draining
  | handling
  deriving DecidableEq, Repr

structure NetworkCard where
  interface : PhysicalNetworkInterface
  registers : E1000Registers
  reception : Reception
  accepted : List (List UInt8)
  passed : List (List UInt8)
  queued : List (List UInt8 × Bool)
  sent : List (List UInt8)

inductive CardStep where
  /-- bytes of a frame arrive in the buffer at the head -/
  | receive (bytes : List UInt8)
  /-- the card is done with the buffer at the head -/
  | writeBack (length : UInt16) (status : UInt8) (threshold : Bool)
  | linkStatus
  | transmit
  | registerPacketHandler
  | interrupt
  | getReadBuffer
  | finishReadBuffer
  | write (frame : List UInt8)
  | finishWriteBuffer (length : UInt32) (isIpv4Packet : Bool)

namespace NetworkCard

variable (s : NetworkCard)

def ICR_LSC : UInt32 := 0x04
def ICR_RXDMT0 : UInt32 := 0x10
def ICR_RXT0 : UInt32 := 0x80

/-- The buffer at the head is written to, at the address of its descriptor. -/
def receive (bytes : List UInt8) : Option NetworkCard :=
  if s.registers.rdh = s.registers.rdt ∨ RX_BUFFER_SIZE < bytes.length then none
  else some { s with interface := { s.interface with
    rxBufferSpace := putBytes s.interface.rxBufferSpace (s.interface.rxDescs s.registers.rdh).addrLow bytes } }

/-- The frame is in the buffer: the card sets length and status, goes to the
next descriptor and raises the receive timer interrupt, with or without the
one for few free descriptors. -/
def writeBack (length : UInt16) (status : UInt8) (threshold : Bool) : Option NetworkCard :=
  if s.registers.rdh = s.registers.rdt ∨ RX_BUFFER_SIZE < length.toNat ∨ status &&& 0x1 = 0 then none
  else
    let addr := (s.interface.rxDescs s.registers.rdh).addrLow
    some { s with
      interface := { s.interface with
        rxDescs := Function.update s.interface.rxDescs s.registers.rdh ⟨addr, length, status⟩ }
      registers := { s.registers with
        rdh := slot s.registers.rdh 1
        icr := s.registers.icr ||| ICR_RXT0 ||| (if threshold then ICR_RXDMT0 else 0) }
      accepted := s.accepted ++ [bytesFrom s.interface.rxBufferSpace addr length.toNat] }

/-- The card has processed the descriptor at the head; it reports so if the
RS bit says it should. -/
def processed (command : UInt8) : NetworkCard :=
  { s with
    interface := { s.interface with
      txDescs := Function.update s.interface.txDescs s.registers.tdh
        { s.interface.txDescs s.registers.tdh with
          status := if command &&& CMD_RS = 0 then (s.interface.txDescs s.registers.tdh).status else TSTA_DD } }
    registers := { s.registers with tdh := slot s.registers.tdh 1 } }

/-- The card processes the descriptor at the head. A command byte and a type
nibble that do not belong together stop it. -/
def transmit : Option NetworkCard :=
  if s.registers.tdh = s.registers.tdt then none
  else match (s.interface.txDescs s.registers.tdh).view with
    | .unwritten => none
    | .legacy d =>
      if d.cmd &&& CMD_DEXT ≠ 0 ∨ d.cmd &&& CMD_EOP = 0 then none
      else some { s.processed d.cmd with
        sent := s.sent ++ [bytesFrom s.interface.txBufferSpace d.addrLow d.length.toNat] }
    | .context d =>
      if d.tucmd &&& CMD_DEXT = 0 ∨ d.paylenHighAndDtyp >>> 4 ≠ 0 then none
      else
        let t := s.processed d.tucmd
        some { t with registers := { t.registers with offload := some d } }
    | .data d =>
      if d.dcmd &&& CMD_DEXT = 0 ∨ d.dtalenHighAndDtype >>> 4 ≠ 1 ∨ d.dcmd &&& CMD_EOP = 0 then none
      else some { s.processed d.dcmd with
        sent := s.sent ++ [offloaded s.registers.offload d
          (bytesFrom s.interface.txBufferSpace d.addrLow
            (d.dtalenLow.toNat + (d.dtalenHighAndDtype &&& 0xF).toNat * 65536))] }

/-! ## The driver -/

/-- The interrupt handler, up to the first look into the ring. Reading the
cause register clears it. mirrors physical_network_interface.cpp:93-117 -/
def interrupt : Option NetworkCard :=
  if s.interface.interruptsEnabled = false ∨ s.reception ≠ .idle then none
  else
    let status := s.registers.icr
    let s := { s with registers := { s.registers with icr := 0 } }
    if status &&& ICR_LSC ≠ 0 then some { s with registers := { s.registers with ctrl := s.registers.ctrl ||| 0x40 } }
    else if status &&& ICR_RXDMT0 ≠ 0 then some s
    else if status &&& ICR_RXT0 ≠ 0 then some { s with reception := .draining }
    else some s

/-- mirrors physical_network_interface.cpp:117-120 -/
def getReadBuffer : Option NetworkCard :=
  if s.reception ≠ .draining then none
  else match s.interface.getReadBuffer with
    | none => some { s with reception := .idle }
    | some frame =>
      some { s with
        reception := .handling
        passed := if s.interface.pPacketHandler then s.passed ++ [frame] else s.passed }

/-- mirrors physical_network_interface.cpp:122 -/
def finishReadBuffer : Option NetworkCard :=
  if s.reception ≠ .handling then none
  else
    some { s with
      interface := s.interface.finishReadBuffer.1
      registers := { s.registers with rdt := s.interface.finishReadBuffer.2.getD s.registers.rdt }
      reception := .draining }

/-- Enabling the interrupts also reads the cause register, once.
mirrors physical_network_interface.cpp:480-535 -/
def registerPacketHandler : NetworkCard :=
  if s.interface.interruptsEnabled then { s with interface := { s.interface with pPacketHandler := true } }
  else
    { s with
      interface := { s.interface with pPacketHandler := true, interruptsEnabled := true }
      registers := { s.registers with icr := 0 } }

/-- `queued` gets the bytes that are in the write buffer at the call. -/
def finishWriteBuffer (length : UInt32) (isIpv4Packet : Bool) : NetworkCard :=
  match s.interface.finishWriteBuffer length isIpv4Packet with
  | none => s
  | some (interface, tail) =>
    { s with
      interface := interface
      registers := { s.registers with tdt := tail }
      queued := s.queued ++
        [(bytesFrom s.interface.txBufferSpace (TX_BUFFER_SIZE * s.interface.currentTx) length.toNat, isIpv4Packet)] }

/-- The callers write no more than a write buffer holds. -/
def step : CardStep → Option NetworkCard
  | .receive bytes => s.receive bytes
  | .writeBack length status threshold => s.writeBack length status threshold
  | .linkStatus => some { s with registers := { s.registers with icr := s.registers.icr ||| ICR_LSC } }
  | .transmit => s.transmit
  | .registerPacketHandler => some s.registerPacketHandler
  | .interrupt => s.interrupt
  | .getReadBuffer => s.getReadBuffer
  | .finishReadBuffer => s.finishReadBuffer
  | .write frame => if TX_BUFFER_SIZE < frame.length then none else some { s with interface := s.interface.write frame }
  | .finishWriteBuffer length isIpv4Packet => some (s.finishWriteBuffer length isIpv4Packet)

/-- The card behind the constructor of its driver. -/
def init (rxBuffers txBuffers : Nat → UInt8) (rxLength : RxIndex → UInt16) (ctrl : UInt32) : NetworkCard where
  interface := .init rxBuffers txBuffers rxLength
  registers := PhysicalNetworkInterface.initRegisters ctrl
  reception := .idle
  accepted := []
  passed := []
  queued := []
  sent := []

def steps (s : NetworkCard) : List CardStep → Option NetworkCard
  | [] => some s
  | l :: ls => (s.step l).bind fun s => s.steps ls

end NetworkCard

/-- The card, its driver and the callers of the driver, in any order. -/
def cardLTS : LTS NetworkCard CardStep where
  init s := ∃ rxBuffers txBuffers rxLength ctrl, s = .init rxBuffers txBuffers rxLength ctrl
  step s l t := s.step l = some t

theorem run_of_cardSteps {s t : NetworkCard} {ls : List CardStep} (h : s.steps ls = some t) : cardLTS.Run s ls t := by
  induction ls generalizing s with
  | nil =>
    cases h
    exact .nil _
  | cons l ls ih =>
    obtain ⟨u, hu, hrest⟩ := Option.bind_eq_some_iff.mp h
    exact .cons hu (ih hrest)

/-! ## Buffers -/

@[simp] theorem length_bytesFrom (space : Nat → UInt8) (start length : Nat) : (bytesFrom space start length).length = length := by
  simp [bytesFrom]

theorem bytesFrom_congr {space space' : Nat → UInt8} {start length : Nat}
    (h : ∀ k, k < length → space (start + k) = space' (start + k)) : bytesFrom space start length = bytesFrom space' start length :=
  List.map_congr_left fun k hk => h k (List.mem_range.mp hk)

theorem putBytes_outside (space : Nat → UInt8) {start i : Nat} {bytes : List UInt8} (h : i < start ∨ start + bytes.length ≤ i) :
    putBytes space start bytes i = space i := by
  unfold putBytes
  split
  · rw [List.getElem?_eq_none (by omega)]
    rfl
  · rfl

/-- Two buffers of one size do not overlap. -/
theorem bytesFrom_putBytes {size : Nat} (space : Nat → UInt8) {i j length : Nat} {bytes : List UInt8} (hij : i ≠ j)
    (hlength : length ≤ size) (hbytes : bytes.length ≤ size) :
    bytesFrom (putBytes space (size * j) bytes) (size * i) length = bytesFrom space (size * i) length := by
  refine bytesFrom_congr fun k hk => putBytes_outside space ?_
  rcases Nat.lt_or_gt_of_ne hij with hlt | hgt
  · left
    have hmul := Nat.mul_le_mul_left size (Nat.succ_le_of_lt hlt)
    rw [Nat.mul_succ] at hmul
    omega
  · right
    have hmul := Nat.mul_le_mul_left size (Nat.succ_le_of_lt hgt)
    rw [Nat.mul_succ] at hmul
    omega

end CpuScheduler.L2
