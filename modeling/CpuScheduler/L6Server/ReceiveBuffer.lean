import CpuScheduler.L3Sockets.ReceivedData
import CpuScheduler.L6Server.CoapServer

/-!
# From the kernel to the server

The kernel appends datagrams to the receive buffer of the server's socket; the
server polls its buffer, gives the other one to the kernel when it finds
something, and handles the datagrams of the first one by one. A size field of
zero ends the list.

`receiveLTS` interleaves deliveries with the steps of `attemptReceiveBufferSwap`
(`serverStep`): the two bytes of the size field are read one after the other,
`setReceiveBuffer` is the clearing of the new buffer's first header and the
system call. `handled` is what was handed to `handlePacketFromReceiveBuffer`,
and `accepted` what the kernel advanced its pointer for.

A UDP datagram may have no data at all. The kernel takes it, and its size field
is the zero that ends the list: the server stops in front of it, or never swaps
(`datagramWithoutData_hides`). Without such datagrams the server handles what
was accepted, once and in order (`handles_accepted`).

The two buffers are one array; indices into it are distances from its start.
-/
namespace CpuScheduler.L6

open Word L2 L3 L3.SocketManager

def RECEIVE_BUFFER_SIZE : Nat := 3 * 0x10000

/-- What the server is given of a datagram. -/
structure Datagram where
  sourceIP : UInt32
  sourcePort : UInt16
  payload : List UInt8
  deriving DecidableEq, Repr

/-- The bytes a datagram takes in the buffer. -/
def Datagram.size (d : Datagram) : Nat := RECEIVE_BUFFER_HEADER_SIZE + d.payload.length

/-- The datagram the kernel has in its packets. -/
def datagramOf (packet : IPv4Packet) (fragments : List IPv4Packet) : Datagram where
  sourceIP := packet.sourceIP
  sourcePort := UInt16.ofNat (be16 (packet.data 0) (packet.data 1))
  payload := udpData packet fragments

/-! ## The server's side -/

/-- The size field of the header at `offset`. -/
def receivedSize (buffer : Nat → UInt8) (offset : Nat) : Nat := be16 (buffer (offset + 7)) (buffer (offset + 6))

/-- mirrors coap_server.cpp:146-151 -/
def readDatagram (buffer : Nat → UInt8) (offset : Nat) : Datagram where
  sourceIP := be32 (buffer (offset + 3)) (buffer (offset + 2)) (buffer (offset + 1)) (buffer offset)
  sourcePort := UInt16.ofNat (be16 (buffer (offset + 5)) (buffer (offset + 4)))
  payload := slice buffer (offset + RECEIVE_BUFFER_HEADER_SIZE) (receivedSize buffer offset)

/-- The socket of the server, and where its receive buffers are (not at null). -/
structure Inbox (T : Nat) where
  taskID : Fin T
  socketID : SocketID
  udpPort : UInt16
  receiveBuffers : UInt32

/-- Where the server is in `attemptReceiveBufferSwap`. -/
inductive Phase where
  /-- at the beginning -/
  | idle
  /-- byte 6 of the first header was zero -/
  | second
  /-- there is a datagram -/
  | swapping
  /-- the header of the other buffer is cleared -/
  | cleared
  /-- `currentUsedReceivebufferOffset` -/
  | draining (offset : Nat)
  deriving DecidableEq, Repr

structure Receiving (T : Nat) where
  manager : SocketManager T
  mem : Mem
  currentlyWrittenToReceiveBuffer : Bool
  phase : Phase
  handled : List Datagram
  accepted : List Datagram

/-- Where a receive buffer starts in the array. -/
def bufferOffset (b : Bool) : Nat := if b then RECEIVE_BUFFER_SIZE else 0

section
variable {T : Nat} (I : Inbox T)

namespace Receiving

/-- The array of the receive buffers. -/
def buffers (s : Receiving T) : Nat → UInt8 := view s.mem I.receiveBuffers

/-- Address of the buffer the server does not read. -/
def otherBuffer (s : Receiving T) : UInt32 :=
  I.receiveBuffers + UInt32.ofNat (bufferOffset (!s.currentlyWrittenToReceiveBuffer))

/-- The first header of the other buffer is cleared.
mirrors syscalls.cpp:28-32 -/
def clear (s : Receiving T) : Receiving T :=
  { s with
    mem := writeBytes s.mem (s.otherBuffer I) (fun _ => 0) RECEIVE_BUFFER_HEADER_SIZE
    phase := .cleared }

/-- The kernel gets the other buffer. mirrors syscalls.cpp:34-45 -/
def swap (s : Receiving T) : Receiving T :=
  { s with
    manager := (s.manager.setReceiveBuffer I.taskID (socketByte I.socketID) (s.otherBuffer I)
      (UInt32.ofNat RECEIVE_BUFFER_SIZE)).2
    phase := .draining 0 }

/-- mirrors coap_server.cpp:139-161 -/
def serverStep (s : Receiving T) : Receiving T :=
  let begin := bufferOffset s.currentlyWrittenToReceiveBuffer
  match s.phase with
  | .idle => if s.buffers I (begin + 6) ≠ 0 then { s with phase := .swapping } else { s with phase := .second }
  | .second => if s.buffers I (begin + 7) ≠ 0 then { s with phase := .swapping } else { s with phase := .idle }
  | .swapping => s.clear I
  | .cleared => s.swap I
  | .draining offset =>
    if s.buffers I (begin + offset + 6) ≠ 0 ∨ s.buffers I (begin + offset + 7) ≠ 0 then
      let d := readDatagram (s.buffers I) (begin + offset)
      { s with handled := s.handled ++ [d], phase := .draining (offset + d.size) }
    else { s with currentlyWrittenToReceiveBuffer := !s.currentlyWrittenToReceiveBuffer, phase := .idle }

end Receiving

/-! ## The system -/

inductive ReceiveStep (T : Nat) where
  | server
  | handleReceivedPacket (behind : Nat → UDPPortState) (packet : IPv4Packet) (fragments : List IPv4Packet)
  | userWrite (mem : Mem)

/-- The descriptor of the server's socket. -/
def Inbox.desc (s : SocketManager T) : SocketDesc := s.socketDescs I.taskID I.socketID

/-- The datagram, if the kernel's pointer has moved. -/
def advanced (s t : SocketManager T) (d : Datagram) : List Datagram :=
  if (I.desc t).receiveBuffer ≠ (I.desc s).receiveBuffer then [d] else []

def receiveStep (s : Receiving T) : ReceiveStep T → Receiving T → Prop
  | .server, t => t = s.serverStep I
  | .handleReceivedPacket behind packet fragments, t =>
    Sized (packet :: fragments) ∧ destinationPort packet = I.udpPort.toNat ∧
      (s.manager.handleReceivedPacket s.mem behind packet fragments).val = some (t.manager, t.mem) ∧
      t.currentlyWrittenToReceiveBuffer = s.currentlyWrittenToReceiveBuffer ∧ t.phase = s.phase ∧
      t.handled = s.handled ∧
      t.accepted = s.accepted ++ advanced I s.manager t.manager (datagramOf packet fragments)
  | .userWrite mem, t => (∀ k < 2 * RECEIVE_BUFFER_SIZE, view mem I.receiveBuffers k = s.buffers I k) ∧
      t = { s with mem := mem }

/-- The server has been constructed on sockets that any calls have made.
mirrors coap_server.cpp:59-82, syscalls.cpp:27-46 -/
def ReceiveConstructed (s : Receiving T) : Prop :=
  ∃ before : Sockets T, (socketLTS T).Reachable before ∧
    (before.manager.openSocket I.taskID I.udpPort).1 = I.socketID.val ∧
    s.manager = ((before.manager.openSocket I.taskID I.udpPort).2.setReceiveBuffer I.taskID (socketByte I.socketID)
      (I.receiveBuffers + UInt32.ofNat (bufferOffset false)) (UInt32.ofNat RECEIVE_BUFFER_SIZE)).2 ∧
    s.mem = writeBytes before.mem (I.receiveBuffers + UInt32.ofNat (bufferOffset false)) (fun _ => 0)
      RECEIVE_BUFFER_HEADER_SIZE ∧
    s.currentlyWrittenToReceiveBuffer = false ∧ s.phase = .idle ∧ s.handled = [] ∧ s.accepted = []

def receiveLTS : LTS (Receiving T) (ReceiveStep T) where
  init := ReceiveConstructed I
  step := receiveStep I

/-- The datagram has at least one byte of data. -/
def HasData (_ : Receiving T) : ReceiveStep T → Prop
  | .handleReceivedPacket _ packet _ => udpLength packet ≠ UDP_HEADER_SIZE
  | _ => True

end

/-! ## Lists of datagrams in a buffer -/

/-- From `offset` on, the buffer holds the datagrams `ds` and then a size field
of zero. -/
def Encodes (buffer : Nat → UInt8) : Nat → List Datagram → Prop
  | offset, [] => buffer (offset + 6) = 0 ∧ buffer (offset + 7) = 0
  | offset, d :: ds => readDatagram buffer offset = d ∧ d.payload ≠ [] ∧ Encodes buffer (offset + d.size) ds

def totalSize (ds : List Datagram) : Nat := (ds.map Datagram.size).sum

@[simp] theorem totalSize_nil : totalSize [] = 0 := rfl

@[simp] theorem totalSize_cons (d : Datagram) (ds : List Datagram) :
    totalSize (d :: ds) = d.size + totalSize ds := by
  simp [totalSize]

@[simp] theorem totalSize_append (ds ds' : List Datagram) :
    totalSize (ds ++ ds') = totalSize ds + totalSize ds' := by
  simp [totalSize]

theorem size_readDatagram (buffer : Nat → UInt8) (offset : Nat) :
    (readDatagram buffer offset).size = 8 + receivedSize buffer offset := by
  simp [readDatagram, Datagram.size, RECEIVE_BUFFER_HEADER_SIZE]

theorem slice_congr {data data' : Nat → UInt8} {start n : Nat}
    (h : ∀ k, start ≤ k → k < start + n → data' k = data k) : slice data' start n = slice data start n := by
  unfold slice
  refine List.map_congr_left fun k hk => h _ (by omega) ?_
  rw [List.mem_range] at hk
  omega

theorem readDatagram_congr {buffer buffer' : Nat → UInt8} {offset : Nat}
    (h : ∀ k, offset ≤ k → k < offset + (readDatagram buffer offset).size → buffer' k = buffer k) :
    readDatagram buffer' offset = readDatagram buffer offset := by
  rw [size_readDatagram] at h
  have hheader (k : Nat) (hk : k < 8) : buffer' (offset + k) = buffer (offset + k) := h _ (by omega) (by omega)
  have hsize : receivedSize buffer' offset = receivedSize buffer offset := by
    rw [receivedSize, hheader 7 (by decide), hheader 6 (by decide), receivedSize]
  unfold readDatagram
  rw [hsize, hheader 3 (by decide), hheader 2 (by decide), hheader 1 (by decide), hheader 5 (by decide),
    hheader 4 (by decide), h offset (by omega) (by omega)]
  congr 1
  exact slice_congr fun k h1 h2 => h k (by omega) (by unfold RECEIVE_BUFFER_HEADER_SIZE at h2; omega)

/-- Only the bytes of the datagrams and of the header behind them matter. -/
theorem Encodes.congr {buffer buffer' : Nat → UInt8} {offset : Nat} {ds : List Datagram} (h : Encodes buffer offset ds)
    (hsame : ∀ k, offset ≤ k → k < offset + totalSize ds + 8 → buffer' k = buffer k) : Encodes buffer' offset ds := by
  induction ds generalizing offset with
  | nil =>
    obtain ⟨h6, h7⟩ := h
    rw [totalSize_nil] at hsame
    exact ⟨(hsame _ (by omega) (by omega)).trans h6, (hsame _ (by omega) (by omega)).trans h7⟩
  | cons d ds ih =>
    obtain ⟨hd, hne, hds⟩ := h
    rw [totalSize_cons] at hsame
    refine ⟨?_, hne, ih hds fun k h1 h2 => hsame k (by omega) (by omega)⟩
    rw [← hd]
    refine readDatagram_congr fun k h1 h2 => hsame k h1 ?_
    rw [hd] at h2
    omega

/-- One more datagram at the end. -/
theorem Encodes.snoc {buffer buffer' : Nat → UInt8} {offset : Nat} {ds : List Datagram} {d : Datagram}
    (h : Encodes buffer offset ds) (hsame : ∀ k, offset ≤ k → k < offset + totalSize ds → buffer' k = buffer k)
    (hd : readDatagram buffer' (offset + totalSize ds) = d) (hne : d.payload ≠ [])
    (hend : Encodes buffer' (offset + totalSize ds + d.size) []) : Encodes buffer' offset (ds ++ [d]) := by
  induction ds generalizing offset with
  | nil => exact ⟨hd, hne, hend⟩
  | cons e ds ih =>
    obtain ⟨he, hne', hds⟩ := h
    rw [totalSize_cons, ← Nat.add_assoc] at hd hend
    rw [totalSize_cons] at hsame
    refine ⟨?_, hne', ih hds (fun k h1 h2 => hsame k (by omega) (by omega)) hd hend⟩
    rw [← he]
    refine readDatagram_congr fun k h1 h2 => hsame k h1 ?_
    rw [he] at h2
    omega

/-- The size field tells whether there is a datagram. -/
theorem payload_ne_nil_iff {buffer : Nat → UInt8} {offset : Nat} :
    (readDatagram buffer offset).payload ≠ [] ↔ buffer (offset + 6) ≠ 0 ∨ buffer (offset + 7) ≠ 0 := by
  have hlen : (readDatagram buffer offset).payload.length = receivedSize buffer offset := length_slice _ _ _
  rw [← List.length_pos_iff, hlen, receivedSize, be16_eq]
  have h6 : buffer (offset + 6) ≠ 0 ↔ (buffer (offset + 6)).toNat ≠ 0 := by
    rw [ne_eq, ← UInt8.toNat_inj]
    rfl
  have h7 : buffer (offset + 7) ≠ 0 ↔ (buffer (offset + 7)).toNat ≠ 0 := by
    rw [ne_eq, ← UInt8.toNat_inj]
    rfl
  rw [h6, h7]
  omega

/-! ## The kernel writes what the server reads -/

theorem ofNat_and_ff (n : Nat) : UInt8.ofNat (n &&& 0xFF) = UInt8.ofNat n := by
  rw [Nat.and_two_pow_sub_one_eq_mod n 8]
  apply UInt8.toNat_inj.mp
  rw [UInt8.toNat_ofNat', UInt8.toNat_ofNat']
  omega

theorem shiftRight_24_and_ff (x : UInt32) : ((x >>> 24) &&& 0xFF).toUInt8 = (x >>> 24).toUInt8 := by
  apply UInt8.toNat_inj.mp
  have hand : ((x >>> 24) &&& 0xFF).toNat = (x >>> 24).toNat % 256 := Nat.and_two_pow_sub_one_eq_mod _ 8
  rw [UInt32.toNat_toUInt8, UInt32.toNat_toUInt8, hand, Nat.mod_mod]

/-- The server reads the datagram that the kernel has taken. -/
theorem readDatagram_taken {T : Nat} {s : SocketManager T} {mem : Mem} {t : Fin T} {i : SocketID} {packet : IPv4Packet}
    {fragments : List IPv4Packet} {base : UInt32} {position size : Nat} {r : SocketManager T × Mem}
    (h : Taken s mem t i packet fragments base position size r) (hlen : (udpData packet fragments).length < 2 ^ 16) :
    readDatagram (view r.2 base) position = datagramOf packet fragments := by
  have hbyte (k : Nat) (hk : k < 8) : view r.2 base (position + k) =
      (receiveHeader packet (UDP_HEADER_SIZE + (udpData packet fragments).length)).getD k 0 := h.header k hk
  have hsize : receivedSize (view r.2 base) position = (udpData packet fragments).length := by
    rw [receivedSize, hbyte 7 (by decide), hbyte 6 (by decide)]
    show be16 (UInt8.ofNat (((UDP_HEADER_SIZE + (udpData packet fragments).length - UDP_HEADER_SIZE) >>> 8) &&& 0xFF))
      (UInt8.ofNat ((UDP_HEADER_SIZE + (udpData packet fragments).length - UDP_HEADER_SIZE) &&& 0xFF)) = _
    rw [Nat.add_sub_cancel_left, ofNat_and_ff]
    exact be16_split hlen
  have hip : be32 (view r.2 base (position + 3)) (view r.2 base (position + 2)) (view r.2 base (position + 1))
      (view r.2 base position) = packet.sourceIP := by
    rw [hbyte 3 (by decide), hbyte 2 (by decide), hbyte 1 (by decide),
      show view r.2 base position = _ from hbyte 0 (by decide)]
    show be32 ((packet.sourceIP >>> 24) &&& 0xFF).toUInt8 _ _ _ = _
    rw [shiftRight_24_and_ff]
    exact be32_split packet.sourceIP
  have hport : be16 (view r.2 base (position + 5)) (view r.2 base (position + 4)) =
      be16 (packet.data 0) (packet.data 1) := by
    rw [hbyte 5 (by decide), hbyte 4 (by decide)]
    show be16 (UInt8.ofNat ((be16 (packet.data 0) (packet.data 1) >>> 8) &&& 0xFF)) (UInt8.ofNat _) = _
    rw [ofNat_and_ff]
    exact be16_split (be16_lt _ _)
  have hdata : slice (view r.2 base) (position + RECEIVE_BUFFER_HEADER_SIZE) (udpData packet fragments).length =
      udpData packet fragments := by
    refine List.ext_getElem (length_slice _ _ _) fun k h1 h2 => ?_
    have hk := h.data k h2
    rw [List.getD_eq_getElem _ _ h2] at hk
    rw [← hk]
    simp [slice]
  unfold readDatagram datagramOf
  rw [hsize, hip, hport, hdata]

section
variable {T : Nat} (I : Inbox T)

/-- The kernel's pointer is behind the datagrams `ds` of buffer `b`. -/
structure Filled (s : Receiving T) (b : Bool) (ds : List Datagram) : Prop where
  encodes : Encodes (s.buffers I) (bufferOffset b) ds
  room : totalSize ds + RECEIVE_BUFFER_HEADER_SIZE ≤ RECEIVE_BUFFER_SIZE
  pointer : (I.desc s.manager).receiveBuffer = I.receiveBuffers + UInt32.ofNat (bufferOffset b + totalSize ds)
  left : (I.desc s.manager).receiveBufferSize.toNat = RECEIVE_BUFFER_SIZE - totalSize ds

/-- The datagrams that are accepted and not yet handled are in the buffers. -/
def Pending (s : Receiving T) : Prop :=
  match s.phase with
  | .draining offset => ∃ rest later,
      Encodes (s.buffers I) (bufferOffset s.currentlyWrittenToReceiveBuffer + offset) rest ∧
      offset + totalSize rest + RECEIVE_BUFFER_HEADER_SIZE ≤ RECEIVE_BUFFER_SIZE ∧
      Filled I s (!s.currentlyWrittenToReceiveBuffer) later ∧ s.accepted = s.handled ++ rest ++ later
  | .cleared => Encodes (s.buffers I) (bufferOffset (!s.currentlyWrittenToReceiveBuffer)) [] ∧
      ∃ ds, Filled I s s.currentlyWrittenToReceiveBuffer ds ∧ s.accepted = s.handled ++ ds
  | _ => ∃ ds, Filled I s s.currentlyWrittenToReceiveBuffer ds ∧ s.accepted = s.handled ++ ds

structure ReceiveInv (s : Receiving T) : Prop where
  bound : s.manager.boundSocket I.udpPort = some (some (I.taskID, I.socketID))
  active : (I.desc s.manager).isActive ≠ 0
  pending : Pending I s

variable {I}

/-! ## Deliveries -/

theorem size_datagramOf (packet : IPv4Packet) (fragments : List IPv4Packet) :
    (datagramOf packet fragments).size = RECEIVE_BUFFER_HEADER_SIZE + (udpData packet fragments).length := rfl

/-- Which datagrams are looked at at all. -/
theorem handleReceivedPacket_cases {s : SocketManager T} {udpPort : UInt16} {t : Fin T} {i : SocketID}
    (hb : s.boundSocket udpPort = some (some (t, i))) (mem : Mem) (behind : Nat → UDPPortState) {packet : IPv4Packet}
    (fragments : List IPv4Packet) (hport : destinationPort packet = udpPort.toNat) :
    (s.handleReceivedPacket mem behind packet fragments).val = some (s, mem) ∨
      UDP_HEADER_SIZE ≤ packet.dataSize ∧
        (s.handleReceivedPacket mem behind packet fragments).val = some (s.deliver mem t i packet fragments) := by
  by_cases h : packet.protocol = 17 ∧ UDP_HEADER_SIZE ≤ packet.dataSize
  · exact .inr ⟨h.2, handleReceivedPacket_bound hb mem behind fragments hport h.1 h.2⟩
  · left
    rw [handleReceivedPacket_of_not_udp s mem behind packet fragments h]
    rfl

theorem bufferOffset_le (b : Bool) : bufferOffset b + RECEIVE_BUFFER_SIZE ≤ 2 * RECEIVE_BUFFER_SIZE := by
  cases b <;> decide

theorem array_lt : 2 * RECEIVE_BUFFER_SIZE < 2 ^ 32 := by decide

/-- Distances below 2^32 are different addresses. -/
theorem address_inj {base : UInt32} {m n : Nat} (hm : m < 2 ^ 32) (hn : n < 2 ^ 32)
    (h : base + UInt32.ofNat m = base + UInt32.ofNat n) : m = n := by
  have hmn := congrArg UInt32.toNat (add_left_cancel h)
  rwa [UInt32.toNat_ofNat', UInt32.toNat_ofNat', Nat.mod_eq_of_lt hm, Nat.mod_eq_of_lt hn] at hmn

/-- What a delivery to buffer `b` does: the datagrams in it, and nothing outside
the buffer. -/
structure Delivered (I : Inbox T) (s t : Receiving T) (b : Bool) (ds : List Datagram) (d : Datagram) : Prop where
  filled : Filled I t b (ds ++ advanced I s.manager t.manager d)
  frame : ∀ k < 2 ^ 32, k < bufferOffset b ∨ bufferOffset b + RECEIVE_BUFFER_SIZE ≤ k →
    t.buffers I k = s.buffers I k

theorem delivered_same {s t : Receiving T} {b : Bool} {ds : List Datagram} {d : Datagram} (h : Filled I s b ds)
    (hmanager : t.manager = s.manager)
    (hframe : ∀ k < 2 ^ 32, k < bufferOffset b + totalSize ds + RECEIVE_BUFFER_HEADER_SIZE ∨
      bufferOffset b + RECEIVE_BUFFER_SIZE ≤ k → t.buffers I k = s.buffers I k) : Delivered I s t b ds d := by
  have hend := bufferOffset_le b
  have hlt := array_lt
  have hroom := h.room
  have hnone : advanced I s.manager t.manager d = [] := by
    rw [hmanager]
    exact if_neg (by simp)
  refine ⟨?_, fun k hk hout => ?_⟩
  · rw [hnone, List.append_nil]
    refine ⟨h.encodes.congr fun k _ h2 => hframe k ?_ (.inl h2), hroom, ?_, ?_⟩
    · unfold RECEIVE_BUFFER_HEADER_SIZE at hroom
      omega
    · rw [hmanager]
      exact h.pointer
    · rw [hmanager]
      exact h.left
  · refine hframe k hk ?_
    unfold RECEIVE_BUFFER_HEADER_SIZE at hroom ⊢
    omega

/-- The pointer moves by the header and the data. -/
theorem taken_moved {s t : Receiving T} {b : Bool} {ds : List Datagram} {packet : IPv4Packet}
    {fragments : List IPv4Packet} (h : Filled I s b ds)
    (htaken : Taken s.manager s.mem I.taskID I.socketID packet fragments I.receiveBuffers
      (bufferOffset b + totalSize ds) (RECEIVE_BUFFER_SIZE - totalSize ds) (t.manager, t.mem)) :
    (I.desc t.manager).receiveBuffer ≠ (I.desc s.manager).receiveBuffer := by
  have hend := bufferOffset_le b
  have hlt := array_lt
  have hfits := htaken.fits
  obtain ⟨d, hd, _, _, hpointer, _⟩ := htaken.manager
  have hdesc : I.desc t.manager = d := by
    rw [Inbox.desc, show t.manager = _ from hd, socketDescs_setDesc]
  rw [hdesc, hpointer, h.pointer]
  intro heq
  unfold RECEIVE_BUFFER_HEADER_SIZE at heq hfits
  have hsame := address_inj (by omega) (by omega) heq
  omega

theorem delivered_taken {s t : Receiving T} {b : Bool} {ds : List Datagram} {packet : IPv4Packet}
    {fragments : List IPv4Packet} (h : Filled I s b ds) (hlen : (udpData packet fragments).length < 2 ^ 16)
    (hne : (udpData packet fragments).length ≠ 0)
    (htaken : Taken s.manager s.mem I.taskID I.socketID packet fragments I.receiveBuffers
      (bufferOffset b + totalSize ds) (RECEIVE_BUFFER_SIZE - totalSize ds) (t.manager, t.mem)) :
    Delivered I s t b ds (datagramOf packet fragments) := by
  have hend := bufferOffset_le b
  have hlt := array_lt
  have hroom := h.room
  have hfits := htaken.fits
  obtain ⟨d, hd, _, _, hpointer, hleft⟩ := htaken.manager
  have hdesc : I.desc t.manager = d := by
    rw [Inbox.desc, show t.manager = _ from hd, socketDescs_setDesc]
  have hsize : totalSize (ds ++ [datagramOf packet fragments]) =
      totalSize ds + (RECEIVE_BUFFER_HEADER_SIZE + (udpData packet fragments).length) := by
    rw [totalSize_append, totalSize_cons, totalSize_nil, Nat.add_zero, size_datagramOf]
  unfold RECEIVE_BUFFER_HEADER_SIZE at hroom hfits
  have hnonempty : (datagramOf packet fragments).payload ≠ [] := by
    rw [← List.length_pos_iff]
    exact Nat.pos_of_ne_zero hne
  have hzeros : Encodes (t.buffers I) (bufferOffset b + totalSize ds + (datagramOf packet fragments).size) [] := by
    rw [size_datagramOf, ← Nat.add_assoc]
    exact ⟨htaken.zeros 6 (by decide), htaken.zeros 7 (by decide)⟩
  have hread := readDatagram_taken htaken hlen
  have hframe (k : Nat) (hk : k < 2 ^ 32)
      (hout : k < bufferOffset b + totalSize ds ∨ bufferOffset b + RECEIVE_BUFFER_SIZE ≤ k) :
      t.buffers I k = s.buffers I k := htaken.frame k hk (by omega)
  have hkept (k : Nat) (_ : bufferOffset b ≤ k) (h2 : k < bufferOffset b + totalSize ds) :
      t.buffers I k = s.buffers I k := hframe k (by omega) (.inl h2)
  refine ⟨?_, fun k hk hout => hframe k hk (by omega)⟩
  rw [advanced, if_pos (taken_moved h htaken)]
  refine ⟨h.encodes.snoc hkept hread hnonempty hzeros, ?_, ?_, ?_⟩
  · rw [hsize, RECEIVE_BUFFER_HEADER_SIZE]
    omega
  · rw [hdesc, hpointer, hsize, Nat.add_assoc]
  · rw [hdesc, hleft, hsize]
    omega

theorem delivered_deliver {s t : Receiving T} {b : Bool} {ds : List Datagram} {packet : IPv4Packet}
    {fragments : List IPv4Packet} (h : Filled I s b ds) (hsized : Sized (packet :: fragments))
    (hmin : UDP_HEADER_SIZE ≤ packet.dataSize) (hdata : udpLength packet ≠ UDP_HEADER_SIZE)
    (hr : s.manager.deliver s.mem I.taskID I.socketID packet fragments = (t.manager, t.mem)) :
    Delivered I s t b ds (datagramOf packet fragments) := by
  have hend := bufferOffset_le b
  have hlt := array_lt
  have hroom := h.room
  have hbuffer : bufferOffset b + totalSize ds + (RECEIVE_BUFFER_SIZE - totalSize ds) =
      bufferOffset b + RECEIVE_BUFFER_SIZE := by omega
  have hcases := deliver_cases s.mem h.pointer h.left (by omega) hsized hmin
  rw [hr] at hcases
  rcases hcases with ⟨⟨hudp, _⟩, htaken⟩ | ⟨_, hdropped⟩
  · have hbound := udpLength_lt packet
    exact delivered_taken h (by omega) (by omega) htaken
  · refine delivered_same h hdropped.manager fun k hk hout => hdropped.frame k hk ?_
    rw [hbuffer]
    exact hout

/-! ## Steps -/

theorem bufferOffset_not (b : Bool) : bufferOffset b + RECEIVE_BUFFER_SIZE ≤ bufferOffset (!b) ∨
    bufferOffset (!b) + RECEIVE_BUFFER_SIZE ≤ bufferOffset b := by
  cases b
  · exact .inl (by decide)
  · exact .inr (by decide)

theorem Filled.congr {s t : Receiving T} {b : Bool} {ds : List Datagram} (h : Filled I s b ds)
    (hdesc : I.desc t.manager = I.desc s.manager)
    (hsame : ∀ k, bufferOffset b ≤ k → k < bufferOffset b + RECEIVE_BUFFER_SIZE → t.buffers I k = s.buffers I k) :
    Filled I t b ds := by
  have hroom := h.room
  refine ⟨h.encodes.congr fun k h1 h2 => hsame k h1 ?_, hroom, by rw [hdesc]; exact h.pointer,
    by rw [hdesc]; exact h.left⟩
  unfold RECEIVE_BUFFER_HEADER_SIZE at hroom
  omega

/-- What `Pending` says while the server is not draining. -/
theorem Pending.of_filled {s : Receiving T} {ds : List Datagram} (hphase : s.phase = .idle ∨ s.phase = .second ∨
    s.phase = .swapping) (hf : Filled I s s.currentlyWrittenToReceiveBuffer ds)
    (hacc : s.accepted = s.handled ++ ds) : Pending I s := by
  unfold Pending
  rcases hphase with h | h | h <;> rw [h] <;> exact ⟨ds, hf, hacc⟩

theorem receiveInv_phase {s : Receiving T} (h : ReceiveInv I s) {phase phase' : Phase} (hp : s.phase = phase)
    (hphase : phase = .idle ∨ phase = .second) (hphase' : phase' = .idle ∨ phase' = .second ∨ phase' = .swapping) :
    ReceiveInv I { s with phase := phase' } := by
  have hpending := h.pending
  unfold Pending at hpending
  rw [hp] at hpending
  obtain ⟨ds, hf, hacc⟩ : ∃ ds, Filled I s s.currentlyWrittenToReceiveBuffer ds ∧ s.accepted = s.handled ++ ds := by
    rcases hphase with rfl | rfl <;> exact hpending
  have hf' : Filled I { s with phase := phase' } s.currentlyWrittenToReceiveBuffer ds :=
    hf.congr rfl fun _ _ _ => rfl
  exact ⟨h.bound, h.active, .of_filled hphase' hf' hacc⟩

theorem buffers_clear (s : Receiving T) {k : Nat} (hk : k < 2 ^ 32) : (s.clear I).buffers I k =
    if bufferOffset (!s.currentlyWrittenToReceiveBuffer) ≤ k ∧
      k < bufferOffset (!s.currentlyWrittenToReceiveBuffer) + 8 then 0 else s.buffers I k := by
  have hend := bufferOffset_le (!s.currentlyWrittenToReceiveBuffer)
  have hfits : bufferOffset (!s.currentlyWrittenToReceiveBuffer) + RECEIVE_BUFFER_HEADER_SIZE ≤ 2 ^ 32 := by
    unfold RECEIVE_BUFFER_SIZE at hend
    unfold RECEIVE_BUFFER_HEADER_SIZE
    omega
  unfold Receiving.buffers Receiving.clear Receiving.otherBuffer
  dsimp only
  rw [view_writeBytes hfits hk]
  rfl

theorem receiveInv_clear {s : Receiving T} (h : ReceiveInv I s) (hphase : s.phase = .swapping) :
    ReceiveInv I (s.clear I) := by
  have hpending := h.pending
  unfold Pending at hpending
  rw [hphase] at hpending
  obtain ⟨ds, hf, hacc⟩ := hpending
  have hend := bufferOffset_le (!s.currentlyWrittenToReceiveBuffer)
  have hend' := bufferOffset_le s.currentlyWrittenToReceiveBuffer
  have hlt := array_lt
  have hnot := bufferOffset_not s.currentlyWrittenToReceiveBuffer
  refine ⟨h.bound, h.active, ?_, ds, ?_, hacc⟩
  · unfold RECEIVE_BUFFER_SIZE at hend
    refine ⟨?_, ?_⟩ <;> refine (buffers_clear s (by simp only [Receiving.clear]; omega)).trans (if_pos ?_) <;>
      simp only [Receiving.clear] <;> omega
  · refine hf.congr rfl fun k h1 h2 => ?_
    rw [buffers_clear s (by omega), if_neg]
    change bufferOffset s.currentlyWrittenToReceiveBuffer ≤ k at h1
    change k < bufferOffset s.currentlyWrittenToReceiveBuffer + RECEIVE_BUFFER_SIZE at h2
    have : (8 : Nat) ≤ RECEIVE_BUFFER_SIZE := by decide
    omega

theorem desc_setDesc (m : SocketManager T) (d : SocketDesc) : I.desc (m.setDesc I.taskID I.socketID d) = d :=
  socketDescs_setDesc m I.taskID I.socketID d

/-- The call succeeds: the size is big enough and the socket is open. -/
theorem setReceiveBuffer_active {m : SocketManager T} (hactive : (I.desc m).isActive ≠ 0) (buffer : UInt32) :
    (m.setReceiveBuffer I.taskID (socketByte I.socketID) buffer (UInt32.ofNat RECEIVE_BUFFER_SIZE)).2 =
      m.setDesc I.taskID I.socketID
        { I.desc m with receiveBuffer := buffer, receiveBufferSize := UInt32.ofNat RECEIVE_BUFFER_SIZE } := by
  have hlt : (socketByte I.socketID).toNat < MAX_NUM_SOCKETS_PER_TASK := by
    rw [toNat_socketByte]
    exact I.socketID.isLt
  have hid : (⟨(socketByte I.socketID).toNat, hlt⟩ : SocketID) = I.socketID := Fin.ext (toNat_socketByte I.socketID)
  have hsize : ¬ (UInt32.ofNat RECEIVE_BUFFER_SIZE).toNat < 2 * RECEIVE_BUFFER_HEADER_SIZE := by decide
  unfold Inbox.desc at hactive ⊢
  unfold setReceiveBuffer
  rw [dif_pos hlt, if_neg (fun hsmall => hsize hsmall.1), hid]
  dsimp only
  rw [if_neg hactive]

theorem toNat_RECEIVE_BUFFER_SIZE : (UInt32.ofNat RECEIVE_BUFFER_SIZE).toNat = RECEIVE_BUFFER_SIZE := by decide

/-- The kernel continues in the other buffer. -/
theorem desc_swap {s : Receiving T} (h : ReceiveInv I s) :
    (s.swap I).manager.boundSocket I.udpPort = s.manager.boundSocket I.udpPort ∧
      (I.desc (s.swap I).manager).isActive = (I.desc s.manager).isActive ∧
      (I.desc (s.swap I).manager).receiveBuffer = s.otherBuffer I ∧
      (I.desc (s.swap I).manager).receiveBufferSize.toNat = RECEIVE_BUFFER_SIZE := by
  have hset : (s.swap I).manager = _ := setReceiveBuffer_active h.active (s.otherBuffer I)
  rw [hset, desc_setDesc]
  exact ⟨rfl, rfl, rfl, toNat_RECEIVE_BUFFER_SIZE⟩

theorem receiveInv_swap {s : Receiving T} (h : ReceiveInv I s) (hphase : s.phase = .cleared) :
    ReceiveInv I (s.swap I) := by
  obtain ⟨hbound, hactive, hpointer, hleft⟩ := desc_swap h
  have hpending := h.pending
  unfold Pending at hpending
  rw [hphase] at hpending
  obtain ⟨hempty, ds, hf, hacc⟩ := hpending
  refine ⟨hbound.trans h.bound, by rw [hactive]; exact h.active, ds, [], hf.encodes, ?_, ⟨hempty, ?_, hpointer, hleft⟩,
    ?_⟩
  · rw [Nat.zero_add]
    exact hf.room
  · decide
  · rw [List.append_nil]
    exact hacc

/-- One datagram is handled, or the buffer is done. -/
theorem receiveInv_drain {s : Receiving T} (h : ReceiveInv I s) {offset : Nat} (hphase : s.phase = .draining offset) :
    ReceiveInv I (s.serverStep I) := by
  have hpending := h.pending
  unfold Pending at hpending
  rw [hphase] at hpending
  obtain ⟨rest, later, hrest, hroom, hf, hacc⟩ := hpending
  simp only [Receiving.serverStep, hphase]
  cases rest with
  | nil =>
    rw [if_neg (by simpa using ⟨hrest.1, hrest.2⟩)]
    rw [List.append_nil] at hacc
    exact ⟨h.bound, h.active, .of_filled (.inl rfl) (hf.congr rfl fun _ _ _ => rfl) hacc⟩
  | cons d rest =>
    obtain ⟨hd, hne, hrest⟩ := hrest
    rw [if_pos (payload_ne_nil_iff.mp (by rw [hd]; exact hne)), hd]
    refine ⟨h.bound, h.active, rest, later, ?_, ?_, hf.congr rfl fun _ _ _ => rfl, ?_⟩
    · show Encodes _ (_ + (offset + d.size)) rest
      rw [← Nat.add_assoc]
      exact hrest
    · rw [totalSize_cons] at hroom
      show offset + d.size + totalSize rest + RECEIVE_BUFFER_HEADER_SIZE ≤ RECEIVE_BUFFER_SIZE
      omega
    · show s.accepted = s.handled ++ [d] ++ rest ++ later
      rw [hacc]
      simp

theorem receiveInv_server {s : Receiving T} (h : ReceiveInv I s) : ReceiveInv I (s.serverStep I) := by
  cases hphase : s.phase with
  | idle =>
    simp only [Receiving.serverStep, hphase]
    split
    · exact receiveInv_phase h hphase (.inl rfl) (.inr (.inr rfl))
    · exact receiveInv_phase h hphase (.inl rfl) (.inr (.inl rfl))
  | second =>
    simp only [Receiving.serverStep, hphase]
    split
    · exact receiveInv_phase h hphase (.inr rfl) (.inr (.inr rfl))
    · exact receiveInv_phase h hphase (.inr rfl) (.inl rfl)
  | swapping =>
    simp only [Receiving.serverStep, hphase]
    exact receiveInv_clear h hphase
  | cleared =>
    simp only [Receiving.serverStep, hphase]
    exact receiveInv_swap h hphase
  | draining offset => exact receiveInv_drain h hphase

theorem delivered_step {s t : Receiving T} (h : ReceiveInv I s) {behind : Nat → UDPPortState} {packet : IPv4Packet}
    {fragments : List IPv4Packet} (hdata : udpLength packet ≠ UDP_HEADER_SIZE)
    (hstep : receiveStep I s (.handleReceivedPacket behind packet fragments) t) {b : Bool} {ds : List Datagram}
    (hf : Filled I s b ds) : Delivered I s t b ds (datagramOf packet fragments) := by
  obtain ⟨hsized, hport, hval, _⟩ := hstep
  rcases handleReceivedPacket_cases h.bound s.mem behind fragments hport with hsame | ⟨hmin, hdeliver⟩
  · rw [hsame] at hval
    have hmanager : t.manager = s.manager := (congrArg Prod.fst (Option.some.inj hval)).symm
    have hmem : t.mem = s.mem := (congrArg Prod.snd (Option.some.inj hval)).symm
    refine delivered_same hf hmanager fun k _ _ => ?_
    rw [Receiving.buffers, hmem, Receiving.buffers]
  · rw [hdeliver] at hval
    exact delivered_deliver hf hsized hmin hdata (Option.some.inj hval)

/-- A step that is not the server's: the datagrams `extra` come behind those of
the kernel's buffer. -/
structure Grown (I : Inbox T) (s t : Receiving T) (extra : List Datagram) : Prop where
  current : t.currentlyWrittenToReceiveBuffer = s.currentlyWrittenToReceiveBuffer
  phase : t.phase = s.phase
  handled : t.handled = s.handled
  accepted : t.accepted = s.accepted ++ extra
  ports : t.manager.udpPortStates = s.manager.udpPortStates
  active : (I.desc t.manager).isActive = (I.desc s.manager).isActive
  filled : ∀ b ds, Filled I s b ds → Filled I t b (ds ++ extra) ∧
    ∀ k < 2 * RECEIVE_BUFFER_SIZE, k < bufferOffset b ∨ bufferOffset b + RECEIVE_BUFFER_SIZE ≤ k →
      t.buffers I k = s.buffers I k

theorem pending_grown {s t : Receiving T} {extra : List Datagram} (h : Pending I s) (hg : Grown I s t extra) :
    Pending I t := by
  have hend := bufferOffset_le s.currentlyWrittenToReceiveBuffer
  have hend' := bufferOffset_le (!s.currentlyWrittenToReceiveBuffer)
  have hnot := bufferOffset_not s.currentlyWrittenToReceiveBuffer
  have hplain (hds : ∃ ds, Filled I s s.currentlyWrittenToReceiveBuffer ds ∧ s.accepted = s.handled ++ ds) :
      ∃ ds, Filled I t t.currentlyWrittenToReceiveBuffer ds ∧ t.accepted = t.handled ++ ds := by
    obtain ⟨ds, hf, hacc⟩ := hds
    refine ⟨ds ++ extra, ?_, ?_⟩
    · rw [hg.current]
      exact (hg.filled _ ds hf).1
    · rw [hg.accepted, hacc, hg.handled, List.append_assoc]
  unfold Pending at h ⊢
  rw [hg.phase]
  cases hp : s.phase with
  | idle =>
    rw [hp] at h
    exact hplain h
  | second =>
    rw [hp] at h
    exact hplain h
  | swapping =>
    rw [hp] at h
    exact hplain h
  | cleared =>
    -- the kernel writes into the server's buffer, the cleared header is in the other one
    rw [hp] at h
    obtain ⟨hempty, ds, hf, hacc⟩ := h
    have hheader : (8 : Nat) ≤ RECEIVE_BUFFER_SIZE := by decide
    refine ⟨?_, hplain ⟨ds, hf, hacc⟩⟩
    rw [hg.current]
    refine hempty.congr fun k h1 h2 => (hg.filled _ ds hf).2 k ?_ ?_ <;> rw [totalSize_nil] at h2 <;> omega
  | draining offset =>
    -- the kernel writes into the other buffer
    rw [hp] at h
    obtain ⟨rest, later, hrest, hroom, hf, hacc⟩ := h
    obtain ⟨hf', hframe⟩ := hg.filled _ later hf
    rw [hg.current]
    refine ⟨rest, later ++ extra, hrest.congr fun k h1 h2 => ?_, hroom, hf', ?_⟩
    · unfold RECEIVE_BUFFER_HEADER_SIZE at hroom
      exact hframe k (by omega) (by omega)
    · rw [hg.accepted, hacc, hg.handled, List.append_assoc]

theorem ReceiveInv.grown {s t : Receiving T} {extra : List Datagram} (h : ReceiveInv I s) (hg : Grown I s t extra) :
    ReceiveInv I t := by
  refine ⟨?_, ?_, pending_grown h.pending hg⟩
  · unfold boundSocket
    rw [hg.ports]
    exact h.bound
  · rw [hg.active]
    exact h.active

theorem receiveInv_handleReceivedPacket {s t : Receiving T} (h : ReceiveInv I s) {behind : Nat → UDPPortState}
    {packet : IPv4Packet} {fragments : List IPv4Packet} (hdata : udpLength packet ≠ UDP_HEADER_SIZE)
    (hstep : receiveStep I s (.handleReceivedPacket behind packet fragments) t) : ReceiveInv I t := by
  obtain ⟨_, _, hval, hcurrent, hphase, hhandled, haccepted⟩ := id hstep
  have hs := sameSockets_received s.manager s.mem behind packet fragments hval
  have hlt := array_lt
  have hg : Grown I s t (advanced I s.manager t.manager (datagramOf packet fragments)) := by
    refine ⟨hcurrent, hphase, hhandled, haccepted, hs.ports, hs.isActive _ _, fun b ds hf => ?_⟩
    have hd := delivered_step h hdata hstep hf
    exact ⟨hd.filled, fun k hk hout => hd.frame k (by omega) hout⟩
  exact h.grown hg

theorem receiveInv_userWrite {s : Receiving T} (h : ReceiveInv I s) {mem : Mem}
    (hmem : ∀ k < 2 * RECEIVE_BUFFER_SIZE, view mem I.receiveBuffers k = s.buffers I k) :
    ReceiveInv I { s with mem := mem } := by
  have hg : Grown I s { s with mem := mem } [] := by
    refine ⟨rfl, rfl, rfl, by simp, rfl, rfl, fun b ds hf => ⟨?_, fun k hk _ => hmem k hk⟩⟩
    have hle := bufferOffset_le b
    rw [List.append_nil]
    exact hf.congr rfl fun k _ h2 => hmem k (by omega)
  exact h.grown hg

/-! ## Runs -/

theorem receiveInv_step {s t : Receiving T} {l : ReceiveStep T} (h : ReceiveInv I s) (hdata : HasData s l)
    (hstep : receiveStep I s l t) : ReceiveInv I t := by
  cases l with
  | server =>
    cases hstep
    exact receiveInv_server h
  | handleReceivedPacket behind packet fragments => exact receiveInv_handleReceivedPacket h hdata hstep
  | userWrite mem =>
    obtain ⟨hmem, rfl⟩ := hstep
    exact receiveInv_userWrite h hmem

theorem receiveInv_constructed (hT : T ≤ 256) {s : Receiving T} (h : ReceiveConstructed I s) : ReceiveInv I s := by
  obtain ⟨before, hbefore, hopen, hmanager, hmem, hcurrent, hphase, hhandled, haccepted⟩ := h
  have howned := owned_openSocket hT (owned_of_reachable hT hbefore) I.taskID I.udpPort
  obtain ⟨⟨d, hd, hactive, hport, _⟩, _⟩ := openSocket_opened hopen
  have hopened : (I.desc (before.manager.openSocket I.taskID I.udpPort).2).isActive ≠ 0 := by
    rw [Inbox.desc, hd, hactive]
    decide
  have hbound := boundSocket_of_owned howned hopened
  rw [hd, hport] at hbound
  rw [setReceiveBuffer_active hopened] at hmanager
  have hdesc : I.desc s.manager = { I.desc (before.manager.openSocket I.taskID I.udpPort).2 with
      receiveBuffer := I.receiveBuffers + UInt32.ofNat (bufferOffset false)
      receiveBufferSize := UInt32.ofNat RECEIVE_BUFFER_SIZE } := by
    rw [hmanager, desc_setDesc]
  have hzero (k : Nat) (hk : k < 8) : s.buffers I (bufferOffset false + k) = 0 := by
    have hk' : bufferOffset false + k < 2 ^ 32 := by
      show 0 + k < 2 ^ 32
      omega
    have hin : bufferOffset false ≤ bufferOffset false + k ∧
        bufferOffset false + k < bufferOffset false + RECEIVE_BUFFER_HEADER_SIZE := by
      unfold RECEIVE_BUFFER_HEADER_SIZE
      omega
    rw [Receiving.buffers, hmem, view_writeBytes (by decide) hk', if_pos hin]
  have hempty : Filled I s s.currentlyWrittenToReceiveBuffer [] := by
    rw [hcurrent]
    refine ⟨⟨hzero 6 (by decide), hzero 7 (by decide)⟩, by decide, ?_, ?_⟩
    · rw [hdesc]
      rfl
    · rw [hdesc]
      exact toNat_RECEIVE_BUFFER_SIZE
  refine ⟨?_, ?_, .of_filled (.inl hphase) hempty ?_⟩
  · rw [hmanager]
    exact hbound
  · rw [hdesc]
    exact hopened
  · rw [haccepted, hhandled]
    rfl

/-! ## Polls -/

/-- `n` steps of the server. -/
def Receiving.serverSteps (I : Inbox T) (n : Nat) (s : Receiving T) : Receiving T := (Receiving.serverStep I)^[n] s

/-- A whole poll: the server is back at the beginning for the first time. -/
def Polls (I : Inbox T) (s t : Receiving T) : Prop :=
  ∃ n, t = s.serverSteps I (n + 1) ∧ t.phase = .idle ∧ ∀ m < n, (s.serverSteps I (m + 1)).phase ≠ .idle

theorem serverSteps_succ (s : Receiving T) (n : Nat) :
    s.serverSteps I (n + 1) = (s.serverStep I).serverSteps I n :=
  Function.iterate_succ_apply _ _ _

theorem Polls.single {s : Receiving T} (h : (s.serverStep I).phase = .idle) : Polls I s (s.serverStep I) :=
  ⟨0, rfl, h, fun _ hm => absurd hm (Nat.not_lt_zero _)⟩

theorem Polls.cons {s t : Receiving T} (hs : (s.serverStep I).phase ≠ .idle) (h : Polls I (s.serverStep I) t) :
    Polls I s t := by
  obtain ⟨n, ht, hidle, hbefore⟩ := h
  refine ⟨n + 1, ?_, hidle, fun m hm => ?_⟩
  · rw [serverSteps_succ]
    exact ht
  · cases m with
    | zero => exact hs
    | succ m =>
      rw [serverSteps_succ]
      exact hbefore m (by omega)

/-- A poll ends in one state. -/
theorem Polls.unique {s t t' : Receiving T} (h : Polls I s t) (h' : Polls I s t') : t = t' := by
  obtain ⟨n, ht, hidle, hbefore⟩ := h
  obtain ⟨n', ht', hidle', hbefore'⟩ := h'
  rw [ht] at hidle
  rw [ht'] at hidle'
  have hn : n = n' := by
    rcases Nat.lt_trichotomy n n' with hlt | heq | hlt
    · exact absurd hidle (hbefore' n hlt)
    · exact heq
    · exact absurd hidle' (hbefore n' hlt)
  rw [ht, ht', hn]

theorem accepted_serverStep (s : Receiving T) : (s.serverStep I).accepted = s.accepted := by
  unfold Receiving.serverStep
  dsimp only
  split
  · split <;> rfl
  · split <;> rfl
  · rfl
  · rfl
  · split <;> rfl

/-- Everything accepted has been handled, and the kernel's buffer is empty. -/
structure Emptied (I : Inbox T) (s t : Receiving T) : Prop where
  polls : Polls I s t
  accepted : t.accepted = s.accepted
  handled : t.handled = s.accepted
  filled : Filled I t t.currentlyWrittenToReceiveBuffer []

theorem Emptied.cons {s t : Receiving T} (hs : (s.serverStep I).phase ≠ .idle) (h : Emptied I (s.serverStep I) t) :
    Emptied I s t := by
  have haccepted := accepted_serverStep (I := I) s
  exact ⟨h.polls.cons hs, h.accepted.trans haccepted, h.handled.trans haccepted, h.filled⟩

/-- The loop over the datagrams of the buffer that was taken from the kernel. -/
theorem emptied_draining {rest : List Datagram} {s : Receiving T} {offset : Nat} (hphase : s.phase = .draining offset)
    (hrest : Encodes (s.buffers I) (bufferOffset s.currentlyWrittenToReceiveBuffer + offset) rest)
    (hf : Filled I s (!s.currentlyWrittenToReceiveBuffer) []) (hacc : s.accepted = s.handled ++ rest) :
    ∃ t, Emptied I s t := by
  induction rest generalizing s offset with
  | nil =>
    have hstep : s.serverStep I =
        { s with currentlyWrittenToReceiveBuffer := !s.currentlyWrittenToReceiveBuffer, phase := .idle } := by
      simp only [Receiving.serverStep, hphase]
      exact if_neg (by simpa using ⟨hrest.1, hrest.2⟩)
    rw [List.append_nil] at hacc
    refine ⟨s.serverStep I, .single ?_, accepted_serverStep s, ?_, ?_⟩
    · rw [hstep]
    · rw [hstep, hacc]
    · rw [hstep]
      exact hf.congr rfl fun _ _ _ => rfl
  | cons d rest ih =>
    obtain ⟨hd, hne, hrest⟩ := hrest
    have hstep : s.serverStep I = { s with handled := s.handled ++ [d], phase := .draining (offset + d.size) } := by
      simp only [Receiving.serverStep, hphase]
      rw [if_pos (payload_ne_nil_iff.mp (by rw [hd]; exact hne)), hd]
    have hnext : ∃ t, Emptied I (s.serverStep I) t := by
      rw [hstep]
      refine ih rfl ?_ (hf.congr rfl fun _ _ _ => rfl) ?_
      · show Encodes _ (_ + (offset + d.size)) rest
        rw [← Nat.add_assoc]
        exact hrest
      · show s.accepted = s.handled ++ [d] ++ rest
        rw [hacc, List.append_assoc]
        rfl
    obtain ⟨t, ht⟩ := hnext
    refine ⟨t, .cons ?_ ht⟩
    rw [hstep]
    nofun

theorem emptied_swapping {s : Receiving T} (h : ReceiveInv I s) (hphase : s.phase = .swapping) :
    ∃ t, Emptied I s t := by
  have hclear : s.serverStep I = s.clear I := by simp only [Receiving.serverStep, hphase]
  have hswap : (s.clear I).serverStep I = (s.clear I).swap I := rfl
  have hinv := receiveInv_clear h hphase
  obtain ⟨hempty, ds, hf, hacc⟩ : Encodes ((s.clear I).buffers I)
      (bufferOffset (!(s.clear I).currentlyWrittenToReceiveBuffer)) [] ∧ ∃ ds,
      Filled I (s.clear I) (s.clear I).currentlyWrittenToReceiveBuffer ds ∧
        (s.clear I).accepted = (s.clear I).handled ++ ds := hinv.pending
  obtain ⟨_, _, hpointer, hleft⟩ := desc_swap hinv
  have hnew : Filled I ((s.clear I).swap I) (!((s.clear I).swap I).currentlyWrittenToReceiveBuffer) [] :=
    ⟨hempty, by decide, hpointer, hleft⟩
  obtain ⟨t, ht⟩ := emptied_draining (s := (s.clear I).swap I) rfl hf.encodes hnew hacc
  refine ⟨t, .cons ?_ (.cons ?_ ?_)⟩
  · rw [hclear]
    nofun
  · rw [hclear, hswap]
    nofun
  · rw [hclear, hswap]
    exact ht

/-- Without a size in the first header the kernel's buffer is empty. -/
theorem filled_nil_of_zero {s : Receiving T} {b : Bool} {ds : List Datagram} (hf : Filled I s b ds)
    (h6 : s.buffers I (bufferOffset b + 6) = 0) (h7 : s.buffers I (bufferOffset b + 7) = 0) : ds = [] := by
  cases ds with
  | nil => rfl
  | cons d ds =>
    obtain ⟨hd, hne, _⟩ := hf.encodes
    rw [← hd] at hne
    rcases payload_ne_nil_iff.mp hne with h | h
    · exact absurd h6 h
    · exact absurd h7 h

/-- A poll that the kernel does not interrupt ends, and leaves nothing behind. -/
theorem emptied_idle {s : Receiving T} (h : ReceiveInv I s) (hphase : s.phase = .idle) : ∃ t, Emptied I s t := by
  have hpending := h.pending
  unfold Pending at hpending
  rw [hphase] at hpending
  obtain ⟨ds, hf, hacc⟩ := hpending
  have hinv := receiveInv_server h
  by_cases h6 : s.buffers I (bufferOffset s.currentlyWrittenToReceiveBuffer + 6) = 0
  · have hstep : s.serverStep I = { s with phase := .second } := by
      simp only [Receiving.serverStep, hphase, h6, ne_eq, not_true_eq_false, if_false]
    have hinv' := receiveInv_server hinv
    by_cases h7 : s.buffers I (bufferOffset s.currentlyWrittenToReceiveBuffer + 7) = 0
    · have hstep' : (s.serverStep I).serverStep I = { s with phase := .idle } := by
        rw [hstep]
        exact if_neg (not_not.mpr h7)
      cases filled_nil_of_zero hf h6 h7
      rw [List.append_nil] at hacc
      refine ⟨(s.serverStep I).serverStep I, .cons (by rw [hstep]; nofun) (.single (by rw [hstep'])), ?_, ?_, ?_⟩
      · rw [hstep']
      · rw [hstep', hacc]
      · rw [hstep']
        exact hf.congr rfl fun _ _ _ => rfl
    · have hstep' : (s.serverStep I).serverStep I = { s with phase := .swapping } := by
        rw [hstep]
        exact if_pos h7
      obtain ⟨t, ht⟩ := emptied_swapping hinv' (by rw [hstep'])
      exact ⟨t, .cons (by rw [hstep]; nofun) (.cons (by rw [hstep']; nofun) ht)⟩
  · have hstep : s.serverStep I = { s with phase := .swapping } := by
      simp only [Receiving.serverStep, hphase, ne_eq, h6, not_false_eq_true, if_true]
    obtain ⟨t, ht⟩ := emptied_swapping hinv (by rw [hstep])
    exact ⟨t, .cons (by rw [hstep]; nofun) ht⟩

/-! ## Exactly once and in order -/

/-- A UDP datagram for the server: its length field is right. -/
structure WellFormed (I : Inbox T) (packet : IPv4Packet) (fragments : List IPv4Packet) : Prop where
  protocol : packet.protocol = 17
  sized : Sized (packet :: fragments)
  header : UDP_HEADER_SIZE ≤ packet.dataSize
  port : destinationPort packet = I.udpPort.toNat
  length : udpLength packet = UDP_HEADER_SIZE + (udpData packet fragments).length

/-- An empty buffer has room for every datagram. -/
theorem accepts_wellFormed {s : Receiving T} (h : ReceiveInv I s)
    (hf : Filled I s s.currentlyWrittenToReceiveBuffer []) (behind : Nat → UDPPortState) {packet : IPv4Packet}
    {fragments : List IPv4Packet} (hw : WellFormed I packet fragments) :
    ∃ u, receiveStep I s (.handleReceivedPacket behind packet fragments) u ∧
      u.accepted = s.accepted ++ [datagramOf packet fragments] := by
  have hdeliver := handleReceivedPacket_bound h.bound s.mem behind fragments hw.port hw.protocol hw.header
  have hend := bufferOffset_le s.currentlyWrittenToReceiveBuffer
  have hlt := array_lt
  have hudp := udpLength_lt packet
  have hlength := hw.length
  have hacceptable : Acceptable packet fragments (RECEIVE_BUFFER_SIZE - totalSize []) := by
    refine ⟨hw.length, ?_⟩
    unfold UDP_HEADER_SIZE at hlength
    unfold RECEIVE_BUFFER_SIZE RECEIVE_BUFFER_HEADER_SIZE
    rw [totalSize_nil]
    omega
  cases hr : s.manager.deliver s.mem I.taskID I.socketID packet fragments with
  | mk manager mem =>
    rw [hr] at hdeliver
    let u : Receiving T := { s with
      manager := manager
      mem := mem
      accepted := s.accepted ++ advanced I s.manager manager (datagramOf packet fragments) }
    refine ⟨u, ⟨hw.sized, hw.port, hdeliver, rfl, rfl, rfl, rfl⟩, ?_⟩
    have hcases := deliver_cases s.mem hf.pointer hf.left (by rw [totalSize_nil]; omega) hw.sized hw.header
    rw [hr] at hcases
    rcases hcases with ⟨_, htaken⟩ | ⟨hnot, _⟩
    · have hmoved : (I.desc u.manager).receiveBuffer ≠ (I.desc s.manager).receiveBuffer := taken_moved hf htaken
      show s.accepted ++ advanced I s.manager manager (datagramOf packet fragments) = _
      rw [advanced, if_pos hmoved]
    · exact absurd hacceptable hnot

theorem handled_of_pending {s : Receiving T} (h : Pending I s) : s.handled <+: s.accepted := by
  unfold Pending at h
  split at h
  · obtain ⟨rest, later, _, _, _, hacc⟩ := h
    exact ⟨rest ++ later, by rw [hacc, List.append_assoc]⟩
  · obtain ⟨_, ds, _, hacc⟩ := h
    exact ⟨ds, hacc.symm⟩
  · obtain ⟨ds, _, hacc⟩ := h
    exact ⟨ds, hacc.symm⟩

theorem receiveInv_reachable (hT : T ≤ 256) {s : Receiving T} (h : ((receiveLTS I).Guarded HasData).Reachable s) :
    ReceiveInv I s := by
  refine LTS.Inductive.reachable (I := ReceiveInv I) ⟨?_, ?_⟩ s h
  · intro s hs
    exact receiveInv_constructed hT hs
  · intro s l t hs hst
    exact receiveInv_step hs hst.1 hst.2

theorem reachable_serverSteps {s : Receiving T} (h : ((receiveLTS I).Guarded HasData).Reachable s) (n : Nat) :
    ((receiveLTS I).Guarded HasData).Reachable (s.serverSteps I n) := by
  induction n generalizing s with
  | zero => exact h
  | succ n ih =>
    rw [serverSteps_succ]
    exact ih (h.step (l := .server) ⟨trivial, rfl⟩)

/-- If every datagram has data, the server handles what the kernel has accepted
once and in order: a poll that starts after the last delivery handles all of
it, and after it every datagram is accepted again. -/
theorem handles_accepted (hT : T ≤ 256) (s : Receiving T) (h : ((receiveLTS I).Guarded HasData).Reachable s) :
    s.handled <+: s.accepted ∧ (s.phase = .idle → (∃ t, Polls I s t) ∧ ∀ t, Polls I s t →
      t.handled = s.accepted ∧ t.accepted = s.accepted ∧ ((receiveLTS I).Guarded HasData).Reachable t ∧
        ∀ behind packet fragments, WellFormed I packet fragments →
          ∃ u, receiveStep I t (.handleReceivedPacket behind packet fragments) u ∧
            u.accepted = t.accepted ++ [datagramOf packet fragments]) := by
  have hinv := receiveInv_reachable hT h
  refine ⟨handled_of_pending hinv.pending, fun hidle => ?_⟩
  obtain ⟨t, ht⟩ := emptied_idle hinv hidle
  refine ⟨⟨t, ht.polls⟩, fun t' ht' => ?_⟩
  cases ht'.unique ht.polls
  have hreach : ((receiveLTS I).Guarded HasData).Reachable t := by
    obtain ⟨n, hn, _⟩ := ht.polls
    rw [hn]
    exact reachable_serverSteps h (n + 1)
  have hinv' := receiveInv_reachable hT hreach
  exact ⟨ht.handled, ht.accepted, hreach, fun behind packet fragments hw =>
    accepts_wellFormed hinv' ht.filled behind hw⟩

end

/-! ## Datagrams with and without data -/

def coapInbox : Inbox 1 where
  taskID := ⟨0, Nat.one_pos⟩
  socketID := ⟨0, firstSocket_lt⟩
  udpPort := 5683
  receiveBuffers := 0x100000

def emptyInbox : Receiving 1 where
  manager := (((SocketManager.init blankManager).openSocket ⟨0, Nat.one_pos⟩ 5683).2.setReceiveBuffer ⟨0, Nat.one_pos⟩
    0 0x100000 (UInt32.ofNat RECEIVE_BUFFER_SIZE)).2
  mem := writeBytes (fun _ => 0) 0x100000 (fun _ => 0) RECEIVE_BUFFER_HEADER_SIZE
  currentlyWrittenToReceiveBuffer := false
  phase := .idle
  handled := []
  accepted := []

theorem constructed_emptyInbox : ReceiveConstructed coapInbox emptyInbox := by
  refine ⟨⟨SocketManager.init blankManager, fun _ => 0, none⟩, ⟨_, [], ⟨_, rfl⟩, .nil _⟩, ?_, rfl, rfl, rfl, rfl, rfl, rfl⟩
  decide +kernel

/-- The state behind a delivery. -/
def deliveredTo (s : Receiving 1) (packet : IPv4Packet) : Receiving 1 :=
  let r := s.manager.deliver s.mem coapInbox.taskID coapInbox.socketID packet []
  { s with manager := r.1, mem := r.2, accepted := s.accepted ++ advanced coapInbox s.manager r.1 (datagramOf packet []) }

/-- The same datagram as `datagramTo 5683`, without the byte of data. -/
def datagramWithoutData : IPv4Packet :=
  { datagramTo 5683 with
    dataSize := 8
    data := fun i => [0x30, 0x39, 0x16, 0x33, 0, 8, 0, 0].getD i 0 }

theorem wellFormed_datagramTo : WellFormed coapInbox (datagramTo 5683) [] := by
  refine ⟨rfl, ?_, by decide, by decide, by decide⟩
  intro p hp
  cases List.mem_singleton.mp hp
  decide

theorem wellFormed_datagramWithoutData : WellFormed coapInbox datagramWithoutData [] := by
  refine ⟨rfl, ?_, by decide, by decide, by decide⟩
  intro p hp
  cases List.mem_singleton.mp hp
  decide

theorem step_deliveredTo {s : Receiving 1} {packet : IPv4Packet}
    (hb : s.manager.boundSocket 5683 = some (some (coapInbox.taskID, coapInbox.socketID)))
    (hw : WellFormed coapInbox packet []) :
    (receiveLTS coapInbox).step s (.handleReceivedPacket (fun _ => ⟨0, 0, 0⟩) packet []) (deliveredTo s packet) :=
  ⟨hw.sized, hw.port, handleReceivedPacket_bound hb s.mem _ [] hw.port hw.protocol hw.header, rfl, rfl, rfl, rfl⟩

/-- A datagram with one byte, then a poll: it is handled. -/
theorem handles_accepted_datagram : (deliveredTo emptyInbox (datagramTo 5683)).accepted =
      [⟨0x0A000002, 0x3039, [7]⟩] ∧
    ∃ t, Polls coapInbox (deliveredTo emptyInbox (datagramTo 5683)) t ∧ t.handled = [⟨0x0A000002, 0x3039, [7]⟩] := by
  have hreach : ((receiveLTS coapInbox).Guarded HasData).Reachable (deliveredTo emptyInbox (datagramTo 5683)) := by
    have hstep := step_deliveredTo (s := emptyInbox) (by decide +kernel) wellFormed_datagramTo
    have hdata : udpLength (datagramTo 5683) ≠ UDP_HEADER_SIZE := by decide
    exact ⟨emptyInbox, [.handleReceivedPacket (fun _ => ⟨0, 0, 0⟩) (datagramTo 5683) []], constructed_emptyInbox,
      .cons ⟨hdata, hstep⟩ (.nil _)⟩
  have haccepted : (deliveredTo emptyInbox (datagramTo 5683)).accepted = [⟨0x0A000002, 0x3039, [7]⟩] := by
    decide +kernel
  obtain ⟨⟨t, ht⟩, hpolls⟩ := (handles_accepted (by decide) _ hreach).2 rfl
  exact ⟨haccepted, t, ht, (hpolls t ht).1.trans haccepted⟩

/-- A datagram without data, then one with data: both are accepted, and a poll
finds nothing. -/
theorem datagramWithoutData_hides : ∃ s t, (receiveLTS coapInbox).Reachable s ∧ s.phase = .idle ∧
    s.accepted = [datagramOf datagramWithoutData [], datagramOf (datagramTo 5683) []] ∧
    WellFormed coapInbox datagramWithoutData [] ∧ WellFormed coapInbox (datagramTo 5683) [] ∧
    Polls coapInbox s t ∧ t.accepted = s.accepted ∧ t.handled = [] := by
  have hfirst := step_deliveredTo (s := emptyInbox) (by decide +kernel) wellFormed_datagramWithoutData
  have hsecond := step_deliveredTo (s := deliveredTo emptyInbox datagramWithoutData) (by decide +kernel)
    wellFormed_datagramTo
  refine ⟨deliveredTo (deliveredTo emptyInbox datagramWithoutData) (datagramTo 5683), _,
    ⟨emptyInbox, [_, _], constructed_emptyInbox, .cons hfirst (.cons hsecond (.nil _))⟩, rfl, ?_,
    wellFormed_datagramWithoutData, wellFormed_datagramTo, ⟨1, rfl, ?_, ?_⟩, ?_, ?_⟩
  all_goals decide +kernel

end CpuScheduler.L6
