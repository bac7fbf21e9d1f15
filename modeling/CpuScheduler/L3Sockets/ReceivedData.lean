import CpuScheduler.L3Sockets.Ownership

/-!
# What a delivered datagram leaves in the receive buffer

`view mem base` are the bytes of memory from `base` on, indexed by their
distance; distances below 2^32 are different addresses, wherever `base` is.
`deliver_cases` says which datagrams the socket manager takes, and what it
writes: the header, the data of all fragments, and the zeros of the header
that comes next.
-/
namespace CpuScheduler.L3

open Links Word L2 SocketManager

/-- The byte at distance `k` from `base`. -/
def view (mem : Mem) (base : UInt32) (k : Nat) : UInt8 := mem (base + UInt32.ofNat k)

theorem view_writeBytes {mem : Mem} {base : UInt32} {bytes : Nat → UInt8} {start numBytes k : Nat}
    (hend : start + numBytes ≤ 2 ^ 32) (hk : k < 2 ^ 32) :
    view (writeBytes mem (base + UInt32.ofNat start) bytes numBytes) base k =
      if start ≤ k ∧ k < start + numBytes then bytes (k - start) else view mem base k := by
  have hdist : (base + UInt32.ofNat k - (base + UInt32.ofNat start)).toNat = (2 ^ 32 - start % 2 ^ 32 + k) % 2 ^ 32 := by
    rw [add_sub_add_left_eq_sub, UInt32.toNat_sub, UInt32.toNat_ofNat', UInt32.toNat_ofNat', Nat.mod_eq_of_lt hk]
  unfold view writeBytes
  rw [hdist]
  by_cases h : start ≤ k ∧ k < start + numBytes
  · have hk' : (2 ^ 32 - start % 2 ^ 32 + k) % 2 ^ 32 = k - start := by omega
    rw [hk', if_pos h, if_pos (by omega)]
  · rw [if_neg h, if_neg (by omega)]

/-! ## The data of a datagram -/

/-- The first `n` bytes of `data` behind `start`. -/
def slice (data : Nat → UInt8) (start n : Nat) : List UInt8 := (List.range n).map fun k => data (start + k)

@[simp] theorem length_slice (data : Nat → UInt8) (start n : Nat) : (slice data start n).length = n := by
  simp [slice]

theorem getD_slice {data : Nat → UInt8} {start n k : Nat} (h : k < n) : (slice data start n).getD k 0 = data (start + k) := by
  simp [slice, List.getD_eq_getElem?_getD, h]

/-- The data of the fragments behind the first packet. -/
def fragmentData (fragments : List IPv4Packet) : List UInt8 := fragments.flatMap fun p => slice p.data 0 p.dataSize

/-- The data of a datagram, without the UDP header. -/
def udpData (packet : IPv4Packet) (fragments : List IPv4Packet) : List UInt8 :=
  slice packet.data UDP_HEADER_SIZE (packet.dataSize - UDP_HEADER_SIZE) ++ fragmentData fragments

/-- The length field of the UDP header. -/
def udpLength (packet : IPv4Packet) : Nat := be16 (packet.data 4) (packet.data 5)

theorem udpLength_lt (packet : IPv4Packet) : udpLength packet < 65536 := be16_lt _ _

/-- Sizes of packets are 16-bit. -/
def Sized (packets : List IPv4Packet) : Prop := ∀ p ∈ packets, p.dataSize < 2 ^ 16

/-! ## The copy loop -/

section
variable {receiveBuffer base : UInt32} {position length : Nat}

theorem copyLoop_fragments (hrb : receiveBuffer = base + UInt32.ofNat position) (hfits : position + length ≤ 2 ^ 32)
    (hlength : length < 2 ^ 16) {packets : List IPv4Packet} (hsized : Sized packets) {accumulated : Nat}
    (hmin : UDP_HEADER_SIZE ≤ accumulated) (hmax : accumulated ≤ length) (mem : Mem) :
    match copyLoop receiveBuffer length false accumulated mem packets with
    | (some total, mem') => total = accumulated + (fragmentData packets).length ∧ total ≤ length ∧
        ∀ k < 2 ^ 32, view mem' base k =
          if position + accumulated ≤ k ∧ k < position + total then
            (fragmentData packets).getD (k - (position + accumulated)) 0 else view mem base k
    | (none, mem') => length < accumulated + (fragmentData packets).length ∧
        ∀ k < 2 ^ 32, k < position + accumulated ∨ position + length ≤ k → view mem' base k = view mem base k := by
  induction packets generalizing accumulated mem with
  | nil =>
    refine ⟨by simp [fragmentData], hmax, fun k hk => ?_⟩
    rw [if_neg (by omega)]
  | cons p ps ih =>
    have hp : p.dataSize < 2 ^ 16 := hsized p (by simp)
    have hps : Sized ps := fun q hq => hsized q (by simp [hq])
    have hdata : fragmentData (p :: ps) = slice p.data 0 p.dataSize ++ fragmentData ps := rfl
    have hlen : (fragmentData (p :: ps)).length = p.dataSize + (fragmentData ps).length := by
      rw [hdata, List.length_append, length_slice]
    rw [copyLoop]
    by_cases hbig : (accumulated + p.dataSize) % 2 ^ 32 > length
    · rw [if_pos hbig]
      exact ⟨by omega, fun k _ _ => rfl⟩
    · have hnext : (accumulated + p.dataSize) % 2 ^ 16 = accumulated + p.dataSize := by omega
      have hstart : receiveBuffer + UInt32.ofNat RECEIVE_BUFFER_HEADER_SIZE +
          UInt32.ofNat (accumulated - UDP_HEADER_SIZE) = base + UInt32.ofNat (position + accumulated) := by
        rw [hrb, add_assoc, add_assoc, ← UInt32.ofNat_add, ← UInt32.ofNat_add]
        congr 2
        unfold RECEIVE_BUFFER_HEADER_SIZE
        unfold UDP_HEADER_SIZE at hmin ⊢
        omega
      rw [if_neg hbig]
      simp only [Bool.false_eq_true, if_false]
      rw [hstart, hnext]
      -- the bytes of this fragment, then those of the others
      have hwrite {k : Nat} (hk : k < 2 ^ 32) :
          view (writeBytes mem (base + UInt32.ofNat (position + accumulated)) p.data p.dataSize) base k = _ :=
        view_writeBytes (by omega) hk
      have hmin' : UDP_HEADER_SIZE ≤ accumulated + p.dataSize := by omega
      have hrest := ih hps hmin' (by omega)
        (writeBytes mem (base + UInt32.ofNat (position + accumulated)) p.data p.dataSize)
      cases hloop : copyLoop receiveBuffer length false (accumulated + p.dataSize)
        (writeBytes mem (base + UInt32.ofNat (position + accumulated)) p.data p.dataSize) ps with
      | mk r mem' =>
        rw [hloop] at hrest
        cases r with
        | none =>
          obtain ⟨hshort, hframe⟩ := hrest
          refine ⟨by omega, fun k hk hout => ?_⟩
          rw [hframe k hk (by omega), hwrite hk, if_neg (by omega)]
        | some total =>
          obtain ⟨htotal, hle, hbytes⟩ := hrest
          refine ⟨by omega, hle, fun k hk => ?_⟩
          rw [hbytes k hk, hwrite hk, hdata]
          by_cases hlater : position + (accumulated + p.dataSize) ≤ k ∧ k < position + total
          · have hpast : k - (position + accumulated) - p.dataSize = k - (position + (accumulated + p.dataSize)) := by omega
            rw [if_pos hlater, if_pos (by omega), List.getD_append_right _ _ _ _ (by rw [length_slice]; omega),
              length_slice, hpast]
          · rw [if_neg hlater]
            by_cases hhere : position + accumulated ≤ k ∧ k < position + accumulated + p.dataSize
            · rw [if_pos hhere, if_pos (by omega), List.getD_append _ _ _ _ (by rw [length_slice]; omega),
                getD_slice (by omega), Nat.zero_add]
            · rw [if_neg hhere, if_neg (by omega)]

theorem copyLoop_datagram (hrb : receiveBuffer = base + UInt32.ofNat position) (hfits : position + length ≤ 2 ^ 32)
    (hlength : length < 2 ^ 16) {packet : IPv4Packet} {fragments : List IPv4Packet}
    (hsized : Sized (packet :: fragments)) (hmin : UDP_HEADER_SIZE ≤ packet.dataSize) (mem : Mem) :
    match copyLoop receiveBuffer length true 0 mem (packet :: fragments) with
    | (some total, mem') => total = UDP_HEADER_SIZE + (udpData packet fragments).length ∧ total ≤ length ∧
        ∀ k < 2 ^ 32, view mem' base k =
          if position + UDP_HEADER_SIZE ≤ k ∧ k < position + total then
            (udpData packet fragments).getD (k - (position + UDP_HEADER_SIZE)) 0 else view mem base k
    | (none, mem') => length < UDP_HEADER_SIZE + (udpData packet fragments).length ∧
        ∀ k < 2 ^ 32, k < position + UDP_HEADER_SIZE ∨ position + length ≤ k →
          view mem' base k = view mem base k := by
  have hp : packet.dataSize < 2 ^ 16 := hsized packet (by simp)
  have hps : Sized fragments := fun q hq => hsized q (by simp [hq])
  have hlen : (udpData packet fragments).length = packet.dataSize - UDP_HEADER_SIZE + (fragmentData fragments).length := by
    rw [udpData, List.length_append, length_slice]
  rw [copyLoop, Nat.zero_add]
  by_cases hbig : packet.dataSize % 2 ^ 32 > length
  · rw [if_pos hbig]
    exact ⟨by omega, fun k _ _ => rfl⟩
  · have hnext : packet.dataSize % 2 ^ 16 = packet.dataSize := Nat.mod_eq_of_lt hp
    have hstart : receiveBuffer + UInt32.ofNat RECEIVE_BUFFER_HEADER_SIZE =
        base + UInt32.ofNat (position + UDP_HEADER_SIZE) := by
      rw [hrb, add_assoc, ← UInt32.ofNat_add]
      rfl
    rw [if_neg hbig]
    simp only [if_true]
    rw [hstart, hnext]
    have hwrite {k : Nat} (hk : k < 2 ^ 32) :
        view (writeBytes mem (base + UInt32.ofNat (position + UDP_HEADER_SIZE))
          (fun k => packet.data (UDP_HEADER_SIZE + k)) (packet.dataSize - UDP_HEADER_SIZE)) base k = _ :=
      view_writeBytes (by omega) hk
    have hrest := copyLoop_fragments hrb hfits hlength hps hmin (by omega)
      (writeBytes mem (base + UInt32.ofNat (position + UDP_HEADER_SIZE))
        (fun k => packet.data (UDP_HEADER_SIZE + k)) (packet.dataSize - UDP_HEADER_SIZE))
    cases hloop : copyLoop receiveBuffer length false packet.dataSize
      (writeBytes mem (base + UInt32.ofNat (position + UDP_HEADER_SIZE))
        (fun k => packet.data (UDP_HEADER_SIZE + k)) (packet.dataSize - UDP_HEADER_SIZE)) fragments with
    | mk r mem' =>
      rw [hloop] at hrest
      cases r with
      | none =>
        obtain ⟨hshort, hframe⟩ := hrest
        refine ⟨by omega, fun k hk hout => ?_⟩
        rw [hframe k hk (by omega), hwrite hk, if_neg (by omega)]
      | some total =>
        obtain ⟨htotal, hle, hbytes⟩ := hrest
        refine ⟨by omega, hle, fun k hk => ?_⟩
        rw [hbytes k hk, hwrite hk, udpData]
        by_cases hlater : position + packet.dataSize ≤ k ∧ k < position + total
        · have hpast : k - (position + UDP_HEADER_SIZE) - (packet.dataSize - UDP_HEADER_SIZE) =
              k - (position + packet.dataSize) := by omega
          rw [if_pos hlater, if_pos (by omega), List.getD_append_right _ _ _ _ (by rw [length_slice]; omega),
            length_slice, hpast]
        · rw [if_neg hlater]
          by_cases hhere : position + UDP_HEADER_SIZE ≤ k ∧
              k < position + UDP_HEADER_SIZE + (packet.dataSize - UDP_HEADER_SIZE)
          · rw [if_pos hhere, if_pos (by omega), List.getD_append _ _ _ _ (by rw [length_slice]; omega),
              getD_slice (by omega)]
          · rw [if_neg hhere, if_neg (by omega)]

end

/-! ## Delivery -/

section
variable {T : Nat} {s : SocketManager T} {mem : Mem} {t : Fin T} {i : SocketID} {packet : IPv4Packet}
  {fragments : List IPv4Packet} {base : UInt32} {position size : Nat}

/-- The datagram is dropped: at most bytes behind the next header change. -/
structure Dropped (s : SocketManager T) (mem : Mem) (base : UInt32) (position size : Nat)
    (r : SocketManager T × Mem) : Prop where
  manager : r.1 = s
  frame : ∀ k < 2 ^ 32, k < position + RECEIVE_BUFFER_HEADER_SIZE ∨ position + size ≤ k →
    view r.2 base k = view mem base k

/-- The datagram is in the buffer at `position`, and the next header behind it
is cleared. -/
structure Taken (s : SocketManager T) (mem : Mem) (t : Fin T) (i : SocketID) (packet : IPv4Packet)
    (fragments : List IPv4Packet) (base : UInt32) (position size : Nat) (r : SocketManager T × Mem) : Prop where
  fits : (udpData packet fragments).length + 2 * RECEIVE_BUFFER_HEADER_SIZE ≤ size
  manager : ∃ d, r.1 = s.setDesc t i d ∧ d.isActive = (s.socketDescs t i).isActive ∧
    d.udpPort = (s.socketDescs t i).udpPort ∧
    d.receiveBuffer = base + UInt32.ofNat (position + (RECEIVE_BUFFER_HEADER_SIZE + (udpData packet fragments).length)) ∧
    d.receiveBufferSize.toNat = size - (RECEIVE_BUFFER_HEADER_SIZE + (udpData packet fragments).length)
  header : ∀ k < RECEIVE_BUFFER_HEADER_SIZE, view r.2 base (position + k) =
    (receiveHeader packet (UDP_HEADER_SIZE + (udpData packet fragments).length)).getD k 0
  data : ∀ k < (udpData packet fragments).length, view r.2 base (position + RECEIVE_BUFFER_HEADER_SIZE + k) =
    (udpData packet fragments).getD k 0
  zeros : ∀ k < RECEIVE_BUFFER_HEADER_SIZE,
    view r.2 base (position + RECEIVE_BUFFER_HEADER_SIZE + (udpData packet fragments).length + k) = 0
  frame : ∀ k < 2 ^ 32, k < position ∨ position + size ≤ k → view r.2 base k = view mem base k

/-- A datagram is taken if its length is right and it fits. -/
def Acceptable (packet : IPv4Packet) (fragments : List IPv4Packet) (size : Nat) : Prop :=
  udpLength packet = UDP_HEADER_SIZE + (udpData packet fragments).length ∧
    (udpData packet fragments).length + 2 * RECEIVE_BUFFER_HEADER_SIZE ≤ size

/-- The writes behind the copy loop: the header and the zeros. -/
theorem view_headers (mem : Mem) (base : UInt32) (packet : IPv4Packet) {n : Nat}
    (hend : position + (8 + n + 8) ≤ 2 ^ 32) {k : Nat} (hk : k < 2 ^ 32) :
    view (writeBytes (writeBytes mem (base + UInt32.ofNat position)
        (fun k => (receiveHeader packet (UDP_HEADER_SIZE + n)).getD k 0) RECEIVE_BUFFER_HEADER_SIZE)
      (base + UInt32.ofNat (position + (RECEIVE_BUFFER_HEADER_SIZE + n))) (fun _ => 0) RECEIVE_BUFFER_HEADER_SIZE)
      base k =
    if position + (8 + n) ≤ k ∧ k < position + (8 + n) + 8 then 0
    else if position ≤ k ∧ k < position + 8 then (receiveHeader packet (UDP_HEADER_SIZE + n)).getD (k - position) 0
    else view mem base k := by
  unfold RECEIVE_BUFFER_HEADER_SIZE
  rw [view_writeBytes (by omega) hk, view_writeBytes (by omega) hk]

theorem taken_of_copied {mem mem' : Mem} {n : Nat} (hn : n = (udpData packet fragments).length)
    (hrb : (s.socketDescs t i).receiveBuffer = base + UInt32.ofNat position)
    (hsize : (s.socketDescs t i).receiveBufferSize.toNat = size) (hend : position + size ≤ 2 ^ 32)
    (hfits : n + 16 ≤ size)
    (hcopied : ∀ k < 2 ^ 32, view mem' base k =
      if position + UDP_HEADER_SIZE ≤ k ∧ k < position + (UDP_HEADER_SIZE + n) then
        (udpData packet fragments).getD (k - (position + UDP_HEADER_SIZE)) 0 else view mem base k) :
    Taken s mem t i packet fragments base position size
      (s.setDesc t i { s.socketDescs t i with
        receiveBuffer := (s.socketDescs t i).receiveBuffer + UInt32.ofNat (RECEIVE_BUFFER_HEADER_SIZE + n)
        receiveBufferSize := (s.socketDescs t i).receiveBufferSize - UInt32.ofNat (RECEIVE_BUFFER_HEADER_SIZE + n) },
      writeBytes (writeBytes mem' (s.socketDescs t i).receiveBuffer
        (fun k => (receiveHeader packet (UDP_HEADER_SIZE + n)).getD k 0) RECEIVE_BUFFER_HEADER_SIZE)
        ((s.socketDescs t i).receiveBuffer + UInt32.ofNat (RECEIVE_BUFFER_HEADER_SIZE + n)) (fun _ => 0)
        RECEIVE_BUFFER_HEADER_SIZE) := by
  have hadd : (s.socketDescs t i).receiveBuffer + UInt32.ofNat (RECEIVE_BUFFER_HEADER_SIZE + n) =
      base + UInt32.ofNat (position + (RECEIVE_BUFFER_HEADER_SIZE + n)) := by
    rw [hrb, add_assoc, ← UInt32.ofNat_add]
  have hlt := (s.socketDescs t i).receiveBufferSize.toNat_lt
  subst hn
  rw [hadd, hrb]
  have hlast : position + (8 + (udpData packet fragments).length + 8) ≤ 2 ^ 32 := by omega
  have hview {k : Nat} (hk : k < 2 ^ 32) := view_headers mem' base packet hlast hk
  refine ⟨hfits, ⟨_, rfl, rfl, rfl, rfl, ?_⟩, fun k hk => ?_, fun k hk => ?_, fun k hk => ?_, fun k hk hout => ?_⟩
  · have hused : (UInt32.ofNat (RECEIVE_BUFFER_HEADER_SIZE + (udpData packet fragments).length)).toNat =
        RECEIVE_BUFFER_HEADER_SIZE + (udpData packet fragments).length := by
      rw [UInt32.toNat_ofNat', RECEIVE_BUFFER_HEADER_SIZE]
      omega
    rw [UInt32.toNat_sub_of_le, hused, hsize]
    rw [UInt32.le_iff_toNat_le, hused, hsize, RECEIVE_BUFFER_HEADER_SIZE]
    omega
  · unfold RECEIVE_BUFFER_HEADER_SIZE at hk
    rw [hview (by omega), if_neg (by omega), if_pos (by omega), Nat.add_sub_cancel_left]
  · have hpast : position + RECEIVE_BUFFER_HEADER_SIZE + k - (position + UDP_HEADER_SIZE) = k := by
      unfold RECEIVE_BUFFER_HEADER_SIZE UDP_HEADER_SIZE
      omega
    have hlt' : position + RECEIVE_BUFFER_HEADER_SIZE + k < 2 ^ 32 := by
      unfold RECEIVE_BUFFER_HEADER_SIZE
      omega
    have hin : position + UDP_HEADER_SIZE ≤ position + RECEIVE_BUFFER_HEADER_SIZE + k ∧
        position + RECEIVE_BUFFER_HEADER_SIZE + k < position + (UDP_HEADER_SIZE + (udpData packet fragments).length) := by
      unfold RECEIVE_BUFFER_HEADER_SIZE UDP_HEADER_SIZE
      omega
    rw [hview hlt', if_neg (by unfold RECEIVE_BUFFER_HEADER_SIZE; omega),
      if_neg (by unfold RECEIVE_BUFFER_HEADER_SIZE; omega), hcopied _ hlt', if_pos hin, hpast]
  · unfold RECEIVE_BUFFER_HEADER_SIZE at hk
    rw [hview (by unfold RECEIVE_BUFFER_HEADER_SIZE; omega), if_pos (by unfold RECEIVE_BUFFER_HEADER_SIZE; omega)]
  · have hout' : ¬ (position + UDP_HEADER_SIZE ≤ k ∧
        k < position + (UDP_HEADER_SIZE + (udpData packet fragments).length)) := by
      unfold UDP_HEADER_SIZE
      omega
    rw [hview hk, if_neg (by omega), if_neg (by omega), hcopied k hk, if_neg hout']

theorem deliver_cases (mem : Mem) (hrb : (s.socketDescs t i).receiveBuffer = base + UInt32.ofNat position)
    (hsize : (s.socketDescs t i).receiveBufferSize.toNat = size) (hend : position + size ≤ 2 ^ 32)
    (hsized : Sized (packet :: fragments)) (hmin : UDP_HEADER_SIZE ≤ packet.dataSize) :
    (Acceptable packet fragments size ∧
      Taken s mem t i packet fragments base position size (s.deliver mem t i packet fragments)) ∨
    (¬ Acceptable packet fragments size ∧ Dropped s mem base position size (s.deliver mem t i packet fragments)) := by
  have hlt := udpLength_lt packet
  unfold deliver Acceptable
  dsimp only
  rw [← udpLength, hsize]
  unfold RECEIVE_BUFFER_HEADER_SIZE
  by_cases hroom : (udpLength packet : Int) - UDP_HEADER_SIZE + 2 * (8 : Nat) > size
  · rw [if_pos hroom]
    unfold UDP_HEADER_SIZE at hroom ⊢
    exact .inr ⟨by omega, rfl, fun _ _ _ => rfl⟩
  · rw [if_neg hroom]
    unfold UDP_HEADER_SIZE at hroom
    have hin : position + udpLength packet ≤ 2 ^ 32 := by omega
    have hcopy := copyLoop_datagram hrb hin hlt hsized hmin mem
    cases hloop : copyLoop (s.socketDescs t i).receiveBuffer (udpLength packet) true 0 mem (packet :: fragments) with
    | mk r mem' =>
      rw [hloop] at hcopy
      cases r with
      | none =>
        obtain ⟨hshort, hframe⟩ := hcopy
        refine .inr ⟨by omega, rfl, fun k hk hout => hframe k hk ?_⟩
        unfold UDP_HEADER_SIZE
        unfold RECEIVE_BUFFER_HEADER_SIZE at hout
        omega
      | some total =>
        obtain ⟨htotal, hle, hbytes⟩ := hcopy
        dsimp only
        by_cases hwhole : total = udpLength packet
        · left
          have hlen : udpLength packet - UDP_HEADER_SIZE = (udpData packet fragments).length := by omega
          have hudp : udpLength packet = UDP_HEADER_SIZE + (udpData packet fragments).length := by omega
          have hfits : (udpData packet fragments).length + 16 ≤ size := by
            unfold UDP_HEADER_SIZE at hudp
            omega
          rw [if_neg (by simpa using hwhole), hlen, hudp]
          rw [hwhole, hudp] at hbytes
          exact ⟨⟨rfl, hfits⟩, taken_of_copied rfl hrb hsize hend hfits hbytes⟩
        · rw [if_pos (by simpa using hwhole)]
          refine .inr ⟨by omega, rfl, fun k hk hout => ?_⟩
          rw [hbytes k hk, if_neg]
          unfold UDP_HEADER_SIZE
          unfold RECEIVE_BUFFER_HEADER_SIZE at hout
          omega

/-- The state of a bound port. -/
theorem portState_of_bound {udpPort : UInt16} (hb : s.boundSocket udpPort = some (some (t, i)))
    (behind : Nat → UDPPortState) : (s.portState behind udpPort.toNat).val.isActive ≠ 0 ∧
      descIndex T (s.portState behind udpPort.toNat).val.taskID (s.portState behind udpPort.toNat).val.socketID =
        some (t, i) := by
  unfold boundSocket at hb
  split at hb
  · rename_i hlt
    have hstate : (s.portState behind udpPort.toNat).val = s.udpPortStates ⟨udpPort.toNat, hlt⟩ := by
      simp [portState, hlt]
    dsimp only at hb
    rw [hstate]
    split at hb
    · cases hb
    · rename_i hact
      obtain ⟨ti, hindex, hti⟩ := Option.map_eq_some_iff.mp hb
      cases hti
      exact ⟨hact, hindex⟩
  · cases hb

/-- A datagram for a bound port goes to the socket. -/
theorem handleReceivedPacket_bound {udpPort : UInt16} (hb : s.boundSocket udpPort = some (some (t, i))) (mem : Mem)
    (behind : Nat → UDPPortState) (fragments : List IPv4Packet) (hport : destinationPort packet = udpPort.toNat)
    (hp : packet.protocol = 17) (hmin : UDP_HEADER_SIZE ≤ packet.dataSize) :
    (s.handleReceivedPacket mem behind packet fragments).val = some (s.deliver mem t i packet fragments) := by
  obtain ⟨hact, hindex⟩ := portState_of_bound hb behind
  rw [← hport] at hact hindex
  unfold handleReceivedPacket
  rw [if_neg (by simpa using hp), if_neg (Nat.not_lt.mpr hmin)]
  dsimp only
  rw [← destinationPort]
  simp only [Traced.val_bind, Traced.val_ite, Traced.val_pure]
  rw [if_neg hact, hindex]
  rfl

end

end CpuScheduler.L3
