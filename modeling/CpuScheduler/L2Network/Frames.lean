import CpuScheduler.L2Network.Outgoing

/-!
# What an incoming frame does

The header fields of a received frame, as functions of its bytes, and the
case distinction of `handleIncomingEthernetPacket` in terms of them:

* `IsIPv4For`: the frame goes through all checks of
  `incomingIPv4PacketHelper`; a buffer is taken and `packetOf` is filed in it
  (`incoming_of_isIPv4For`);
* `IsARPReply`: the ARP table may change;
* any other frame changes nothing (`incoming_of_other`).
-/
namespace CpuScheduler.L2

open Word NetworkStackHandler

variable {n h l : Nat}

section Fields
variable (data : Nat → UInt8)

def etherType : Nat := be16 (data 12) (data 13)

def ipVersion : UInt8 := (data 14 &&& 0xF0) >>> 4

/-- The IHL field, in 32-bit words. -/
def ipHeaderLength : Nat := (data 14 &&& 0xF).toNat

def ipTotalLength : Nat := be16 (data 16) (data 17)

def ipSource : UInt32 := be32 (data 26) (data 27) (data 28) (data 29)

def ipDest : UInt32 := be32 (data 30) (data 31) (data 32) (data 33)

def ipProtocol : UInt8 := data 23

def ipIdentification : Nat := be16 (data 18) (data 19)

def ipMoreFragments : Bool := decide (data 20 &&& 0x20 > 0)

/-- The fragment offset, in bytes. -/
def ipFragmentOffset : Nat := 8 * be16 (data 20 &&& 0x1F) (data 21)

def ipDataSize : Nat := ipTotalLength data - ipHeaderLength data * 4

def arpProtocol : Nat := be16 (data 16) (data 17)

def arpOperation : Nat := be16 (data 20) (data 21)

def arpSender : UInt32 := be32 (data 28) (data 29) (data 30) (data 31)

def arpTarget : UInt32 := be32 (data 38) (data 39) (data 40) (data 41)

/-- The packet made of a frame at time `t`, in a buffer that held `old`. -/
def packetOf (t : Int) (old : IPv4Packet) : IPv4Packet where
  sourceIP := ipSource data
  destIP := ipDest data
  dataSize := ipDataSize data
  protocol := ipProtocol data
  moreFragments := ipMoreFragments data
  fragmentOffset := ipFragmentOffset data
  identification := ipIdentification data
  createdTime := asUInt t
  data := fun i => if i < ipDataSize data then data (14 + ipHeaderLength data * 4 + i)
    else old.data i

/-- An IPv4 packet for the address `ip` or for everyone, whole in the frame. -/
structure IsIPv4For (ip : UInt32) (dataLen : Nat) : Prop where
  type : etherType data = 0x0800
  length : 34 ≤ dataLen
  version : ipVersion data = 4
  header : 5 ≤ ipHeaderLength data
  dest : ipDest data = ip ∨ ipDest data = 0xFFFFFFFF
  lower : ipHeaderLength data * 4 ≤ ipTotalLength data
  upper : ipTotalLength data + 14 ≤ dataLen

instance (ip : UInt32) (dataLen : Nat) : Decidable (IsIPv4For data ip dataLen) :=
  decidable_of_iff (etherType data = 0x0800 ∧ 34 ≤ dataLen ∧ ipVersion data = 4 ∧
      5 ≤ ipHeaderLength data ∧ (ipDest data = ip ∨ ipDest data = 0xFFFFFFFF) ∧
      ipHeaderLength data * 4 ≤ ipTotalLength data ∧ ipTotalLength data + 14 ≤ dataLen)
    ⟨fun ⟨h1, h2, h3, h4, h5, h6, h7⟩ => ⟨h1, h2, h3, h4, h5, h6, h7⟩,
      fun ⟨h1, h2, h3, h4, h5, h6, h7⟩ => ⟨h1, h2, h3, h4, h5, h6, h7⟩⟩

/-- An ARP reply for IPv4. -/
structure IsARPReply (dataLen : Nat) : Prop where
  type : etherType data = 0x0806
  length : 42 ≤ dataLen
  protocol : arpProtocol data = 0x0800
  operation : arpOperation data = 2

end Fields

/-! ## The result of a frame -/

section Result
variable (s : NetworkStackHandler n h l) (data : Nat → UInt8) (dataLen : Nat)

@[simp] theorem val_byteAt (i : Nat) : (byteAt data i).val = data i := by
  simp [byteAt]

@[simp] theorem val_macAt (i : Nat) : (macAt data i).val = fun j : Fin 6 => data (i + j) := by
  simp [macAt]

/-- Take a buffer and file the packet of the frame in it. -/
def acceptFrame : Option (PacketType × NetworkStackHandler n h l) :=
  match s.takeUnusedPacket with
  | none => none
  | some (none, s) => some (.ipv4Packet, s)
  | some (some e, s) =>
    (s.storePacket e (packetOf data s.timerCounter (s.value e))).map (.ipv4Packet, ·)

/-- The checks of `incomingIPv4PacketHelper`, in the order of the source. -/
theorem val_incomingIPv4PacketHelper : (s.incomingIPv4PacketHelper data dataLen).val =
    if dataLen < 34 then some (.unknownType, s)
    else if ipVersion data ≠ 4 ∨ ipHeaderLength data < 5 then some (.unknownType, s)
    else if ipDest data ≠ s.myIP ∧ ipDest data ≠ 0xFFFFFFFF then some (.notForThisMachine, s)
    else if ipTotalLength data < ipHeaderLength data * 4 ∨ ipTotalLength data + 14 > dataLen then
      some (.unknownType, s)
    else acceptFrame s data := by
  unfold incomingIPv4PacketHelper
  simp only [Traced.val_ite, Traced.val_pure, Traced.val_bind, val_byteAt]
  refine if_congr Iff.rfl rfl (if_congr Iff.rfl rfl (if_congr Iff.rfl rfl (if_congr Iff.rfl rfl ?_)))
  unfold acceptFrame
  cases s.takeUnusedPacket with
  | none => rfl
  | some r =>
    obtain ⟨o, s⟩ := r
    cases o <;> rfl

/-- The entry of the sender of an ARP reply, if there is one, is updated. -/
def learnARP [NeZero h] : NetworkStackHandler n h l :=
  match s.findARPEntry (arpSender data) with
  | none => s
  | some i => s.setARPEntry (bucket (arpSender data)) i
      { s.arpEntries (bucket (arpSender data)) i with
        MAC := fun j => data (22 + j), lastAnswered := s.timerCounter }

theorem val_incomingARPPacketHelper [NeZero h] : (s.incomingARPPacketHelper data dataLen).val =
    if dataLen < 42 then (.unknownType, s)
    else if arpProtocol data = 0x0800 then
      if arpOperation data = 2 then (.arpReply, learnARP s data)
      else if arpOperation data = 1 then
        if arpTarget data ≠ s.myIP then (.notForThisMachine, s) else (.arpRequest, s)
      else (.unknownType, s)
    else (.unknownType, s) := by
  unfold incomingARPPacketHelper
  simp only [Traced.val_ite, Traced.val_pure, Traced.val_bind, val_byteAt]
  refine if_congr Iff.rfl rfl (if_congr Iff.rfl (if_congr Iff.rfl ?_ rfl) rfl)
  unfold learnARP
  change Traced.val (match s.findARPEntry (arpSender data) with | none => _ | some i => _) = _
  cases s.findARPEntry (arpSender data) <;> rfl

theorem val_handleIncomingEthernetPacket [NeZero h] :
    (s.handleIncomingEthernetPacket data dataLen).val =
      if etherType data = 0x0806 then some (s.incomingARPPacketHelper data dataLen).val
      else if etherType data = 0x0800 then (s.incomingIPv4PacketHelper data dataLen).val
      else some (.unknownType, s) := by
  unfold handleIncomingEthernetPacket
  simp only [Traced.val_ite, Traced.val_pure, Traced.val_bind, val_byteAt]
  rfl

theorem handleIncoming_of_isIPv4For [NeZero h] (hf : IsIPv4For data s.myIP dataLen) :
    (s.handleIncomingEthernetPacket data dataLen).val = acceptFrame s data := by
  have hd : ¬ (ipDest data ≠ s.myIP ∧ ipDest data ≠ 0xFFFFFFFF) := by
    have := hf.dest; tauto
  have h1 := hf.length
  have h2 := hf.header
  have h3 := hf.lower
  have h4 := hf.upper
  rw [val_handleIncomingEthernetPacket, if_neg (by rw [hf.type]; decide), if_pos hf.type,
    val_incomingIPv4PacketHelper, if_neg (by omega),
    if_neg (by rw [not_or]; exact ⟨not_not.mpr hf.version, by omega⟩), if_neg hd,
    if_neg (by omega)]

theorem handleIncoming_of_isARPReply [NeZero h] (hf : IsARPReply data dataLen) :
    (s.handleIncomingEthernetPacket data dataLen).val = some (.arpReply, learnARP s data) := by
  have h1 := hf.length
  rw [val_handleIncomingEthernetPacket, if_pos hf.type, val_incomingARPPacketHelper,
    if_neg (by omega), if_pos hf.protocol, if_pos hf.operation]

/-- Every other frame leaves the handler as it is. -/
theorem handleIncoming_of_other [NeZero h] (h1 : ¬ IsIPv4For data s.myIP dataLen)
    (h2 : ¬ IsARPReply data dataLen) :
    ∃ t, (s.handleIncomingEthernetPacket data dataLen).val = some (t, s) := by
  rw [val_handleIncomingEthernetPacket]
  split
  · rename_i ht
    rw [val_incomingARPPacketHelper]
    split
    · exact ⟨_, rfl⟩
    · rename_i hlen
      split
      · rename_i hp
        split
        · rename_i ho
          exact absurd ⟨ht, by omega, hp, ho⟩ h2
        · split
          · split <;> exact ⟨_, rfl⟩
          · exact ⟨_, rfl⟩
      · exact ⟨_, rfl⟩
  · split
    · rename_i ht
      rw [val_incomingIPv4PacketHelper]
      split
      · exact ⟨_, rfl⟩
      · rename_i hlen
        split
        · exact ⟨_, rfl⟩
        · rename_i hv
          split
          · exact ⟨_, rfl⟩
          · rename_i hd
            split
            · exact ⟨_, rfl⟩
            · rename_i hb
              rw [not_or, not_not] at hv
              refine absurd ⟨ht, by omega, hv.1, by omega, ?_, by omega, by omega⟩ h1
              tauto
    · exact ⟨_, rfl⟩

end Result

end CpuScheduler.L2
