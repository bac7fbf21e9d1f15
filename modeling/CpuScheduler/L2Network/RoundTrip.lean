import CpuScheduler.L2Network.Reordering

/-!
# Sending and receiving a datagram

The calls of `handleOutgoingIPv4Packet` for one payload (`sendLoop`), the
frames they emit, and what a receiver makes of them.

A payload of `L` bytes is `L / 1480 + 1` fragments by the sender's own rule
for the more-fragments flag (`fragmentPacket`): the last one holds the
`L % 1480` bytes that are left. If 1480 divides `L` that last fragment is
empty and is never sent, because the call for it returns `Done` with 0 bytes
(`fragmentOffset ≥ dataLen`): every frame on the wire announces more
fragments, and the receiver waits in vain. `roundTrip_iff` is both halves:
the receiver gets the datagram if and only if 1480 does not divide `L`.
-/
namespace CpuScheduler.L2

open Links Word NetworkStackHandler

variable {n h l n' h' l' : Nat}

/-! ## Header bytes -/

theorem highByte_bits (x : Nat) (hx : x < 64) :
    decide (UInt8.ofNat x &&& 0x20 > 0) = decide (32 ≤ x) ∧ (UInt8.ofNat x &&& 0x1F).toNat = x % 32 := by
  revert x
  decide

/-- The flag and the offset read back from the two bytes they are written
to. -/
theorem flags_decode {o v : Nat} {last : Bool} (h8 : o % 8 = 0) (ho : o < 65536)
    (hv : v = ((if last then 0 else 0x2000) ||| (o >>> 3)) % 65536) :
    decide (UInt8.ofNat (v >>> 8) &&& 0x20 > 0) = !last ∧
      8 * be16 (UInt8.ofNat (v >>> 8) &&& 0x1F) (UInt8.ofNat (v &&& 0xFF)) = o := by
  have ho8 : o >>> 3 = o / 8 := Nat.shiftRight_eq_div_pow o 3
  have hval : v = (if last then 0 else 8192) + o / 8 := by
    rw [hv, ho8]
    cases last with
    | true => simp; omega
    | false =>
      have := Nat.two_pow_add_eq_or_of_lt (i := 13) (b := o / 8) (by omega) 1
      simp only [Bool.false_eq_true, if_false]
      rw [show (0x2000 : Nat) = 2 ^ 13 * 1 by rfl, ← this]
      omega
  have hand : v &&& 0xFF = v % 256 := Nat.and_two_pow_sub_one_eq_mod v 8
  have hsh : v >>> 8 = v / 256 := Nat.shiftRight_eq_div_pow v 8
  have hlt : v / 256 < 64 := by cases last <;> simp at hval <;> omega
  obtain ⟨h1, h2⟩ := highByte_bits (v / 256) hlt
  rw [hsh, hand]
  refine ⟨?_, ?_⟩
  · rw [h1]
    cases last with
    | true => simp at hval ⊢; omega
    | false => simp at hval ⊢; omega
  · rw [be16_eq, h2, UInt8.toNat_ofNat']
    cases last <;> simp at hval <;> omega

/-- The header of a fragment behind the two Ethernet addresses. -/
def headerBytes (src dest : UInt32) (protocol : UInt8) (sent : UInt16) (offset size : Nat)
    (last : Bool) : List UInt8 :=
  [0x08, 0x00, 0x45, 0x00, UInt8.ofNat ((20 + size) >>> 8), UInt8.ofNat ((20 + size) &&& 0xFF),
    UInt8.ofNat (sent.toNat >>> 8), UInt8.ofNat (sent.toNat &&& 0xFF),
    UInt8.ofNat ((((if last then 0 else 0x2000) ||| (offset >>> 3)) % 65536) >>> 8),
    UInt8.ofNat ((((if last then 0 else 0x2000) ||| (offset >>> 3)) % 65536) &&& 0xFF),
    255, protocol, 0x00, 0x00] ++ ipBytes src ++ ipBytes dest

theorem fragmentHeader_drop (s : NetworkStackHandler n h l) (mac : Fin 6 → UInt8) (dest : UInt32)
    (protocol : UInt8) (sent : UInt16) (offset size : Nat) (last : Bool) :
    (s.fragmentHeader mac dest protocol sent offset size last).drop 12 =
      headerBytes s.myIP dest protocol sent offset size last := by
  simp only [fragmentHeader, List.append_assoc]
  rw [← List.append_assoc (List.ofFn mac), List.drop_left' (by simp)]
  rfl

/-- The bytes `w` are a fragment behind its Ethernet addresses. The two bytes
of the IPv4 checksum are left open: the code writes 0 and the card fills them
in. -/
structure Wire (src dest : UInt32) (protocol : UInt8) (sent : UInt16) (data : Nat → UInt8)
    (offset size : Nat) (last : Bool) (w : Nat → UInt8) : Prop where
  header : ∀ i, i < 22 → i ≠ 12 → i ≠ 13 →
    w (12 + i) = (headerBytes src dest protocol sent offset size last).getD i 0
  payload : ∀ i, i < size → w (34 + i) = data (offset + i)

section Wire
variable {src dest : UInt32} {protocol : UInt8} {sent : UInt16} {data : Nat → UInt8}
  {offset size : Nat} {last : Bool} {w : Nat → UInt8}

theorem Wire.versionByte (hw : Wire src dest protocol sent data offset size last w) :
    w 14 = 0x45 := hw.header 2 (by decide) (by decide) (by decide)

theorem Wire.ipHeaderLength (hw : Wire src dest protocol sent data offset size last w) :
    ipHeaderLength w = 5 := by
  rw [L2.ipHeaderLength, hw.versionByte]
  decide

theorem Wire.ipTotalLength (hw : Wire src dest protocol sent data offset size last w)
    (hsize : size ≤ 1480) : ipTotalLength w = 20 + size := by
  rw [L2.ipTotalLength, hw.header 4 (by decide) (by decide) (by decide),
    hw.header 5 (by decide) (by decide) (by decide)]
  exact be16_split (by omega)

theorem Wire.ipDataSize (hw : Wire src dest protocol sent data offset size last w)
    (hsize : size ≤ 1480) : ipDataSize w = size := by
  rw [L2.ipDataSize, hw.ipHeaderLength, hw.ipTotalLength hsize]
  omega

theorem Wire.ipSource (hw : Wire src dest protocol sent data offset size last w) :
    ipSource w = src := by
  rw [L2.ipSource, hw.header 14 (by decide) (by decide) (by decide),
    hw.header 15 (by decide) (by decide) (by decide),
    hw.header 16 (by decide) (by decide) (by decide),
    hw.header 17 (by decide) (by decide) (by decide)]
  exact be32_split src

theorem Wire.ipDest (hw : Wire src dest protocol sent data offset size last w) :
    ipDest w = dest := by
  rw [L2.ipDest, hw.header 18 (by decide) (by decide) (by decide),
    hw.header 19 (by decide) (by decide) (by decide),
    hw.header 20 (by decide) (by decide) (by decide),
    hw.header 21 (by decide) (by decide) (by decide)]
  exact be32_split dest

theorem Wire.ipProtocol (hw : Wire src dest protocol sent data offset size last w) :
    ipProtocol w = protocol := by
  rw [L2.ipProtocol, hw.header 11 (by decide) (by decide) (by decide)]
  rfl

theorem Wire.ipIdentification (hw : Wire src dest protocol sent data offset size last w) :
    ipIdentification w = sent.toNat := by
  rw [L2.ipIdentification, hw.header 6 (by decide) (by decide) (by decide),
    hw.header 7 (by decide) (by decide) (by decide)]
  exact be16_split sent.toNat_lt

theorem Wire.flags (hw : Wire src dest protocol sent data offset size last w)
    (h8 : offset % 8 = 0) (hoff : offset < 65536) :
    ipMoreFragments w = !last ∧ ipFragmentOffset w = offset := by
  rw [ipMoreFragments, ipFragmentOffset, hw.header 8 (by decide) (by decide) (by decide),
    hw.header 9 (by decide) (by decide) (by decide)]
  exact flags_decode h8 hoff rfl

theorem Wire.isIPv4For (hw : Wire src dest protocol sent data offset size last w)
    (hsize : size ≤ 1480) : IsIPv4For w dest (34 + size) := by
  have h1 := hw.ipHeaderLength
  have h2 := hw.ipTotalLength hsize
  refine ⟨?_, by omega, ?_, by omega, .inl hw.ipDest, by omega, by omega⟩
  · rw [etherType, hw.header 0 (by decide) (by decide) (by decide),
      hw.header 1 (by decide) (by decide) (by decide)]
    rfl
  · rw [ipVersion, hw.versionByte]
    decide

end Wire

/-! ## One call -/

/-- The ARP entry for the next hop is known. -/
def Resolved [NeZero h] (s : NetworkStackHandler n h l) (dest : UInt32) (buffer : Nat → UInt8) : Prop :=
  ∃ i s', s.resolve (s.nextHopIP dest) buffer = .known i s'

/-- Fragment `j` of a payload, by the sender's rule. -/
def fragmentPacket (src dest : UInt32) (protocol : UInt8) (data : Nat → UInt8) (L : Nat)
    (sent : UInt16) (j : Nat) : IPv4Packet where
  sourceIP := src
  destIP := dest
  dataSize := min 1480 (L - 1480 * j)
  protocol := protocol
  moreFragments := decide (1480 ≤ L - 1480 * j)
  fragmentOffset := 1480 * j
  identification := sent.toNat
  createdTime := 0
  data i := data (1480 * j + i)

/-- The frame `f` carries what the call `r` wrote, apart from the IPv4
checksum, which the card fills in. -/
structure Carries (f : RxFrame) (r : Outgoing) : Prop where
  len : f.dataLen = r.size
  data : ∀ i, i < r.size → i ≠ 24 → i ≠ 25 → f.data i = r.writeBuffer i

/-- A frame that carries `r` is accepted by `dest` and holds `p`. -/
def Emits (dest : UInt32) (p : IPv4Packet) (r : Outgoing) : Prop :=
  ∀ f, Carries f r → IsIPv4For f.data dest f.dataLen ∧ Holds p (framePacket f)

theorem Carries.wire {f : RxFrame} {r : Outgoing} (hc : Carries f r) {src dest : UInt32}
    {protocol : UInt8} {sent : UInt16} {data : Nat → UInt8} {offset size : Nat} {last : Bool}
    (hsize : r.size = 34 + size)
    (hw : Wire src dest protocol sent data offset size last r.writeBuffer) :
    Wire src dest protocol sent data offset size last f.data := by
  refine ⟨fun i hi h1 h2 => ?_, fun i hi => ?_⟩
  · rw [hc.data (12 + i) (by omega) (by omega) (by omega)]
    exact hw.header i hi h1 h2
  · rw [hc.data (34 + i) (by omega) (by omega) (by omega)]
    exact hw.payload i hi

theorem emits_of_wire {src dest : UInt32} {protocol : UInt8} {sent : UInt16} {data : Nat → UInt8}
    {L j : Nat} {r : Outgoing} (hj : 1480 * j < 65536)
    (hsize : r.size = 34 + min 1480 (L - 1480 * j))
    (hw : Wire src dest protocol sent data (1480 * j) (min 1480 (L - 1480 * j))
      (decide (L - 1480 * j < 1480)) r.writeBuffer) :
    Emits dest (fragmentPacket src dest protocol data L sent j) r := by
  intro f hc
  have hwf := hc.wire hsize hw
  have hle : min 1480 (L - 1480 * j) ≤ 1480 := Nat.min_le_left _ _
  have hds := hwf.ipDataSize hle
  obtain ⟨hmore, hoff⟩ := hwf.flags (by omega) hj
  refine ⟨by rw [hc.len, hsize]; exact hwf.isIPv4For hle, ?_, fun i hi => ?_⟩
  · simp only [framePacket, packetOf, fragmentPacket, hwf.ipSource, hwf.ipDest, hds,
      hwf.ipProtocol, hmore, hoff, hwf.ipIdentification]
    congr 1
    rw [← decide_not, decide_eq_decide]
    omega
  · have hi' : i < min 1480 (L - 1480 * j) := hi
    simp only [framePacket, packetOf, fragmentPacket, hds, if_pos hi', hwf.ipHeaderLength]
    exact hwf.payload i hi'

theorem length_fragmentHeader (s : NetworkStackHandler n h l) (mac : Fin 6 → UInt8) (dest : UInt32)
    (protocol : UInt8) (sent : UInt16) (offset size : Nat) (last : Bool) :
    (s.fragmentHeader mac dest protocol sent offset size last).length = 34 := by
  simp [fragmentHeader, ipBytes]

/-- The bytes of `sendFragment`. -/
theorem wire_sent (s : NetworkStackHandler n h l) (mac : Fin 6 → UInt8) (dest : UInt32)
    (protocol : UInt8) (sent : UInt16) (data : Nat → UInt8) (offset size : Nat) (last : Bool)
    (buffer : Nat → UInt8) :
    Wire s.myIP dest protocol sent data offset size last
      (copyBytes (putBytes buffer 0 (s.fragmentHeader mac dest protocol sent offset size last)) 34
        data offset size) := by
  refine ⟨fun i hi _ _ => ?_, fun i hi => ?_⟩
  · have hlen := length_fragmentHeader s mac dest protocol sent offset size last
    rw [copyBytes, if_neg (by omega), putBytes, if_pos (Nat.zero_le _), ← fragmentHeader_drop s mac,
      List.getD_eq_getElem?_getD, List.getElem?_drop, Nat.sub_zero,
      List.getElem?_eq_getElem (by omega)]
    rfl
  · rw [copyBytes, if_pos (by omega), Nat.add_sub_cancel_left]

/-- What one call for fragment `j` returns. -/
structure Sent (s : NetworkStackHandler n h l) (dest : UInt32) (protocol : UInt8) (data : Nat → UInt8)
    (L : Nat) (identification : UInt16) (j : Nat) (r : Outgoing) : Prop where
  progress : r.progress = if L - 1480 * j < 1480 then .done else .sendingFragment
  identification : r.identification = if j = 0 then s.identificationCounter else identification
  fragmentOffset : r.fragmentOffset = 1480 * j + min 1480 (L - 1480 * j)
  size : r.size = 34 + min 1480 (L - 1480 * j)
  emits : Emits dest (fragmentPacket s.myIP dest protocol data L r.identification j) r

theorem sent_sendFragment {s s' : NetworkStackHandler n h l} (b : Fin h) (i : Fin l) (dest : UInt32)
    (protocol : UInt8) (data : Nat → UInt8) {L j : Nat} (hL : 1480 * j < 65536)
    (identification : UInt16) (buffer : Nat → UInt8) (hip : s'.myIP = s.myIP)
    (hcnt : s'.identificationCounter = s.identificationCounter) :
    Sent s dest protocol data L identification j (s'.sendFragment b i dest protocol data L
      identification (1480 * j) buffer).1 := by
  have hsz : (if decide (L - 1480 * j < 1480) then L - 1480 * j else 1480) =
      min 1480 (L - 1480 * j) := by
    by_cases hlt : L - 1480 * j < 1480
    · rw [if_pos (by simpa using hlt), Nat.min_eq_right (by omega)]
    · rw [if_neg (by simpa using hlt), Nat.min_eq_left (by omega)]
  have hid : (if 1480 * j = 0 then s'.identificationCounter else identification) =
      if j = 0 then s.identificationCounter else identification := by
    rw [hcnt]; exact if_congr (by omega) rfl rfl
  have hsize : (s'.sendFragment b i dest protocol data L identification (1480 * j) buffer).1.size =
      34 + min 1480 (L - 1480 * j) := by
    rw [← hsz]; rfl
  refine ⟨?_, hid, ?_, hsize, emits_of_wire hL hsize ?_⟩
  · exact if_congr decide_eq_true_iff rfl rfl
  · rw [← hsz]; rfl
  · rw [← hip, ← hsz]
    unfold sendFragment
    dsimp only
    split
    · exact wire_sent _ _ _ _ _ _ _ _ _ _
    · exact wire_sent _ _ _ _ _ _ _ _ _ _

theorem sent_handleOutgoing [NeZero h] {s : NetworkStackHandler n h l} {dest : UInt32}
    (sourcePort destinationPort : UInt16) (protocol : UInt8) (data : Nat → UInt8) {L j : Nat} (hj : 1480 * j < L) (hL : L < 65536)
    (identification : UInt16) {buffer : Nat → UInt8} (hres : Resolved s dest buffer) :
    Sent s dest protocol data L identification j (s.handleOutgoingIPv4Packet dest sourcePort
      destinationPort protocol (some data) L identification (1480 * j) (some buffer)).1 := by
  obtain ⟨i, s', hi⟩ := hres
  have hk := resolves_resolve s (s.nextHopIP dest) buffer
  rw [hi] at hk
  simp only [handleOutgoingIPv4Packet, if_neg (Nat.not_le.mpr hj), hi]
  cases hk with
  | known _ e =>
    exact sent_sendFragment _ _ _ _ _ (by omega) _ _ rfl rfl

/-! ## All calls for a payload -/

/-- The calls for one payload: `sender k` is the sender at the time of call
`k`, with `buffer k` to write to. Between two calls anything may happen to
the sender. The result lists what the calls with a frame returned; `none`: no
`Done` within `fuel` calls, or the next hop is not known.
mirrors network_management_task.cpp:339-384 -/
def sendLoop [NeZero h] (sender : Nat → NetworkStackHandler n h l) (buffer : Nat → Nat → UInt8)
    (dest : UInt32) (sourcePort destinationPort : UInt16) (protocol : UInt8) (data : Nat → UInt8)
    (L : Nat) : Nat → Nat → UInt16 → Nat → Option (List Outgoing)
  | 0, _, _, _ => none
  | fuel + 1, k, identification, fragmentOffset =>
    let r := ((sender k).handleOutgoingIPv4Packet dest sourcePort destinationPort protocol
      (some data) L identification fragmentOffset (some (buffer k))).1
    match r.progress with
    | .done => some (if r.size = 0 then [] else [r])
    | .sendingFragment => (sendLoop sender buffer dest sourcePort destinationPort protocol data L
        fuel (k + 1) r.identification r.fragmentOffset).map (r :: ·)
    | .waitingOnARPReply => none
    | .arpTableFull => none

section Loop
variable [NeZero h] {sender : Nat → NetworkStackHandler n h l} {buffer : Nat → Nat → UInt8}
  {src dest : UInt32} (sourcePort destinationPort : UInt16) (protocol : UInt8) (data : Nat → UInt8)
  {L : Nat}

/-- The calls from fragment `j` on. -/
theorem sendLoop_spec (hL : L < 65536) (hres : ∀ k, Resolved (sender k) dest (buffer k))
    (hsrc : ∀ k, (sender k).myIP = src) (fuel : Nat) :
    ∀ (k j : Nat) (identification : UInt16), 0 < L → 1480 * j ≤ L → L / 1480 < j + fuel →
    ∃ rs, sendLoop sender buffer dest sourcePort destinationPort protocol data L fuel k
        identification (1480 * j) = some rs ∧ j + rs.length = (L + 1479) / 1480 ∧
      ∀ i r, rs[i]? = some r → Emits dest (fragmentPacket src dest protocol data L
        (if j = 0 then (sender k).identificationCounter else identification) (j + i)) r := by
  induction fuel with
  | zero => intro k j identification hpos hj hfuel; omega
  | succ fuel ih =>
    intro k j identification hpos hj hfuel
    by_cases hend : 1480 * j = L
    · -- nothing is left: the call returns `Done` and no frame
      refine ⟨[], ?_, by simp; omega, by simp⟩
      simp [sendLoop, handleOutgoingIPv4Packet, hend]
    · have hlt : 1480 * j < L := by omega
      have hS := sent_handleOutgoing sourcePort destinationPort protocol data hlt hL identification
        (hres k)
      simp only [sendLoop]
      generalize ((sender k).handleOutgoingIPv4Packet dest sourcePort destinationPort protocol
        (some data) L identification (1480 * j) (some (buffer k))).1 = r at hS ⊢
      have hemit := hS.emits
      rw [hS.identification, hsrc k] at hemit
      by_cases hlast : L - 1480 * j < 1480
      · refine ⟨[r], ?_, by simp; omega, ?_⟩
        · rw [hS.progress, if_pos hlast, hS.size]
          exact congrArg some (if_neg (by omega))
        · intro i r' hi
          obtain ⟨rfl, rfl⟩ : i = 0 ∧ r = r' := by
            cases i with
            | zero => exact ⟨rfl, by simpa using hi⟩
            | succ i => simp at hi
          exact hemit
      · have hoff : r.fragmentOffset = 1480 * (j + 1) := by rw [hS.fragmentOffset]; omega
        obtain ⟨rs, h1, h2, h3⟩ := ih (k + 1) (j + 1) r.identification hpos (by omega) (by omega)
        refine ⟨r :: rs, ?_, by simp; omega, ?_⟩
        · rw [hS.progress, if_neg hlast, hoff]
          simp only [h1, Option.map_some]
        · intro i r' hi
          cases i with
          | zero =>
            obtain rfl : r = r' := by simpa using hi
            exact hemit
          | succ i =>
            have := h3 i r' (by simpa using hi)
            rw [if_neg (by omega), hS.identification] at this
            rw [show j + (i + 1) = j + 1 + i by omega]
            exact this

end Loop

/-! ## The receiver -/

theorem tiles_fragmentPacket (src dest : UInt32) (protocol : UInt8) (data : Nat → UInt8) (L : Nat)
    (sent : UInt16) : Tiles (fragmentPacket src dest protocol data L sent) (L / 1480 + 1) := by
  refine ⟨by omega, fun j _ => rfl, rfl, fun j hj => ?_, fun j hj => ?_, fun j hj => ?_⟩
  · simp only [fragmentPacket]; omega
  · simp only [fragmentPacket]; omega
  · simp only [fragmentPacket, decide_eq_decide]; omega

/-- The bytes of the fragments `0`, ..., `m - 1` are the first bytes of the
payload. -/
theorem payload_prefix (src dest : UInt32) (protocol : UInt8) (data : Nat → UInt8) (L : Nat)
    (sent : UInt16) (m : Nat) :
    ((List.range m).flatMap fun j =>
      (List.range (fragmentPacket src dest protocol data L sent j).dataSize).map
        (fragmentPacket src dest protocol data L sent j).data) =
      (List.range (min (1480 * m) L)).map data := by
  induction m with
  | zero => simp
  | succ m ih =>
    rw [List.range_succ, List.flatMap_append, ih]
    simp only [List.flatMap_cons, List.flatMap_nil, List.append_nil, fragmentPacket]
    by_cases hm : 1480 * m ≤ L
    · rw [Nat.min_eq_left hm,
        show min (1480 * (m + 1)) L = 1480 * m + min 1480 (L - 1480 * m) by omega, List.range_add,
        List.map_append, List.map_map]
      rfl
    · rw [show min (1480 * (m + 1)) L = L by omega, show min (1480 * m) L = L by omega,
        show min 1480 (L - 1480 * m) = 0 by omega]
      simp

/-- The ready list of `t` is that of `s` with one datagram more at its end: the
payload `data` of `L` bytes, from `src`. -/
def Delivered (s t : NetworkStackHandler n h l) (src : UInt32) (protocol : UInt8)
    (data : Nat → UInt8) (L : Nat) : Prop :=
  ∃ c, readyChains t = readyChains s ++ [c] ∧
    (c.flatMap fun x => (List.range (t.value x).dataSize).map (t.value x).data) =
      (List.range L).map data ∧
    ∀ x ∈ c, (t.value x).protocol = protocol ∧ (t.value x).sourceIP = src

section Receiver
variable [NeZero n] [NeZero h] {r : NetworkStackHandler n h l} {src dest : UInt32} {protocol : UInt8}
  {data : Nat → UInt8} {L m : Nat} {sent : UInt16} (frames : Nat → RxFrame) {es : List (Event Unit)}

/-- The frames of the fragments `0`, ..., `m - 1` arrive, in any order. -/
theorem received (hr : (handlerLTS n h l).Reachable r)
    (hframes : ∀ j, j < m → IsIPv4For (frames j).data r.myIP (frames j).dataLen ∧
      Holds (fragmentPacket src dest protocol data L sent j) (framePacket (frames j)))
    (hm : m = (L + 1479) / 1480) (hnd : (arrivals es).Nodup)
    (hall : ∀ j, ((), j) ∈ arrivals es ↔ j < m) (hbuf : m ≤ (unusedList r).length)
    (hticks : ticks es ≤ FRAGMENT_TIMEOUT)
    (hno : ∀ c ∈ incompleteChains r, ∀ x ∈ c,
      (r.value x).key ≠ (fragmentPacket src dest protocol data L sent 0).key) :
    ∃ t el, r.calls (es.map (Event.call fun _ => frames)) = some t ∧
      readyChains t = readyChains r ++
        (if 1480 ∣ L then [] else [(List.range (L / 1480 + 1)).map el]) ∧
      ∀ j, j < m → Holds (fragmentPacket src dest protocol data L sent j) (t.value (el j)) := by
  obtain ⟨a, hra⟩ := rep_of_reachable hr
  obtain ⟨e1, e2, e3⟩ := hra.lists_eq
  have htm := timer_of_reachable hr
  have : Nonempty (Fin n) := ⟨⟨0, Nat.pos_of_ne_zero (NeZero.ne n)⟩⟩
  have hfam : Family (fun _ : Unit => fragmentPacket src dest protocol data L sent)
      fun _ => L / 1480 + 1 :=
    ⟨fun _ => tiles_fragmentPacket src dest protocol data L sent, fun _ _ _ _ _ => rfl⟩
  have hlen : (arrivals es).length = m := by
    have hp : (arrivals es).Perm ((List.range m).map fun j => ((), j)) := by
      refine (List.perm_ext_iff_of_nodup hnd ?_).mpr fun x => ?_
      · exact (List.nodup_range).map fun i j hij => by simpa using hij
      · obtain ⟨⟨⟩, j⟩ := x
        rw [hall]
        simp
    rw [hp.length_eq, List.length_map, List.length_range]
  rw [e2, hra.val] at hno
  rw [e1] at hbuf
  have hA : Arrived (fun _ : Unit => fragmentPacket src dest protocol data L sent)
      (fun _ => L / 1480 + 1) (Young r.timerCounter 0) a.ready [] []
      (fun _ _ => Classical.arbitrary (Fin n)) a := by
    refine ⟨hra.wf, by simp, by simp, by simp, fun d => ?_, .nil, by simp, fun d hd _ => hno⟩
    simp only [List.not_mem_nil, false_iff, not_forall]
    exact ⟨0, by omega, fun h => h⟩
  have hdel : Deliverable (fun _ : Unit => fragmentPacket src dest protocol data L sent)
      (fun _ => L / 1480 + 1) (fun _ => frames) r.myIP es := by
    intro d j hm'
    have hj := (hall j).mp hm'
    have hlt : j < L / 1480 + 1 := by omega
    exact ⟨hlt, (hframes j hj).2, (hframes j hj).1⟩
  obtain ⟨t, b, el, h1, h2, h3⟩ := run_arrived hfam es hra hA htm hnd (by simp) hdel
    (by omega) (by omega)
  obtain ⟨-, -, f3⟩ := h2.lists_eq
  simp only [List.nil_append, List.append_nil] at h3
  refine ⟨t, el (), h1, ?_, fun j hj => ?_⟩
  · rw [f3, e3, h3.ready]
    congr 1
    have hdone := h3.done_iff ()
    have hnd' := h3.nodup
    generalize completed (fun _ => L / 1480 + 1) [] es = done at hdone hnd'
    split
    · rename_i hdvd
      -- the last fragment is not among the frames
      have hnot : () ∉ done := by
        rw [hdone]
        intro hall'
        have := (hall (L / 1480)).mp (List.mem_reverse.mp (hall' (L / 1480) (by omega)))
        omega
      rw [List.eq_nil_iff_forall_not_mem.mpr fun _ => hnot, List.map_nil]
    · rename_i hdvd
      have hmem : () ∈ done := by
        rw [hdone]
        intro j hj
        rw [List.mem_reverse, hall]
        omega
      cases done with
      | nil => cases hmem
      | cons d ds =>
        rw [List.nodup_cons] at hnd'
        rw [List.eq_nil_iff_forall_not_mem.mpr fun _ => hnd'.1]
        rfl
  · rw [h2.val]
    exact h3.holds () j (List.mem_reverse.mpr ((hall j).mpr hj))

end Receiver

theorem delivered_of_chain {s t : NetworkStackHandler n h l} {src dest : UInt32} {protocol : UInt8}
    {data : Nat → UInt8} {L : Nat} {sent : UInt16} {el : Nat → Fin n}
    (hready : readyChains t = readyChains s ++ [(List.range (L / 1480 + 1)).map el])
    (hel : ∀ j, j < L / 1480 + 1 →
      Holds (fragmentPacket src dest protocol data L sent j) (t.value (el j))) :
    Delivered s t src protocol data L := by
  refine ⟨_, hready, ?_, fun x hx => ?_⟩
  · have hcut : ((List.range (L / 1480 + 1)).flatMap fun j =>
        (List.range (t.value (el j)).dataSize).map (t.value (el j)).data) =
        (List.range (L / 1480 + 1)).flatMap fun j =>
          (List.range (fragmentPacket src dest protocol data L sent j).dataSize).map
            (fragmentPacket src dest protocol data L sent j).data := by
      refine List.flatMap_congr fun j hj => ?_
      have hh := hel j (List.mem_range.mp hj)
      rw [hh.dataSize]
      exact List.map_congr_left fun i hi => hh.data i (List.mem_range.mp hi)
    rw [List.flatMap_map, hcut, payload_prefix, Nat.min_eq_right (by omega)]
  · obtain ⟨j, hj, rfl⟩ := List.mem_map.mp hx
    have hh := hel j (List.mem_range.mp hj)
    rw [hh.eq]
    exact ⟨rfl, rfl⟩

/-- A payload is sent and all its frames are handed to the receiver, in any
order: the datagram appears at the end of the receiver's ready list if and
only if 1480 does not divide its length. -/
theorem roundTrip_iff [NeZero h] [NeZero n'] [NeZero h']
    (sender : Nat → NetworkStackHandler n h l) (buffer : Nat → Nat → UInt8) (src dest : UInt32)
    (sourcePort destinationPort : UInt16) (protocol : UInt8) (data : Nat → UInt8) (L : Nat)
    (hpos : 1 ≤ L) (hL : L ≤ 65535) (hres : ∀ k, Resolved (sender k) dest (buffer k))
    (hsrc : ∀ k, (sender k).myIP = src) (identification : UInt16)
    (r : NetworkStackHandler n' h' l') (hr : (handlerLTS n' h' l').Reachable r)
    (hip : r.myIP = dest) :
    ∃ rs, sendLoop sender buffer dest sourcePort destinationPort protocol data L (L / 1480 + 1) 0
        identification 0 = some rs ∧
      ∀ frames : Nat → RxFrame, (∀ j o, rs[j]? = some o → Carries (frames j) o) →
      ∀ es : List (Event Unit), (arrivals es).Nodup →
        (∀ j, ((), j) ∈ arrivals es ↔ j < rs.length) →
        rs.length ≤ (unusedList r).length → ticks es ≤ FRAGMENT_TIMEOUT →
        (∀ c ∈ incompleteChains r, ∀ x ∈ c,
          (r.value x).key ≠ (src, dest, (sender 0).identificationCounter.toNat)) →
        ∃ t, r.calls (es.map (Event.call fun _ => frames)) = some t ∧
          (Delivered r t src protocol data L ↔ ¬ 1480 ∣ L) := by
  obtain ⟨rs, h1, h2, h3⟩ := sendLoop_spec sourcePort destinationPort protocol data (by omega)
    hres hsrc (L / 1480 + 1) 0 0 identification hpos (by omega) (by omega)
  refine ⟨rs, h1, fun frames hcarry es hnd hall hbuf hticks hno => ?_⟩
  have hframes : ∀ j, j < rs.length → IsIPv4For (frames j).data r.myIP (frames j).dataLen ∧
      Holds (fragmentPacket src dest protocol data L (sender 0).identificationCounter j)
        (framePacket (frames j)) := by
    intro j hj
    have hget : rs[j]? = some rs[j] := List.getElem?_eq_getElem hj
    have hemit := h3 j _ hget _ (hcarry j _ hget)
    rw [if_pos rfl, Nat.zero_add, ← hip] at hemit
    rwa [← hip]
  obtain ⟨t, el, k1, k2, k3⟩ := received frames hr hframes (by omega) hnd hall hbuf hticks hno
  refine ⟨t, k1, ?_⟩
  by_cases hdvd : 1480 ∣ L
  · rw [if_pos hdvd, List.append_nil] at k2
    refine iff_of_false ?_ (not_not.mpr hdvd)
    intro hD
    obtain ⟨c, hc, -⟩ := hD
    rw [k2] at hc
    simp at hc
  · rw [if_neg hdvd] at k2
    exact iff_of_true (delivered_of_chain k2 fun j hj => k3 j (by omega)) hdvd

/-! ## A payload of 1481 and one of 1480 bytes, over loopback -/

/-- The answer of 10.0.0.1 to its own ARP request. -/
def ownARPReply : RxFrame where
  data i := [2, 2, 2, 2, 2, 2, 2, 2, 2, 2, 2, 2, 0x08, 0x06, 0, 1, 0x08, 0, 6, 4, 0, 2,
    2, 2, 2, 2, 2, 2, 10, 0, 0, 1, 2, 2, 2, 2, 2, 2, 10, 0, 0, 1].getD i 0
  dataLen := 42
  fits := fits_42

/-- `twoBuffers` after a first send and the ARP reply to it. -/
def resolvedBuffers : NetworkStackHandler 2 1 1 :=
  learnARP (twoBuffers.outgoing ⟨0x0A000001, 0, 0, 17, some fun _ => 0, 1, 0, 0, some fun _ => 0⟩).2
    ownARPReply.data

theorem reachable_resolvedBuffers : (handlerLTS 2 1 1).Reachable resolvedBuffers := by
  have hcalls : twoBuffers.calls [.outgoing ⟨0x0A000001, 0, 0, 17, some fun _ => 0, 1, 0, 0,
      some fun _ => 0⟩, .incoming ownARPReply] = some resolvedBuffers := rfl
  exact reachable_of_calls init_twoBuffers hcalls

theorem resolved_resolvedBuffers : Resolved resolvedBuffers 0x0A000001 fun _ => 0 :=
  ⟨0, _, rfl⟩

/-- The calls for `L` zero bytes to 10.0.0.1. -/
def sendZeros (L : Nat) : Option (List Outgoing) :=
  sendLoop (fun _ => resolvedBuffers) (fun _ _ => 0) 0x0A000001 0 0 17 (fun _ => 0) L (L / 1480 + 1)
    0 0 0

/-- 1481 bytes: the second frame comes first, and the datagram is there. -/
theorem roundTrip_iff_1481 : ∃ o₀ o₁ f₀ f₁ t, sendZeros 1481 = some [o₀, o₁] ∧
    Carries f₀ o₀ ∧ Carries f₁ o₁ ∧
    resolvedBuffers.calls [.incoming f₁, .tick, .incoming f₀] = some t ∧
    Delivered resolvedBuffers t 0x0A000001 17 (fun _ => 0) 1481 := by
  obtain ⟨rs, h1, h2⟩ := roundTrip_iff (fun _ => resolvedBuffers) (fun _ _ => 0) 0x0A000001 0x0A000001
    0 0 17 (fun _ => 0) 1481 (by decide) (by decide) (fun _ => resolved_resolvedBuffers)
    (fun _ => rfl) 0 resolvedBuffers reachable_resolvedBuffers rfl
  have hsizes : (sendZeros 1481).map (·.map (·.size)) = some [1514, 35] := by decide +kernel
  have h1' : sendZeros 1481 = some rs := h1
  rw [h1', Option.map_some, Option.some.injEq] at hsizes
  match rs, hsizes with
  | [o₀, o₁], hsizes =>
    simp only [List.map_cons, List.map_nil, List.cons.injEq, and_true] at hsizes
    let f₀ : RxFrame := ⟨o₀.writeBuffer, o₀.size, by rw [hsizes.1]; decide⟩
    let f₁ : RxFrame := ⟨o₁.writeBuffer, o₁.size, by rw [hsizes.2]; decide⟩
    obtain ⟨t, h3, h4⟩ := h2 (fun j => if j = 0 then f₀ else f₁)
      (fun j o hj => by
        match j, hj with
        | 0, hj => cases hj; exact ⟨rfl, fun _ _ _ _ => rfl⟩
        | 1, hj => cases hj; exact ⟨rfl, fun _ _ _ _ => rfl⟩)
      [.frame () 1, .tick, .frame () 0] (by decide)
      (fun j => by simp [arrivals]; omega)
      (by rw [show unusedList resolvedBuffers = [0, 1] by decide]; exact Nat.le_refl 2) (by decide)
      (fun c hc => by rw [show incompleteChains resolvedBuffers = [] by decide] at hc; cases hc)
    exact ⟨o₀, o₁, f₀, f₁, t, h1', ⟨rfl, fun _ _ _ _ => rfl⟩, ⟨rfl, fun _ _ _ _ => rfl⟩, h3,
      h4.mpr (by decide)⟩

/-- 1480 bytes: the one frame announces more fragments, and nothing is ready. -/
theorem roundTrip_lost_1480 : (handlerLTS 2 1 1).Reachable resolvedBuffers ∧
    Resolved resolvedBuffers 0x0A000001 (fun _ => 0) ∧
    ∃ o f t, sendZeros 1480 = some [o] ∧ Carries f o ∧
      resolvedBuffers.calls [.incoming f] = some t ∧ readyChains t = [] ∧
      ¬ Delivered resolvedBuffers t 0x0A000001 17 (fun _ => 0) 1480 := by
  refine ⟨reachable_resolvedBuffers, resolved_resolvedBuffers, ?_⟩
  obtain ⟨rs, h1, h2, h3⟩ := sendLoop_spec 0 0 17 (fun _ => 0) (show 1480 < 65536 by decide)
    (fun _ => resolved_resolvedBuffers) (fun _ => rfl) (1480 / 1480 + 1) 0 0 0 (by decide) (by decide)
    (by decide)
  have hsizes : (sendZeros 1480).map (·.map (·.size)) = some [1514] := by decide +kernel
  have h1' : sendZeros 1480 = some rs := h1
  rw [h1', Option.map_some, Option.some.injEq] at hsizes
  match rs, hsizes with
  | [o], hsizes =>
    simp only [List.map_cons, List.map_nil, List.cons.injEq, and_true] at hsizes
    let f : RxFrame := ⟨o.writeBuffer, o.size, by rw [hsizes]; decide⟩
    have hc : Carries f o := ⟨rfl, fun _ _ _ _ => rfl⟩
    have hframes : ∀ j, j < 1 → IsIPv4For f.data resolvedBuffers.myIP f.dataLen ∧
        Holds (fragmentPacket 0x0A000001 0x0A000001 17 (fun _ => 0) 1480
          resolvedBuffers.identificationCounter j) (framePacket f) := by
      intro j hj
      obtain rfl : j = 0 := by omega
      exact h3 0 o rfl f hc
    have hall : ∀ j, ((), j) ∈ arrivals [.frame () 0] ↔ j < 1 := fun j => by simp [arrivals]
    obtain ⟨t, el, k1, k2, -⟩ := received (fun _ => f) reachable_resolvedBuffers
      hframes (by decide) (by decide) hall (by decide) (by decide)
      (fun c hc => by rw [show incompleteChains resolvedBuffers = [] by decide] at hc; cases hc)
    have hr0 : readyChains t = [] := k2
    refine ⟨o, f, t, h1', hc, k1, hr0, ?_⟩
    intro hD
    obtain ⟨c, h4, -⟩ := hD
    rw [hr0] at h4
    simp at h4

end CpuScheduler.L2
