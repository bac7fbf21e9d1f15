import CpuScheduler.L2Network.Delivery

/-!
# The frame filter

The card is promiscuous, so `handleIncomingEthernetPacket` decides which of
all frames on the wire concern this machine. `FilterExact` is what an exact
filter does with one frame: it reads inside the frame, copies no more than a
buffer holds, touches the state for good frames only, and names the frames
that are too short or for another machine.

The two early returns of the source are missing their `return` (lines 432
and 446). `filterExact_iff` says for which frames the filter is exact all
the same: the frames with a whole Ethernet header that are for this
machine's MAC or for everyone, and those for another MAC that the ARP or
IPv4 code turns away by their protocol address.
-/
namespace CpuScheduler.L2

open Word NetworkStackHandler

variable {n h l : Nat}

/-- Every access of the frame code is inside the frame, or inside the packet
buffer it copies to. -/
def InBounds (dataLen : Nat) : FrameAccess → Prop
  | .read i => i < dataLen
  | .store i => i < RX_BUFFER_SIZE

/-! ## What is read -/

section Accesses
variable {data : Nat → UInt8} {dataLen : Nat}

theorem inBounds_byteAt {i : Nat} (hi : i < dataLen) : (byteAt data i).All (InBounds dataLen) :=
  Traced.all_bind (Traced.all_emit (by simpa [InBounds] using hi)) (Traced.all_pure _)

theorem inBounds_macAt {start : Nat} (hs : start + 6 ≤ dataLen) :
    (macAt data start).All (InBounds dataLen) := by
  refine Traced.all_bind (Traced.all_emit fun a ha => ?_) (Traced.all_pure _)
  obtain ⟨i, hi, rfl⟩ := List.mem_map.mp ha
  have := List.mem_range.mp hi
  simp only [InBounds]; omega

theorem inBounds_copyToBuffer {start numBytes : Nat} {buffer : Nat → UInt8}
    (hs : start + numBytes ≤ dataLen) (hb : numBytes ≤ RX_BUFFER_SIZE) :
    (copyToBuffer data start numBytes buffer).All (InBounds dataLen) := by
  refine Traced.all_bind (Traced.all_emit fun a ha => ?_) (Traced.all_pure _)
  obtain ⟨i, hi, ha⟩ := List.mem_flatMap.mp ha
  have := List.mem_range.mp hi
  simp only [List.mem_cons, List.not_mem_nil, or_false] at ha
  rcases ha with rfl | rfl <;> simp only [InBounds] <;> omega

theorem inBounds_incomingARPPacketHelper [NeZero h] (s : NetworkStackHandler n h l) :
    (s.incomingARPPacketHelper data dataLen).All (InBounds dataLen) := by
  unfold incomingARPPacketHelper
  refine Traced.all_ite (fun _ => Traced.all_pure _) fun hlen => ?_
  have hb : ∀ i, i < 42 → (byteAt data i).All (InBounds dataLen) := fun i hi =>
    inBounds_byteAt (by omega)
  refine Traced.all_bind (hb 20 (by omega)) (Traced.all_bind (hb 21 (by omega))
    (Traced.all_bind (hb 16 (by omega)) (Traced.all_bind (hb 17 (by omega)) ?_)))
  refine Traced.all_ite (fun _ => ?_) (fun _ => Traced.all_pure _)
  refine Traced.all_ite (fun _ => ?_) (fun _ => Traced.all_ite (fun _ => ?_) fun _ => Traced.all_pure _)
  · refine Traced.all_bind (hb 28 (by omega)) (Traced.all_bind (hb 29 (by omega))
      (Traced.all_bind (hb 30 (by omega)) (Traced.all_bind (hb 31 (by omega)) ?_)))
    dsimp only
    split
    · exact Traced.all_pure _
    · exact Traced.all_bind (inBounds_macAt (by omega)) (Traced.all_pure _)
  · refine Traced.all_bind (hb 38 (by omega)) (Traced.all_bind (hb 39 (by omega))
      (Traced.all_bind (hb 40 (by omega)) (Traced.all_bind (hb 41 (by omega)) ?_)))
    exact Traced.all_ite (fun _ => Traced.all_pure _) fun _ => Traced.all_pure _

theorem inBounds_fillPacket (s : NetworkStackHandler n h l) {hl tl : Nat} {src dst : UInt32}
    {old : IPv4Packet} (hlen : 34 ≤ dataLen) (hlow : hl * 4 ≤ tl) (hup : tl + 14 ≤ dataLen)
    (hrx : dataLen ≤ RX_BUFFER_SIZE) :
    (s.fillPacket data hl tl src dst old).All (InBounds dataLen) := by
  have hb : ∀ i, i < 34 → (byteAt data i).All (InBounds dataLen) := fun i hi =>
    inBounds_byteAt (by omega)
  unfold fillPacket
  refine Traced.all_bind (hb 23 (by omega)) (Traced.all_bind (hb 20 (by omega))
    (Traced.all_bind (hb 20 (by omega)) (Traced.all_bind (hb 21 (by omega))
      (Traced.all_bind (hb 18 (by omega)) (Traced.all_bind (hb 19 (by omega)) ?_)))))
  exact Traced.all_bind (inBounds_copyToBuffer (by omega) (by omega)) (Traced.all_pure _)

theorem inBounds_incomingIPv4PacketHelper (s : NetworkStackHandler n h l)
    (hrx : dataLen ≤ RX_BUFFER_SIZE) :
    (s.incomingIPv4PacketHelper data dataLen).All (InBounds dataLen) := by
  unfold incomingIPv4PacketHelper
  refine Traced.all_ite (fun _ => Traced.all_pure _) fun hlen => ?_
  have hb : ∀ i, i < 34 → (byteAt data i).All (InBounds dataLen) := fun i hi =>
    inBounds_byteAt (by omega)
  refine Traced.all_bind (hb 14 (by omega)) (Traced.all_bind (hb 14 (by omega)) ?_)
  refine Traced.all_ite (fun _ => Traced.all_pure _) fun _ => ?_
  refine Traced.all_bind (hb 26 (by omega)) (Traced.all_bind (hb 27 (by omega))
    (Traced.all_bind (hb 28 (by omega)) (Traced.all_bind (hb 29 (by omega)) ?_)))
  refine Traced.all_bind (hb 30 (by omega)) (Traced.all_bind (hb 31 (by omega))
    (Traced.all_bind (hb 32 (by omega)) (Traced.all_bind (hb 33 (by omega)) ?_)))
  refine Traced.all_ite (fun _ => Traced.all_pure _) fun _ => ?_
  refine Traced.all_bind (hb 16 (by omega)) (Traced.all_bind (hb 17 (by omega)) ?_)
  refine Traced.all_ite (fun _ => Traced.all_pure _) fun hlim => ?_
  rw [ETHERNET_SIMPLE_HEADER_SIZE] at hlim
  split
  · exact Traced.all_pure _
  · exact Traced.all_pure _
  · exact Traced.all_bind (inBounds_fillPacket _ (by omega) (by omega) (by omega) hrx) (Traced.all_pure _)

/-- From 14 bytes on nothing outside the frame is read. -/
theorem inBounds_handleIncoming [NeZero h] (s : NetworkStackHandler n h l) (hlen : 14 ≤ dataLen)
    (hrx : dataLen ≤ RX_BUFFER_SIZE) :
    (s.handleIncomingEthernetPacket data dataLen).All (InBounds dataLen) := by
  unfold handleIncomingEthernetPacket
  refine Traced.all_bind (inBounds_macAt (by omega)) ?_
  refine Traced.all_bind (inBounds_byteAt (by omega)) (Traced.all_bind (inBounds_byteAt (by omega)) ?_)
  refine Traced.all_ite (fun _ => ?_) fun _ => Traced.all_ite (fun _ => ?_) fun _ => Traced.all_pure _
  · exact Traced.all_bind (inBounds_incomingARPPacketHelper s) (Traced.all_pure _)
  · exact inBounds_incomingIPv4PacketHelper s hrx

/-- The protocol type is read whatever the length. -/
theorem read_thirteen [NeZero h] (s : NetworkStackHandler n h l) :
    FrameAccess.read 13 ∈ (s.handleIncomingEthernetPacket data dataLen).log := by
  unfold handleIncomingEthernetPacket
  simp [byteAt]

end Accesses

/-! ## When the filter is exact -/

/-- The frame is addressed to `mac` or to everyone. -/
def ForMac (mac : Fin 6 → UInt8) (data : Nat → UInt8) : Prop :=
  (∀ i : Fin 6, data i = mac i) ∨ ∀ i : Fin 6, data i = 0xFF

instance (mac : Fin 6 → UInt8) (data : Nat → UInt8) : Decidable (ForMac mac data) :=
  inferInstanceAs (Decidable (_ ∨ _))

/-- The only frames that are to change the handler. -/
def Relevant (s : NetworkStackHandler n h l) (f : RxFrame) : Prop :=
  14 ≤ f.dataLen ∧ ForMac s.myMac f.data ∧
    (IsARPReply f.data f.dataLen ∨ IsIPv4For f.data s.myIP f.dataLen)

structure FilterExact [NeZero h] (s : NetworkStackHandler n h l) (f : RxFrame) : Prop where
  accesses : ∀ a ∈ (s.handleIncomingEthernetPacket f.data f.dataLen).log, InBounds f.dataLen a
  unchanged : ¬ Relevant s f → (s.incoming f).map (·.2) = some s
  short : f.dataLen < 14 → (s.incoming f).map (·.1) = some .unknownType
  foreign : 14 ≤ f.dataLen → ¬ ForMac s.myMac f.data →
    (s.incoming f).map (·.1) = some .notForThisMachine

/-- An ARP request for another machine's address. -/
def ForeignARPRequest (s : NetworkStackHandler n h l) (f : RxFrame) : Prop :=
  etherType f.data = 0x0806 ∧ 42 ≤ f.dataLen ∧ arpProtocol f.data = 0x0800 ∧
    arpOperation f.data = 1 ∧ arpTarget f.data ≠ s.myIP

/-- An IPv4 packet for another machine's address. -/
def ForeignIPv4 (s : NetworkStackHandler n h l) (f : RxFrame) : Prop :=
  etherType f.data = 0x0800 ∧ 34 ≤ f.dataLen ∧ ipVersion f.data = 4 ∧ 5 ≤ ipHeaderLength f.data ∧
    ipDest f.data ≠ s.myIP ∧ ipDest f.data ≠ 0xFFFFFFFF

theorem acceptFrame_type {s : NetworkStackHandler n h l} {data : Nat → UInt8}
    {r : PacketType × NetworkStackHandler n h l} (hr : acceptFrame s data = some r) :
    r.1 = .ipv4Packet := by
  unfold acceptFrame at hr
  split at hr
  · cases hr
  · cases hr; rfl
  · obtain ⟨t, -, rfl⟩ := Option.map_eq_some_iff.mp hr
    rfl

/-- The ARP code answers `NotForThisMachine` to foreign requests only. -/
theorem val_incomingARP_notForThisMachine_iff [NeZero h] (s : NetworkStackHandler n h l)
    (data : Nat → UInt8) (dataLen : Nat) :
    (s.incomingARPPacketHelper data dataLen).val.1 = .notForThisMachine ↔
      42 ≤ dataLen ∧ arpProtocol data = 0x0800 ∧ arpOperation data = 1 ∧ arpTarget data ≠ s.myIP := by
  rw [val_incomingARPPacketHelper]
  split
  · rename_i h1
    simp only [reduceCtorEq, false_iff]; omega
  · rename_i h1
    split
    · rename_i h2
      split
      · rename_i h3
        simp only [reduceCtorEq, false_iff]; omega
      · split
        · rename_i h3
          split
          · rename_i h4
            exact iff_of_true rfl ⟨by omega, h2, h3, h4⟩
          · rename_i h4
            simp only [reduceCtorEq, false_iff]; tauto
        · rename_i h3
          simp only [reduceCtorEq, false_iff]; tauto
    · rename_i h2
      simp only [reduceCtorEq, false_iff]; tauto

/-- The IPv4 code answers `NotForThisMachine` to foreign packets only. -/
theorem val_incomingIPv4_notForThisMachine_iff (s : NetworkStackHandler n h l)
    (data : Nat → UInt8) (dataLen : Nat) :
    (s.incomingIPv4PacketHelper data dataLen).val.map (·.1) = some .notForThisMachine ↔
      34 ≤ dataLen ∧ ipVersion data = 4 ∧ 5 ≤ ipHeaderLength data ∧
        ipDest data ≠ s.myIP ∧ ipDest data ≠ 0xFFFFFFFF := by
  rw [val_incomingIPv4PacketHelper]
  split
  · rename_i h1
    simp only [Option.map_some, Option.some.injEq, reduceCtorEq, false_iff]; omega
  · rename_i h1
    split
    · rename_i h2
      simp only [Option.map_some, Option.some.injEq, reduceCtorEq, false_iff]
      rintro ⟨-, h3, h4, -⟩
      rcases h2 with h2 | h2
      · exact h2 h3
      · omega
    · rename_i h2
      rw [not_or, not_not] at h2
      split
      · rename_i h3
        exact iff_of_true rfl ⟨by omega, h2.1, by omega, h3⟩
      · rename_i h3
        refine iff_of_false ?_ fun h4 => h3 h4.2.2.2
        split
        · simp
        · intro h5
          obtain ⟨r, h6, h7⟩ := Option.map_eq_some_iff.mp h5
          rw [acceptFrame_type h6] at h7
          cases h7

/-- The code says `NotForThisMachine` for these two kinds of frames only,
whatever their MAC. -/
theorem incoming_notForThisMachine_iff [NeZero h] (s : NetworkStackHandler n h l) (f : RxFrame) :
    (s.incoming f).map (·.1) = some .notForThisMachine ↔ ForeignARPRequest s f ∨ ForeignIPv4 s f := by
  rw [incoming, val_handleIncomingEthernetPacket, ForeignARPRequest, ForeignIPv4]
  split
  · rename_i ht
    rw [Option.map_some, Option.some.injEq, val_incomingARP_notForThisMachine_iff]
    simp [ht]
  · rename_i h1
    split
    · rename_i ht
      rw [val_incomingIPv4_notForThisMachine_iff]
      simp [ht]
    · rename_i h2
      simp [h1, h2]

theorem incoming_short [NeZero h] (s : NetworkStackHandler n h l) {f : RxFrame}
    (hf : f.dataLen < 14) : (s.incoming f).map (·.1) = some .unknownType := by
  rw [incoming, val_handleIncomingEthernetPacket]
  split
  · rw [val_incomingARPPacketHelper, if_pos (by omega)]; rfl
  · split
    · rw [val_incomingIPv4PacketHelper, if_pos (by omega)]; rfl
    · rfl

theorem incoming_unchanged [NeZero h] (s : NetworkStackHandler n h l) {f : RxFrame}
    (h1 : ¬ IsIPv4For f.data s.myIP f.dataLen) (h2 : ¬ IsARPReply f.data f.dataLen) :
    (s.incoming f).map (·.2) = some s := by
  obtain ⟨t, ht⟩ := handleIncoming_of_other s f.data f.dataLen h1 h2
  rw [incoming, ht]; rfl

/-- The filter is exact for the frames that have a whole Ethernet header and
are for this MAC or everyone, or are turned away by their protocol address;
for no other frame. -/
theorem filterExact_iff [NeZero h] (s : NetworkStackHandler n h l) (f : RxFrame) :
    FilterExact s f ↔
      14 ≤ f.dataLen ∧ (ForMac s.myMac f.data ∨ ForeignARPRequest s f ∨ ForeignIPv4 s f) := by
  constructor
  · intro hx
    have hlen : 14 ≤ f.dataLen := by
      have := hx.accesses _ (read_thirteen s)
      simp only [InBounds] at this
      omega
    refine ⟨hlen, ?_⟩
    by_cases hm : ForMac s.myMac f.data
    · exact .inl hm
    · exact .inr ((incoming_notForThisMachine_iff s f).mp (hx.foreign hlen hm))
  · rintro ⟨hlen, hm⟩
    refine ⟨inBounds_handleIncoming s hlen f.fits, ?_, fun h1 => by omega, ?_⟩
    · intro hrel
      rcases hm with hm | hm | hm
      · refine incoming_unchanged s (fun h1 => hrel ⟨hlen, hm, .inr h1⟩)
          fun h1 => hrel ⟨hlen, hm, .inl h1⟩
      · refine incoming_unchanged s (fun h1 => ?_) fun h1 => ?_
        · have := hm.1.symm.trans h1.type; cases this
        · have := hm.2.2.2.1.symm.trans h1.operation; cases this
      · refine incoming_unchanged s (fun h1 => ?_) fun h1 => ?_
        · rcases h1.dest with h2 | h2
          · exact hm.2.2.2.2.1 h2
          · exact hm.2.2.2.2.2 h2
        · have := hm.1.symm.trans h1.type; cases this
    · intro _ hno
      exact (incoming_notForThisMachine_iff s f).mpr (hm.resolve_left hno)

theorem filterExact_iff_smallFrame : FilterExact twoBuffers (smallFrame 0 0) :=
  (filterExact_iff twoBuffers (smallFrame 0 0)).mpr ⟨by decide, .inl (by decide)⟩

/-- The same frame to the MAC address of another machine. -/
def foreignFrame : RxFrame where
  data i := if i < 6 then 9 else (smallFrame 0 0).data i
  dataLen := 42
  fits := fits_42

/-- A packet for another MAC address is not turned away but filed. -/
theorem filter_accepts_foreign_mac :
    (handlerLTS 2 1 1).Reachable twoBuffers ∧ ¬ FilterExact twoBuffers foreignFrame := by
  refine ⟨⟨twoBuffers, [], init_twoBuffers, .nil _⟩, fun hx => ?_⟩
  have h1 := hx.foreign (by decide) (by decide)
  have h2 : (twoBuffers.incoming foreignFrame).map (·.1) = some .ipv4Packet := by decide +kernel
  rw [h2] at h1
  cases h1

end CpuScheduler.L2
