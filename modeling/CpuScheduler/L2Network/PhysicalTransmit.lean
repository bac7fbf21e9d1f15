import CpuScheduler.L2Network.PhysicalReceive

/-!
# What the card sends

The invariant of the transmit ring is `Transmits`: the descriptors from the
head to `currentTx` are outstanding, the context descriptor of the constructor
first, and the tail is `currentTx` as soon as there is a frame. What has gone
out are the first of the queued frames, the IPv4 packets with the checksum of
the context (`sent_in_order`).

`getWriteBuffer` refuses a buffer only if all eight descriptors are
outstanding. But then the tail has come round to the head, which tells the
card that it has none: `transmission_stops`.
-/
namespace CpuScheduler.L2

open Cyclic

/-- A descriptor the card has not reported on. -/
inductive TxEntry where
  | context
  | frame (f : List UInt8 × Bool)
  deriving DecidableEq, Repr

/-- The bytes on the wire: the card sums up bytes 14 to 33 of an IPv4 packet. -/
def onWire (f : List UInt8 × Bool) : List UInt8 := if f.2 then insertChecksum 14 24 33 f.1 else f.1

namespace PhysicalNetworkInterface

variable (s : PhysicalNetworkInterface)

/-- The entry of descriptor `i`, with the bytes its buffer holds. -/
def txEntry (i : TxIndex) : Option TxEntry :=
  if (s.txDescs i).status ≠ 0 then none
  else match (s.txDescs i).view with
    | .unwritten => none
    | .context _ => some .context
    | .legacy d => some (.frame (bytesFrom s.txBufferSpace d.addrLow d.length.toNat, false))
    | .data d => some (.frame (bytesFrom s.txBufferSpace d.addrLow d.dtalenLow.toNat, true))

/-- What the driver writes to descriptor `i`. -/
def Formed (i : TxIndex) (view : TxView) : Prop :=
  view = .context checksumContext ∨ ∃ length : UInt32, length.toNat ≤ ETHERNET_MTU + ETHERNET_SIMPLE_HEADER_SIZE ∧
    (view = .legacy (legacyDescriptor { s with currentTx := i } length) ∨
      view = .data (dataDescriptor { s with currentTx := i } length))

variable {s}

theorem toNat_length {length : UInt32} (h : length.toNat ≤ ETHERNET_MTU + ETHERNET_SIMPLE_HEADER_SIZE) :
    length.toUInt16.toNat = length.toNat := by
  rw [ETHERNET_MTU, ETHERNET_SIMPLE_HEADER_SIZE] at h
  rw [UInt32.toNat_toUInt16]
  omega

theorem txEntry_of_busy {i : TxIndex} (hf : s.Formed i (s.txDescs i).view) (h : (s.txDescs i).status = 0) : s.txEntry i ≠ none := by
  unfold txEntry
  rw [if_neg (by simp [h])]
  rcases hf with hv | ⟨length, _, hv | hv⟩ <;> rw [hv] <;> simp

/-- The type nibble does not count for the length, and the loaded context is
used. -/
theorem offloaded_dataDescriptor (s : PhysicalNetworkInterface) (length : UInt32) (space : Nat → UInt8) (start : Nat) :
    offloaded (some checksumContext) (s.dataDescriptor length) (bytesFrom space start
      ((s.dataDescriptor length).dtalenLow.toNat + ((s.dataDescriptor length).dtalenHighAndDtype &&& 0xF).toNat * 65536)) =
    onWire (bytesFrom space start (s.dataDescriptor length).dtalenLow.toNat, true) := by
  have hpopts : ¬ (s.dataDescriptor length).popts &&& POPTS_IXSM = 0 := by
    simp only [dataDescriptor]
    decide
  have hnibble : ((s.dataDescriptor length).dtalenHighAndDtype &&& 0xF).toNat = 0 := by
    simp only [dataDescriptor]
    decide
  rw [offloaded, if_neg hpopts, hnibble, Nat.zero_mul, Nat.add_zero]
  rfl

theorem txEntry_of_free {i : TxIndex} (h : (s.txDescs i).status ≠ 0) : s.txEntry i = none := if_pos h

/-- An entry does not depend on the buffers of the others. -/
theorem txEntry_congr {t : PhysicalNetworkInterface} {i : TxIndex} (hdesc : t.txDescs i = s.txDescs i)
    (hf : (s.txDescs i).status = 0 → s.Formed i (s.txDescs i).view)
    (hspace : (s.txDescs i).status = 0 → ∀ length, length ≤ TX_BUFFER_SIZE →
      bytesFrom t.txBufferSpace (TX_BUFFER_SIZE * i) length = bytesFrom s.txBufferSpace (TX_BUFFER_SIZE * i) length) :
    t.txEntry i = s.txEntry i := by
  unfold txEntry
  rw [hdesc]
  by_cases hfree : (s.txDescs i).status = 0
  · rw [if_neg (by simp [hfree]), if_neg (by simp [hfree])]
    have hspace := hspace hfree
    rcases hf hfree with hv | ⟨length, hmax, hv | hv⟩
    · rw [hv]
    · have hfits : length.toUInt16.toNat ≤ TX_BUFFER_SIZE := by
        rw [toNat_length hmax]
        exact hmax.trans (by decide)
      rw [hv]
      simp only [legacyDescriptor, hspace _ hfits]
    · have hfits : length.toUInt16.toNat ≤ TX_BUFFER_SIZE := by
        rw [toNat_length hmax]
        exact hmax.trans (by decide)
      rw [hv]
      simp only [dataDescriptor, hspace _ hfits]
  · rw [if_pos hfree, if_pos hfree]

end PhysicalNetworkInterface

namespace NetworkCard

open PhysicalNetworkInterface

variable {s t : NetworkCard} {outstanding : List TxEntry}

/-- Before the context has been loaded nothing has gone out. -/
def Sends (s : NetworkCard) (outstanding : List TxEntry) : Prop :=
  (outstanding = .context :: s.queued.map .frame ∧ s.sent = []) ∨
    (s.registers.offload = some checksumContext ∧ ∃ out left, s.queued = out ++ left ∧
      outstanding = left.map .frame ∧ s.sent = out.map onWire)

structure Transmits (s : NetworkCard) (outstanding : List TxEntry) : Prop where
  ring : Cyclic.Holds s.interface.txEntry s.registers.tdh s.interface.currentTx outstanding
  tail : s.registers.tdt = s.interface.currentTx ∨ (outstanding = [.context] ∧ s.registers.tdt = s.registers.tdh)
  formed : ∀ i, (s.interface.txDescs i).status = 0 → s.interface.Formed i (s.interface.txDescs i).view
  sends : s.Sends outstanding

theorem transmits_init (rxBuffers txBuffers : Nat → UInt8) (rxLength : RxIndex → UInt16) (ctrl : UInt32) :
    (init rxBuffers txBuffers rxLength ctrl).Transmits [.context] where
  ring := by
    have hentry : (init rxBuffers txBuffers rxLength ctrl).interface.txEntry =
        Function.update (fun _ => none) ⟨0, firstTx_lt⟩ (some .context) := by
      funext i
      by_cases hi : i = ⟨0, firstTx_lt⟩
      · subst hi
        rfl
      · have hval : i.val ≠ 0 := fun hzero => hi (Fin.ext hzero)
        rw [Function.update_of_ne hi]
        simp [txEntry, init, PhysicalNetworkInterface.init, hval, TSTA_DD]
    rw [hentry]
    exact (Cyclic.Holds.empty _).push rfl _
  tail := .inr ⟨rfl, rfl⟩
  formed i hi := by
    by_cases hzero : i.val = 0
    · left
      simp [init, PhysicalNetworkInterface.init, hzero]
    · simp [init, PhysicalNetworkInterface.init, hzero, TSTA_DD] at hi
  sends := .inl ⟨rfl, rfl⟩

/-! ## Steps of the receiver -/

/-- What the transmit ring is made of is the same. -/
structure SameSender (s t : NetworkCard) : Prop where
  txDescs : t.interface.txDescs = s.interface.txDescs
  txBufferSpace : t.interface.txBufferSpace = s.interface.txBufferSpace
  currentTx : t.interface.currentTx = s.interface.currentTx
  tdh : t.registers.tdh = s.registers.tdh
  tdt : t.registers.tdt = s.registers.tdt
  offload : t.registers.offload = s.registers.offload
  queued : t.queued = s.queued
  sent : t.sent = s.sent

theorem Transmits.same (h : s.Transmits outstanding) (hs : SameSender s t) : t.Transmits outstanding := by
  have hentry : t.interface.txEntry = s.interface.txEntry := by
    funext i
    rw [txEntry, hs.txDescs, hs.txBufferSpace, txEntry]
  constructor
  · rw [hentry, hs.tdh, hs.currentTx]
    exact h.ring
  · rw [hs.tdt, hs.tdh, hs.currentTx]
    exact h.tail
  · rw [hs.txDescs]
    exact h.formed
  · unfold Sends
    rw [hs.queued, hs.sent, hs.offload]
    exact h.sends

/-- The steps of the receive ring and of the interrupts. -/
theorem sameSender_step {l : CardStep} (hstep : s.step l = some t) (hl : l ≠ .transmit)
    (hw : ∀ frame, l ≠ .write frame) (hf : ∀ length isIpv4Packet, l ≠ .finishWriteBuffer length isIpv4Packet) : SameSender s t := by
  cases l with
  | transmit => exact absurd rfl hl
  | write frame => exact absurd rfl (hw frame)
  | finishWriteBuffer length isIpv4Packet => exact absurd rfl (hf length isIpv4Packet)
  | receive bytes =>
    rw [step, receive] at hstep
    split at hstep
    · cases hstep
    · cases hstep
      exact ⟨rfl, rfl, rfl, rfl, rfl, rfl, rfl, rfl⟩
  | writeBack length status threshold =>
    rw [step, writeBack] at hstep
    split at hstep
    · cases hstep
    · cases hstep
      exact ⟨rfl, rfl, rfl, rfl, rfl, rfl, rfl, rfl⟩
  | linkStatus =>
    cases hstep
    exact ⟨rfl, rfl, rfl, rfl, rfl, rfl, rfl, rfl⟩
  | registerPacketHandler =>
    cases hstep
    unfold registerPacketHandler
    split <;> exact ⟨rfl, rfl, rfl, rfl, rfl, rfl, rfl, rfl⟩
  | interrupt =>
    rw [step, interrupt] at hstep
    split at hstep
    · cases hstep
    · dsimp only at hstep
      split at hstep
      · cases hstep
        exact ⟨rfl, rfl, rfl, rfl, rfl, rfl, rfl, rfl⟩
      · split at hstep
        · cases hstep
          exact ⟨rfl, rfl, rfl, rfl, rfl, rfl, rfl, rfl⟩
        · split at hstep <;> cases hstep <;> exact ⟨rfl, rfl, rfl, rfl, rfl, rfl, rfl, rfl⟩
  | getReadBuffer =>
    rw [step, getReadBuffer] at hstep
    split at hstep
    · cases hstep
    · split at hstep <;> cases hstep <;> exact ⟨rfl, rfl, rfl, rfl, rfl, rfl, rfl, rfl⟩
  | finishReadBuffer =>
    rw [step, finishReadBuffer] at hstep
    split at hstep
    · cases hstep
    · cases hstep
      unfold PhysicalNetworkInterface.finishReadBuffer
      split <;> exact ⟨rfl, rfl, rfl, rfl, rfl, rfl, rfl, rfl⟩

/-! ## Steps of the senders -/

/-- The next descriptor is free unless all eight are outstanding. -/
theorem Transmits.currentTx_free_iff (h : s.Transmits outstanding) :
    (s.interface.txDescs s.interface.currentTx).status ≠ 0 ↔ outstanding.length < 8 := by
  constructor
  · intro hfree
    exact h.ring.lt_of_free (txEntry_of_free hfree)
  · intro hlt hbusy
    have hslot := h.ring.slot outstanding.length hlt
    rw [← h.ring.producer, List.getElem?_eq_none (Nat.le_refl _)] at hslot
    exact txEntry_of_busy (h.formed _ hbusy) hbusy hslot

/-- All descriptors are outstanding exactly if there are eight. -/
theorem Transmits.all_busy_iff (h : s.Transmits outstanding) :
    (∀ i, (s.interface.txDescs i).status = 0) ↔ outstanding.length = 8 := by
  have hle : outstanding.length ≤ 8 := h.ring.le
  constructor
  · intro hall
    by_contra hne
    exact h.currentTx_free_iff.mpr (by omega) (hall _)
  · intro hfull i
    by_contra hfree
    -- every index is some places behind the head
    obtain ⟨k, hk, hi⟩ : ∃ k, k < 8 ∧ slot s.registers.tdh k = i := by
      have htdh := s.registers.tdh.isLt
      have hi := i.isLt
      have hn : NUM_TX_DESCRIPTORS = 8 := rfl
      refine ⟨(i.val + 8 - s.registers.tdh.val) % 8, Nat.mod_lt _ (by decide), Fin.ext ?_⟩
      simp only [slot, hn] at htdh hi ⊢
      omega
    have hslot := h.ring.slot k hk
    rw [hi, txEntry_of_free hfree, List.getElem?_eq_getElem (by omega)] at hslot
    cases hslot

theorem transmits_write (h : s.Transmits outstanding) {frame : List UInt8} (hframe : frame.length ≤ TX_BUFFER_SIZE) :
    Transmits { s with interface := s.interface.write frame } outstanding := by
  unfold PhysicalNetworkInterface.write getWriteBuffer
  by_cases hbusy : (s.interface.txDescs s.interface.currentTx).status = 0
  · rw [if_pos hbusy]
    exact h
  · rw [if_neg hbusy]
    refine ⟨?_, h.tail, h.formed, h.sends⟩
    have hentry : txEntry { s.interface with
        txBufferSpace := putBytes s.interface.txBufferSpace (TX_BUFFER_SIZE * s.interface.currentTx) frame } =
        s.interface.txEntry := by
      funext i
      refine txEntry_congr rfl (h.formed i) fun hi length hlength => ?_
      have hne : i ≠ s.interface.currentTx := by
        rintro rfl
        exact hbusy hi
      exact bytesFrom_putBytes _ (Fin.val_ne_of_ne hne) hlength hframe
    dsimp only
    rw [hentry]
    exact h.ring

/-- A frame that is taken goes to the end of what is outstanding. -/
theorem transmits_finishWriteBuffer (h : s.Transmits outstanding) (length : UInt32) (isIpv4Packet : Bool) :
    s.finishWriteBuffer length isIpv4Packet = s ∨ ∃ f, (s.finishWriteBuffer length isIpv4Packet).queued = s.queued ++ [f] ∧
      (s.finishWriteBuffer length isIpv4Packet).Transmits (outstanding ++ [.frame f]) := by
  unfold finishWriteBuffer PhysicalNetworkInterface.finishWriteBuffer
  cases hview : s.interface.descriptorFor length isIpv4Packet with
  | none => exact .inl rfl
  | some view =>
    right
    have hcall := hview
    unfold descriptorFor at hcall
    split at hcall
    · cases hcall
    split at hcall
    · cases hcall
    rename_i hmax
    split at hcall
    · cases hcall
    rename_i hfree
    rw [Nat.not_lt] at hmax
    have hlength := toNat_length hmax
    -- the bytes are those in the write buffer, for either kind of descriptor
    have hnew : s.interface.Formed s.interface.currentTx view ∧
        txEntry { s.interface with txDescs := Function.update s.interface.txDescs s.interface.currentTx ⟨view, 0⟩ }
          s.interface.currentTx = some (.frame (bytesFrom s.interface.txBufferSpace
            (TX_BUFFER_SIZE * s.interface.currentTx) length.toNat, isIpv4Packet)) := by
      split at hcall
      · rename_i hkind
        cases hcall
        refine ⟨.inr ⟨length, hmax, .inl rfl⟩, ?_⟩
        simp only [Bool.not_eq_true'] at hkind
        simp [txEntry, legacyDescriptor, hlength, hkind]
      · rename_i hkind
        simp only [Bool.not_eq_true', Bool.not_eq_false] at hkind
        split at hcall
        · cases hcall
        · cases hcall
          refine ⟨.inr ⟨length, hmax, .inr rfl⟩, ?_⟩
          simp [txEntry, dataDescriptor, hlength, hkind]
    refine ⟨_, rfl, ?_, .inl rfl, fun i hi => ?_, ?_⟩
    · have hentry : txEntry { s.interface with
          txDescs := Function.update s.interface.txDescs s.interface.currentTx ⟨view, 0⟩
          currentTx := slot s.interface.currentTx 1 } =
          Function.update s.interface.txEntry s.interface.currentTx (some (.frame (bytesFrom s.interface.txBufferSpace
            (TX_BUFFER_SIZE * s.interface.currentTx) length.toNat, isIpv4Packet))) := by
        funext i
        by_cases hi : i = s.interface.currentTx
        · subst hi
          rw [Function.update_self]
          exact hnew.2
        · rw [Function.update_of_ne hi]
          exact txEntry_congr (Function.update_of_ne hi _ _) (h.formed i) fun _ _ _ => rfl
      dsimp only [Option.map_some]
      rw [hentry]
      exact h.ring.push (txEntry_of_free hfree) _
    · dsimp only [Option.map_some] at hi ⊢
      by_cases hcur : i = s.interface.currentTx
      · subst hcur
        simp only [Function.update_self]
        exact hnew.1
      · simp only [Function.update_of_ne hcur] at hi ⊢
        exact h.formed i hi
    · rcases h.sends with ⟨hout, hsent⟩ | ⟨hoffload, out, left, hqueued, hout, hsent⟩
      · left
        refine ⟨?_, hsent⟩
        dsimp only [Option.map_some]
        rw [hout, List.map_append]
        rfl
      · right
        refine ⟨hoffload, out, left ++ [(bytesFrom s.interface.txBufferSpace
          (TX_BUFFER_SIZE * s.interface.currentTx) length.toNat, isIpv4Packet)], ?_, ?_, hsent⟩
        · dsimp only [Option.map_some]
          rw [hqueued, List.append_assoc]
        · rw [hout, List.map_append]
          rfl

/-! ## Steps of the card -/

/-- Behind a descriptor that the driver has written with the RS bit set. -/
theorem txEntry_processed (h : s.Transmits outstanding) {command : UInt8} (hrs : command &&& CMD_RS ≠ 0) :
    (s.processed command).interface.txEntry = Function.update s.interface.txEntry s.registers.tdh none := by
  funext i
  by_cases hi : i = s.registers.tdh
  · subst hi
    rw [Function.update_self]
    refine txEntry_of_free ?_
    simp [processed, hrs, TSTA_DD]
  · rw [Function.update_of_ne hi]
    exact txEntry_congr (Function.update_of_ne hi _ _) (h.formed i) fun _ _ _ => rfl

theorem formed_processed (h : s.Transmits outstanding) {command : UInt8} (hrs : command &&& CMD_RS ≠ 0) {i : TxIndex}
    (hi : ((s.processed command).interface.txDescs i).status = 0) :
    (s.processed command).interface.Formed i ((s.processed command).interface.txDescs i).view := by
  by_cases htdh : i = s.registers.tdh
  · subst htdh
    simp [processed, hrs, TSTA_DD] at hi
  · simp only [processed, Function.update_of_ne htdh] at hi ⊢
    exact h.formed i hi

/-- The oldest of the outstanding descriptors is processed: the context is
loaded, a frame goes out. -/
theorem transmits_transmit {e : TxEntry} {rest : List TxEntry} (h : s.Transmits (e :: rest))
    (htail : s.registers.tdh ≠ s.registers.tdt) : ∃ t, s.transmit = some t ∧ t.Transmits rest ∧
      t.queued = s.queued ∧ t.registers.tdt = s.registers.tdt ∧ t.interface.currentTx = s.interface.currentTx := by
  have hhead : s.interface.txEntry s.registers.tdh = some e := h.ring.head
  have hcur : s.registers.tdt = s.interface.currentTx := by
    rcases h.tail with heq | ⟨_, heq⟩
    · exact heq
    · exact absurd heq.symm htail
  have hbusy : (s.interface.txDescs s.registers.tdh).status = 0 := by
    by_contra hfree
    rw [txEntry_of_free hfree] at hhead
    cases hhead
  have hcontext : (checksumContext.tucmd &&& CMD_RS ≠ 0) ∧
      ¬ (checksumContext.tucmd &&& CMD_DEXT = 0 ∨ checksumContext.paylenHighAndDtyp >>> 4 ≠ 0) := by decide
  have hring {command : UInt8} (hrs : command &&& CMD_RS ≠ 0) :
      Cyclic.Holds (s.processed command).interface.txEntry (slot s.registers.tdh 1) s.interface.currentTx rest := by
    rw [txEntry_processed h hrs]
    exact h.ring.pop
  unfold txEntry at hhead
  rw [if_neg (by simp [hbusy])] at hhead
  unfold transmit
  rw [if_neg htail]
  rcases h.formed _ hbusy with hview | ⟨length, hmax, hview | hview⟩
  · rw [hview] at hhead ⊢
    cases hhead
    dsimp only
    rw [if_neg hcontext.2]
    refine ⟨_, rfl, ⟨hring hcontext.1, .inl hcur, fun i hi => formed_processed h hcontext.1 hi, ?_⟩, rfl, rfl, rfl⟩
    rcases h.sends with ⟨hout, hsent⟩ | ⟨_, out, left, _, hout, _⟩
    · right
      refine ⟨rfl, [], s.queued, rfl, ?_, hsent⟩
      exact (List.cons.inj hout).2
    · cases left <;> cases hout
  · rw [hview] at hhead ⊢
    cases hhead
    have hrs : (s.interface.legacyDescriptor length).cmd &&& CMD_RS ≠ 0 := by
      simp only [legacyDescriptor]
      decide
    have hkind : ¬ ((legacyDescriptor { s.interface with currentTx := s.registers.tdh } length).cmd &&& CMD_DEXT ≠ 0 ∨
        (legacyDescriptor { s.interface with currentTx := s.registers.tdh } length).cmd &&& CMD_EOP = 0) := by
      simp only [legacyDescriptor]
      decide
    dsimp only
    rw [if_neg hkind]
    refine ⟨_, rfl, ⟨hring hrs, .inl hcur, fun i hi => formed_processed h hrs hi, ?_⟩, rfl, rfl, rfl⟩
    rcases h.sends with ⟨hout, _⟩ | ⟨hoffload, out, left, hqueued, hout, hsent⟩
    · cases hout
    · cases left with
      | nil => cases hout
      | cons f left =>
        rw [List.map_cons, List.cons.injEq, TxEntry.frame.injEq] at hout
        refine .inr ⟨hoffload, out ++ [f], left, ?_, hout.2, ?_⟩
        · rw [List.append_assoc]
          exact hqueued
        · dsimp only
          rw [hsent, List.map_append, ← hout.1]
          rfl
  · rw [hview] at hhead ⊢
    cases hhead
    have hrs : (s.interface.dataDescriptor length).dcmd &&& CMD_RS ≠ 0 := by
      simp only [dataDescriptor]
      decide
    have hkind : ¬ ((dataDescriptor { s.interface with currentTx := s.registers.tdh } length).dcmd &&& CMD_DEXT = 0 ∨
        (dataDescriptor { s.interface with currentTx := s.registers.tdh } length).dtalenHighAndDtype >>> 4 ≠ 1 ∨
        (dataDescriptor { s.interface with currentTx := s.registers.tdh } length).dcmd &&& CMD_EOP = 0) := by
      simp only [dataDescriptor]
      decide
    dsimp only
    rw [if_neg hkind]
    refine ⟨_, rfl, ⟨hring hrs, .inl hcur, fun i hi => formed_processed h hrs hi, ?_⟩, rfl, rfl, rfl⟩
    rcases h.sends with ⟨hout, _⟩ | ⟨hoffload, out, left, hqueued, hout, hsent⟩
    · cases hout
    · cases left with
      | nil => cases hout
      | cons f left =>
        rw [List.map_cons, List.cons.injEq, TxEntry.frame.injEq] at hout
        refine .inr ⟨hoffload, out ++ [f], left, ?_, hout.2, ?_⟩
        · rw [List.append_assoc]
          exact hqueued
        · dsimp only
          rw [hsent, List.map_append, hoffload, offloaded_dataDescriptor, ← hout.1]
          rfl

theorem ne_nil_of_transmit (h : s.Transmits outstanding) (ht : s.transmit = some t) : outstanding ≠ [] := by
  rintro rfl
  have hempty : s.registers.tdh = s.registers.tdt := by
    rcases h.tail with heq | ⟨hno, _⟩
    · rw [heq, h.ring.producer]
      exact (slot_zero _).symm
    · cases hno
  rw [transmit, if_pos hempty] at ht
  cases ht

/-! ## Runs -/

/-- A step keeps the order; with eight outstanding it changes nothing. -/
theorem transmits_step (h : s.Transmits outstanding) {l : CardStep} (hstep : s.step l = some t) :
    ∃ outstanding', t.Transmits outstanding' ∧
      (outstanding.length = 8 → outstanding' = outstanding ∧ t.sent = s.sent ∧ t.queued = s.queued) := by
  cases l with
  | transmit =>
    have hne := ne_nil_of_transmit h hstep
    obtain ⟨e, rest, rfl⟩ := List.exists_cons_of_ne_nil hne
    have htail : s.registers.tdh ≠ s.registers.tdt := by
      intro heq
      rw [step, transmit, if_pos heq] at hstep
      cases hstep
    obtain ⟨u, hu, hnext, _⟩ := transmits_transmit h htail
    rw [step, hu, Option.some.injEq] at hstep
    subst hstep
    refine ⟨rest, hnext, fun hfull => ?_⟩
    -- eight places behind the head is the head
    have hround : s.registers.tdh = s.registers.tdt := by
      rcases h.tail with heq | ⟨hone, _⟩
      · rw [heq, h.ring.producer, hfull]
        exact (slot_n _).symm
      · rw [hone] at hfull
        simp at hfull
    exact absurd hround htail
  | write frame =>
    rw [step] at hstep
    split at hstep
    · cases hstep
    · rename_i hframe
      cases hstep
      exact ⟨outstanding, transmits_write h (by omega), fun _ => ⟨rfl, rfl, rfl⟩⟩
  | finishWriteBuffer length isIpv4Packet =>
    cases hstep
    rcases transmits_finishWriteBuffer h length isIpv4Packet with hsame | ⟨f, _, hnext⟩
    · rw [hsame]
      exact ⟨outstanding, h, fun _ => ⟨rfl, rfl, rfl⟩⟩
    · refine ⟨_, hnext, fun hfull => ?_⟩
      have hle : (outstanding ++ [TxEntry.frame f]).length ≤ 8 := hnext.ring.le
      rw [List.length_append, List.length_singleton] at hle
      omega
  | receive | writeBack | linkStatus | registerPacketHandler | interrupt | getReadBuffer | finishReadBuffer =>
    have hsame := sameSender_step hstep (by simp) (by simp) (by simp)
    exact ⟨outstanding, h.same hsame, fun _ => ⟨rfl, hsame.sent, hsame.queued⟩⟩

theorem transmits_inductive : cardLTS.Inductive fun s => ∃ outstanding, s.Transmits outstanding where
  init := by
    rintro s ⟨rxBuffers, txBuffers, rxLength, ctrl, rfl⟩
    exact ⟨_, transmits_init rxBuffers txBuffers rxLength ctrl⟩
  step := by
    rintro s l t ⟨outstanding, h⟩ hstep
    obtain ⟨outstanding', hnext, _⟩ := transmits_step h hstep
    exact ⟨outstanding', hnext⟩

/-! ## Every frame once, in order -/

/-- The card by itself sends what has been queued. -/
def Flushes (s : NetworkCard) : Prop :=
  ∃ ls t, cardLTS.Run s ls t ∧ (∀ l ∈ ls, l = .transmit) ∧ t.sent = s.queued.map onWire ∧ t.queued = s.queued

theorem flushes_of_tail (h : s.Transmits outstanding) (hlt : outstanding.length < 8)
    (htail : s.registers.tdt = s.interface.currentTx) : s.Flushes := by
  induction outstanding generalizing s with
  | nil =>
    refine ⟨[], s, .nil s, by simp, ?_, rfl⟩
    rcases h.sends with ⟨hout, _⟩ | ⟨_, out, left, hqueued, hout, hsent⟩
    · cases hout
    · cases left with
      | nil => rw [hsent, hqueued, List.append_nil]
      | cons f left => cases hout
  | cons e rest ih =>
    have hne : s.registers.tdh ≠ s.registers.tdt := by
      rw [htail, h.ring.producer]
      intro heq
      have hzero := slot_inj s.registers.tdh firstTx_lt hlt ((slot_zero _).trans heq)
      simp at hzero
    obtain ⟨u, hu, hnext, hqueued, htdt, hcur⟩ := transmits_transmit h hne
    rw [List.length_cons] at hlt
    obtain ⟨ls, t, hrun, hls, hsent, hqueued'⟩ := ih hnext (by omega) (by rw [htdt, hcur, htail])
    refine ⟨.transmit :: ls, t, .cons hu hrun, ?_, by rw [hsent, hqueued], by rw [hqueued', hqueued]⟩
    simpa using hls

structure SentInOrder (s : NetworkCard) : Prop where
  inOrder : s.sent <+: s.queued.map onWire
  few : s.queued.length ≤ s.sent.length + 8
  flushes : (∃ i, (s.interface.txDescs i).status ≠ 0) → s.Flushes

/-- In any interleaving of the card, the interrupt handler and the senders,
what goes out are the frames that `finishWriteBuffer` took, each once, in
order and with the bytes of the call; as long as a descriptor is free, the
card alone sends the rest. -/
theorem sent_in_order (s : NetworkCard) (hs : cardLTS.Reachable s) : s.SentInOrder := by
  obtain ⟨outstanding, h⟩ := transmits_inductive.reachable s hs
  have hle : outstanding.length ≤ 8 := h.ring.le
  constructor
  · rcases h.sends with ⟨_, hsent⟩ | ⟨_, out, left, hqueued, _, hsent⟩
    · rw [hsent]
      exact List.nil_prefix
    · rw [hsent, hqueued, List.map_append]
      exact List.prefix_append _ _
  · rcases h.sends with ⟨hout, _⟩ | ⟨_, out, left, hqueued, hout, hsent⟩
    · rw [hout, List.length_cons, List.length_map] at hle
      omega
    · rw [hout, List.length_map] at hle
      rw [hsent, hqueued, List.length_append, List.length_map]
      omega
  · rintro ⟨i, hi⟩
    have hlt : outstanding.length < 8 := by
      by_contra hfull
      exact hi (h.all_busy_iff.mpr (by omega) i)
    rcases h.tail with htail | ⟨rfl, _⟩
    · exact flushes_of_tail h hlt htail
    · -- no frame has been queued yet
      refine ⟨[], s, .nil s, by simp, ?_, rfl⟩
      rcases h.sends with ⟨hout, hsent⟩ | ⟨_, out, left, _, hout, _⟩
      · rw [List.cons.injEq] at hout
        rw [hsent, List.map_eq_nil_iff.mp hout.2.symm]
        rfl
      · cases left <;> cases hout

/-- Three frames, of which one has gone out. -/
theorem sent_in_order_three : ∃ s, cardLTS.Reachable s ∧ s.queued.length = 3 ∧ s.sent.length = 1 ∧ s.SentInOrder := by
  have hstate : ((blankCard.steps [.write (List.replicate 60 1), .finishWriteBuffer 60 false, .finishWriteBuffer 60 true,
      .transmit, .transmit, .finishWriteBuffer 1514 true]).map fun s => (s.queued.length, s.sent.length)) = some (3, 1) := by
    decide +kernel
  obtain ⟨s, hrun, hs⟩ := Option.map_eq_some_iff.mp hstate
  simp only [Prod.mk.injEq] at hs
  have hreach : cardLTS.Reachable s := ⟨blankCard, _, ⟨_, _, _, _, rfl⟩, run_of_cardSteps hrun⟩
  exact ⟨s, hreach, hs.1, hs.2, sent_in_order s hreach⟩

theorem stopped_run {ls : List CardStep} (hr : cardLTS.Run s ls t) (h : s.Transmits outstanding) (hfull : outstanding.length = 8) :
    t.sent = s.sent ∧ t.queued = s.queued := by
  induction hr generalizing outstanding with
  | nil s => exact ⟨rfl, rfl⟩
  | cons hstep _ ih =>
    obtain ⟨outstanding', hnext, hstays⟩ := transmits_step h hstep
    obtain ⟨rfl, hsent, hqueued⟩ := hstays hfull
    obtain ⟨hsent', hqueued'⟩ := ih hnext hfull
    exact ⟨hsent'.trans hsent, hqueued'.trans hqueued⟩

/-- Nothing is ever sent or taken again exactly if all eight descriptors are
outstanding at once. -/
theorem transmission_stops (s : NetworkCard) (hs : cardLTS.Reachable s) :
    (∀ ls t, cardLTS.Run s ls t → t.sent = s.sent ∧ t.queued = s.queued) ↔ ∀ i, (s.interface.txDescs i).status = 0 := by
  obtain ⟨outstanding, h⟩ := transmits_inductive.reachable s hs
  rw [h.all_busy_iff]
  constructor
  · intro hstopped
    by_contra hne
    have hle : outstanding.length ≤ 8 := h.ring.le
    have hfree := h.currentTx_free_iff.mpr (by omega)
    -- the smallest frame is taken
    have hview : s.interface.descriptorFor 14 false = some (.legacy (s.interface.legacyDescriptor 14)) := by
      simp [descriptorFor, hfree, ETHERNET_SIMPLE_HEADER_SIZE, ETHERNET_MTU]
    have hqueued := (hstopped [.finishWriteBuffer 14 false] _ (.cons rfl (.nil _))).2
    unfold finishWriteBuffer PhysicalNetworkInterface.finishWriteBuffer at hqueued
    rw [hview] at hqueued
    simp at hqueued
  · intro hfull ls t hr
    exact stopped_run hr h hfull

/-- Seven frames before the card gets to the context descriptor. -/
theorem transmission_stops_seven : ∃ s, cardLTS.Reachable s ∧ s.queued.length = 7 ∧ s.sent = [] ∧
    ((∀ ls t, cardLTS.Run s ls t → t.sent = s.sent ∧ t.queued = s.queued) ↔ ∀ i, (s.interface.txDescs i).status = 0) ∧
    ∀ i, (s.interface.txDescs i).status = 0 := by
  have hstate : ((blankCard.steps (List.replicate 7 (.finishWriteBuffer 60 false))).map fun s =>
      (s.queued.length, s.sent, decide (∀ i, (s.interface.txDescs i).status = 0))) = some (7, [], true) := by decide +kernel
  obtain ⟨s, hrun, hs⟩ := Option.map_eq_some_iff.mp hstate
  simp only [Prod.mk.injEq, decide_eq_true_eq] at hs
  have hreach : cardLTS.Reachable s := ⟨blankCard, _, ⟨_, _, _, _, rfl⟩, run_of_cardSteps hrun⟩
  exact ⟨s, hreach, hs.1, hs.2.1, transmission_stops s hreach, hs.2.2⟩

end NetworkCard

end CpuScheduler.L2
