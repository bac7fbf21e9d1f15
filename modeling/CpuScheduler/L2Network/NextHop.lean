import CpuScheduler.L2Network.ArpTable

/-!
# The next hop

A packet goes to its destination if the first `networkMask` bits of the two
addresses agree, and to the gateway otherwise: `prefixHop`. The constructor
takes the lengths 0 to 32. For 0 the source shifts by 32, which the processor
takes for a shift by 0: all 32 bits are compared instead of none, and a host
outside of any network sends to its gateway.
-/
namespace CpuScheduler.L2

open Word NetworkStackHandler

variable {n h l : Nat}

theorem mask_eq_iff (a b : UInt32) {k : Nat} (hk : k < 32) :
    a &&& ((0xFFFFFFFF : UInt32) <<< k.toUInt32) = b &&& ((0xFFFFFFFF : UInt32) <<< k.toUInt32) ↔
      a.toNat / 2 ^ k = b.toNat / 2 ^ k := by
  rw [← UInt32.toNat_inj, toNat_and_mask a hk, toNat_and_mask b hk]
  exact Nat.mul_left_inj (Nat.two_pow_pos k).ne'

namespace NetworkStackHandler

/-- The destination, if the first `networkMask` bits agree, else the gateway. -/
def prefixHop (s : NetworkStackHandler n h l) (destinationIP : UInt32) : UInt32 :=
  if destinationIP.toNat / 2 ^ (32 - s.networkMask) = s.myIP.toNat / 2 ^ (32 - s.networkMask) then destinationIP
  else s.gatewayIP

/-- The host that is looked up in the ARP table, asked for and sent to. -/
structure FollowsPrefix [NeZero h] (s : NetworkStackHandler n h l) (destinationIP : UInt32) : Prop where
  nextHop : s.nextHopIP destinationIP = s.prefixHop destinationIP
  outgoing : ∀ a : OutgoingArgs, a.destinationIP = destinationIP →
    OutgoingCase s a (s.prefixHop destinationIP) (s.outgoing a).1 (s.outgoing a).2

theorem followsPrefix_iff_nextHop [NeZero h] (s : NetworkStackHandler n h l) (destinationIP : UInt32) :
    s.FollowsPrefix destinationIP ↔ s.nextHopIP destinationIP = s.prefixHop destinationIP := by
  refine ⟨fun hf => hf.nextHop, fun heq => ⟨heq, fun a ha => ?_⟩⟩
  have hcase := outgoing_cases s a
  rwa [ha, heq] at hcase

theorem nextHopIP_of_pos {s : NetworkStackHandler n h l} (hm : s.networkMask ≠ 0) (destinationIP : UInt32) :
    s.nextHopIP destinationIP = s.prefixHop destinationIP := by
  unfold nextHopIP prefixHop
  exact if_congr (mask_eq_iff _ _ (by omega)) rfl rfl

/-- Without a prefix the whole addresses are compared. -/
theorem nextHopIP_of_zero {s : NetworkStackHandler n h l} (hm : s.networkMask = 0) (destinationIP : UInt32) :
    s.nextHopIP destinationIP = if destinationIP = s.myIP then destinationIP else s.gatewayIP := by
  have hshift : (0xFFFFFFFF : UInt32) <<< (32 - 0).toUInt32 = 0xFFFFFFFF := by decide
  have hall (a : UInt32) : a &&& (0xFFFFFFFF : UInt32) = a := by
    have hmask := toNat_and_mask a (Nat.zero_lt_succ 31)
    rw [Nat.pow_zero, Nat.div_one, Nat.mul_one] at hmask
    exact UInt32.toNat_inj.mp hmask
  unfold nextHopIP
  dsimp only
  rw [hm, hshift, hall, hall]

theorem prefixHop_of_zero {s : NetworkStackHandler n h l} (hm : s.networkMask = 0) (destinationIP : UInt32) :
    s.prefixHop destinationIP = destinationIP := by
  have hdest : destinationIP.toNat / 2 ^ 32 = 0 := Nat.div_eq_of_lt destinationIP.toNat_lt
  have hmine : s.myIP.toNat / 2 ^ 32 = 0 := Nat.div_eq_of_lt s.myIP.toNat_lt
  unfold prefixHop
  rw [hm, Nat.sub_zero, hdest, hmine, if_pos rfl]

/-- The next hop follows the prefix unless the prefix is empty and the packet
is for another host, which is not the gateway. -/
theorem followsPrefix_iff [NeZero h] (s : NetworkStackHandler n h l) (destinationIP : UInt32) :
    s.FollowsPrefix destinationIP ↔ s.networkMask ≠ 0 ∨ destinationIP = s.myIP ∨ destinationIP = s.gatewayIP := by
  rw [followsPrefix_iff_nextHop]
  by_cases hm : s.networkMask = 0
  · rw [nextHopIP_of_zero hm, prefixHop_of_zero hm]
    by_cases hmine : destinationIP = s.myIP
    · simp [hmine]
    · rw [if_neg hmine]
      simp [hm, hmine, eq_comm]
  · simp [hm, nextHopIP_of_pos hm]

end NetworkStackHandler

/-- With 24 bits the subnet's hosts are addressed themselves, others through the gateway. -/
theorem followsPrefix_iff_twoBuffers : twoBuffers.FollowsPrefix 0x0A000002 ∧ twoBuffers.prefixHop 0x0A000002 = 0x0A000002 ∧
    twoBuffers.FollowsPrefix 0x08080808 ∧ twoBuffers.prefixHop 0x08080808 = 0x0A0000FE := by
  refine ⟨(followsPrefix_iff twoBuffers _).mpr (.inl ?_), by decide, (followsPrefix_iff twoBuffers _).mpr (.inl ?_), by decide⟩
  · decide
  · decide

theorem neZero_two : NeZero 2 := ⟨Nat.succ_ne_zero 1⟩

/-- Host 10.0.0.1 with an empty prefix, gateway 10.0.0.254. -/
def emptyPrefix : NetworkStackHandler 2 1 1 :=
  @init 2 1 1 neZero_two (blank 2 1 1) (fun _ => 2) 0x0A000001 0x0A0000FE 0

def toEights : OutgoingArgs := ⟨0x08080808, 9000, 1000, 17, some fun _ => 0, 1, 0, 0, some fun _ => 0⟩

/-- The first frame for 8.8.8.8 asks for the gateway. -/
theorem emptyPrefix_asks_gateway : (handlerLTS 2 1 1).init emptyPrefix ∧ emptyPrefix.networkMask = 0 ∧
    (List.range 4).map (fun i => (emptyPrefix.outgoing toEights).1.writeBuffer (38 + i)) = [10, 0, 0, 254] ∧
    emptyPrefix.prefixHop toEights.destinationIP = 0x08080808 ∧ ¬ emptyPrefix.FollowsPrefix 0x08080808 := by
  refine ⟨⟨_, _, _, _, _, rfl⟩, rfl, by decide, prefixHop_of_zero rfl _, ?_⟩
  intro hf
  have hhop := hf.nextHop
  rw [nextHopIP_of_zero rfl, prefixHop_of_zero rfl] at hhop
  exact absurd hhop (by decide)

end CpuScheduler.L2
