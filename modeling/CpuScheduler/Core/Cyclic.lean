import Mathlib

/-!
# Cyclic buffers

`n` slots, a producer at `tx` and a consumer at `rx` that both go round.
`Cyclic.Holds slots rx tx xs`: the occupied slots are the cyclic interval from
`rx` to `tx`, and read from `rx` on they hold the list `xs`. When `tx` has
caught up with `rx`, `xs` has length `n`, so full and empty are not confused.
-/
namespace CpuScheduler.Cyclic

variable {n : Nat} {α : Type} {slots : Fin n → Option α} {rx tx : Fin n} {xs : List α} {x : α}

/-- The slot `k` places behind `i`. -/
def slot (i : Fin n) (k : Nat) : Fin n := ⟨(i.val + k) % n, Nat.mod_lt _ i.pos⟩

structure Holds (slots : Fin n → Option α) (rx tx : Fin n) (xs : List α) : Prop where
  le : xs.length ≤ n
  producer : tx = slot rx xs.length
  slot : ∀ k, k < n → slots (slot rx k) = xs[k]?

@[simp] theorem slot_zero (i : Fin n) : slot i 0 = i := Fin.ext (Nat.mod_eq_of_lt i.isLt)

theorem slot_slot (i : Fin n) (j k : Nat) : slot (slot i j) k = slot i (j + k) := by
  apply Fin.ext
  simp [slot, Nat.add_assoc]

theorem slot_n (i : Fin n) : slot i n = i := by
  apply Fin.ext
  simp [slot, Nat.mod_eq_of_lt i.isLt]

theorem slot_inj (i : Fin n) {j k : Nat} (hj : j < n) (hk : k < n) (h : slot i j = slot i k) : j = k := by
  have hi := i.isLt
  have hmod : (i.val + j) % n = (i.val + k) % n := congrArg Fin.val h
  rcases Nat.lt_or_ge (i.val + j) n with h1 | h1 <;> rcases Nat.lt_or_ge (i.val + k) n with h2 | h2
  · rw [Nat.mod_eq_of_lt h1, Nat.mod_eq_of_lt h2] at hmod
    omega
  · rw [Nat.mod_eq_of_lt h1, Nat.mod_eq_sub_mod h2, Nat.mod_eq_of_lt (by omega)] at hmod
    omega
  · rw [Nat.mod_eq_sub_mod h1, Nat.mod_eq_of_lt (by omega), Nat.mod_eq_of_lt h2] at hmod
    omega
  · rw [Nat.mod_eq_sub_mod h1, Nat.mod_eq_of_lt (by omega), Nat.mod_eq_sub_mod h2,
      Nat.mod_eq_of_lt (by omega)] at hmod
    omega

namespace Holds

theorem empty (i : Fin n) : Holds (fun _ : Fin n => (none : Option α)) i i [] :=
  ⟨Nat.zero_le n, (slot_zero i).symm, fun _ _ => rfl⟩

/-- The next slot to read has the oldest value. -/
theorem head (h : Holds slots rx tx xs) : slots rx = xs.head? := by
  have h0 := h.slot 0 rx.pos
  rw [slot_zero] at h0
  rw [h0, List.head?_eq_getElem?]

theorem nil_of_none (h : Holds slots rx tx xs) (hr : slots rx = none) : xs = [] := by
  rw [h.head] at hr
  exact List.head?_eq_none_iff.mp hr

/-- The next slot to write is free, unless all are occupied. -/
theorem lt_of_free (h : Holds slots rx tx xs) (ht : slots tx = none) : xs.length < n := by
  rcases Nat.lt_or_eq_of_le h.le with hlt | heq
  · exact hlt
  · rw [h.producer, heq, slot_n] at ht
    have hnil := h.nil_of_none ht
    subst hnil
    exact absurd heq (Nat.ne_of_lt rx.pos)

theorem push (h : Holds slots rx tx xs) (ht : slots tx = none) (x : α) :
    Holds (Function.update slots tx (some x)) rx (Cyclic.slot tx 1) (xs ++ [x]) where
  le := by
    have hlt := h.lt_of_free ht
    rw [List.length_append]
    exact hlt
  producer := by rw [h.producer, slot_slot, List.length_append, List.length_singleton]
  slot k hk := by
    have hlt := h.lt_of_free ht
    by_cases hkx : k = xs.length
    · rw [hkx, ← h.producer, Function.update_self, List.getElem?_concat_length]
    · have hne : Cyclic.slot rx k ≠ tx := fun he => hkx (slot_inj rx hk hlt (he.trans h.producer))
      rw [Function.update_of_ne hne, h.slot k hk]
      rcases Nat.lt_or_gt_of_ne hkx with hl | hg
      · rw [List.getElem?_append_left hl]
      · rw [List.getElem?_eq_none (by omega), List.getElem?_eq_none (by simp; omega)]

theorem pop (h : Holds slots rx tx (x :: xs)) : Holds (Function.update slots rx none) (Cyclic.slot rx 1) tx xs where
  le := Nat.le_of_succ_le h.le
  producer := by rw [h.producer, slot_slot, List.length_cons, Nat.add_comm]
  slot k hk := by
    have hlen : xs.length + 1 ≤ n := h.le
    rw [slot_slot]
    by_cases hlast : 1 + k = n
    · rw [hlast, slot_n, Function.update_self, List.getElem?_eq_none (by omega)]
    · have hne : Cyclic.slot rx (1 + k) ≠ rx := by
        intro he
        have h0 := slot_inj rx (by omega) rx.pos (he.trans (slot_zero rx).symm)
        omega
      rw [Function.update_of_ne hne, h.slot (1 + k) (by omega), Nat.add_comm 1 k, List.getElem?_cons_succ]

end Holds

end CpuScheduler.Cyclic
