import Mathlib

/-!
# Spans of 32-bit addresses

A span is a number of addresses from a start address on, counting past the
end of the address space from zero again. Spans that start at known distances
from one base are compared by their distances (`within_of_le`,
`apart_of_le`); everything else follows from `Within` and `Apart`.
-/
namespace CpuScheduler

structure Span where
  start : UInt32
  size : Nat
  deriving DecidableEq, Repr

namespace Span

/-- `x` is one of the addresses. -/
def Mem (a : Span) (x : UInt32) : Prop := (x - a.start).toNat < a.size

instance (a : Span) (x : UInt32) : Decidable (a.Mem x) := inferInstanceAs (Decidable (_ < _))

def Within (a b : Span) : Prop := ∀ x, a.Mem x → b.Mem x

def Apart (a b : Span) : Prop := ∀ x, a.Mem x → ¬ b.Mem x

theorem Within.refl (a : Span) : a.Within a := fun _ h => h

theorem Within.trans {a b c : Span} (h1 : a.Within b) (h2 : b.Within c) : a.Within c :=
  fun x h => h2 x (h1 x h)

theorem Apart.symm {a b : Span} (h : a.Apart b) : b.Apart a := fun x hb ha => h x ha hb

theorem Apart.mono {a b a' b' : Span} (h : a.Apart b) (ha : a'.Within a) (hb : b'.Within b) : a'.Apart b' :=
  fun x hx hx' => h x (ha x hx) (hb x hx')

/-- A span without addresses. -/
theorem within_of_empty {a : Span} (b : Span) (h : a.size = 0) : a.Within b := by
  intro x hx
  unfold Mem at hx
  omega

theorem apart_of_empty {a : Span} (b : Span) (h : a.size = 0) : a.Apart b := by
  intro x hx
  unfold Mem at hx
  omega

/-- Distances from `base + k` and from `base`. -/
theorem toNat_sub_base (base x : UInt32) {k : Nat} (hk : k < 2 ^ 32) :
    (x - base).toNat = ((x - (base + UInt32.ofNat k)).toNat + k) % 2 ^ 32 := by
  have hx : x - base = (x - (base + UInt32.ofNat k)) + UInt32.ofNat k := by
    rw [sub_add_eq_sub_sub, sub_add_cancel]
  rw [hx, UInt32.toNat_add, UInt32.toNat_ofNat', Nat.mod_eq_of_lt hk]

theorem within_of_le {base : UInt32} {k n m : Nat} (h : k + n ≤ m) (hm : m ≤ 2 ^ 32) :
    Within ⟨base + UInt32.ofNat k, n⟩ ⟨base, m⟩ := by
  intro x hx
  unfold Mem at hx ⊢
  dsimp only at hx ⊢
  rw [toNat_sub_base base x (by omega : k < 2 ^ 32)]
  omega

theorem apart_of_le {base : UInt32} {j k m n : Nat} (h : j + m ≤ k) (hn : k + n ≤ 2 ^ 32) :
    Apart ⟨base + UInt32.ofNat j, m⟩ ⟨base + UInt32.ofNat k, n⟩ := by
  intro x hx hx'
  unfold Mem at hx hx'
  dsimp only at hx hx'
  have h1 := toNat_sub_base base x (by omega : j < 2 ^ 32)
  have h2 := toNat_sub_base base x (by omega : k < 2 ^ 32)
  omega

/-- The address at distance `k` is in the span. -/
theorem mem_of_lt {start : UInt32} {size k : Nat} (h : k < size) (hsize : size ≤ 2 ^ 32) :
    Mem ⟨start, size⟩ (start + UInt32.ofNat k) := by
  unfold Mem
  dsimp only
  rw [add_sub_cancel_left, UInt32.toNat_ofNat', Nat.mod_eq_of_lt (by omega)]
  exact h

end Span

end CpuScheduler
