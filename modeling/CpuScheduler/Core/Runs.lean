import Mathlib

/-!
# Runs of equal cells

`runLen P n p` is the number of positions from `p` on, at most `n`, that
satisfy `P` without a gap. The loops of an allocator that count or walk
until something changes compute it; `le_runLen_iff` is what proofs use.
-/
namespace CpuScheduler

variable {P : Nat → Bool}

def runLen (P : Nat → Bool) : Nat → Nat → Nat
  | 0, _ => 0
  | n + 1, p => if P p then runLen P n (p + 1) + 1 else 0

theorem le_runLen_iff {m n p : Nat} :
    m ≤ runLen P n p ↔ m ≤ n ∧ ∀ q, p ≤ q → q < p + m → P q = true := by
  induction n generalizing m p with
  | zero =>
    simp only [runLen, Nat.le_zero]
    constructor
    · intro h
      exact ⟨h, fun q _ _ => by omega⟩
    · intro h
      exact h.1
  | succ n ih =>
    cases m with
    | zero => simp only [Nat.zero_le, Nat.add_zero, true_and, true_iff]; intro q _ _; omega
    | succ m =>
      unfold runLen
      split
      · rename_i hp
        rw [Nat.succ_le_succ_iff, ih, Nat.succ_le_succ_iff]
        refine and_congr_right fun _ => ⟨fun h q h1 h2 => ?_, fun h q h1 h2 => h q (by omega) (by omega)⟩
        by_cases hq : q = p
        · exact hq ▸ hp
        · exact h q (by omega) (by omega)
      · rename_i hp
        constructor
        · intro h
          omega
        · intro h
          exact absurd (h.2 p (Nat.le_refl p) (by omega)) hp

theorem runLen_le (n p : Nat) : runLen P n p ≤ n := (le_runLen_iff.mp (Nat.le_refl _)).1

theorem of_lt_runLen {n p q : Nat} (h1 : p ≤ q) (h2 : q < p + runLen P n p) : P q = true :=
  (le_runLen_iff.mp (Nat.le_refl _)).2 q h1 h2

/-- The run ends at a position that does not satisfy `P`, or at the bound. -/
theorem runLen_stop {n p : Nat} (h : runLen P n p < n) : P (p + runLen P n p) = false := by
  by_contra hne
  have hnext : runLen P n p + 1 ≤ runLen P n p := by
    refine le_runLen_iff.mpr ⟨h, fun q h1 h2 => ?_⟩
    by_cases hq : q = p + runLen P n p
    · rw [hq]
      simpa using hne
    · exact of_lt_runLen (n := n) h1 (by omega)
  omega

theorem runLen_eq_iff {n p : Nat} : runLen P n p = n ↔ ∀ q, p ≤ q → q < p + n → P q = true := by
  have hle := runLen_le (P := P) n p
  constructor
  · intro h q h1 h2
    exact of_lt_runLen (n := n) h1 (by omega)
  · intro h
    have := le_runLen_iff.mpr ⟨Nat.le_refl n, h⟩
    omega

/-- A run is counted piece by piece: the second piece only if the first is
full. -/
theorem runLen_add (m n p : Nat) : runLen P (m + n) p =
    if runLen P m p = m then m + runLen P n (p + m) else runLen P m p := by
  induction m generalizing p with
  | zero => simp [runLen]
  | succ m ih =>
    rw [Nat.succ_add, runLen, runLen]
    by_cases hp : P p = true
    · have hpos : p + 1 + m = p + (m + 1) := by omega
      simp only [hp, if_true, ih, hpos, Nat.add_right_cancel_iff]
      split <;> omega
    · simp [hp]

theorem runLen_shift (k n p : Nat) : runLen P n (k + p) = runLen (fun q => P (k + q)) n p := by
  induction n generalizing p with
  | zero => rfl
  | succ n ih => rw [runLen, runLen, Nat.add_assoc, ih]

theorem runLen_congr {Q : Nat → Bool} {n p : Nat} (h : ∀ q, p ≤ q → q < p + n → P q = Q q) :
    runLen P n p = runLen Q n p := by
  induction n generalizing p with
  | zero => rfl
  | succ n ih =>
    rw [runLen, runLen, h p (Nat.le_refl p) (by omega), ih]
    intro q h1 h2
    exact h q (by omega) (by omega)

end CpuScheduler
