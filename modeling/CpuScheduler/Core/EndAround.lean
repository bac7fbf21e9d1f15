import Mathlib

/-!
# Sums with end-around carry

Words of `w` bits are added and the carry out of the top is added back at the
bottom: the one's complement sum. `endAroundSum_eq`: the sum of words is their
sum modulo `2 ^ w - 1`, where all ones stands for 0 as soon as one of the words
is not 0. So the order of the words does not matter, and a word that makes the
sum all ones is the complement of the sum of the others.
-/
namespace CpuScheduler.EndAround

/-- The carry is added back. -/
def wrap (w x : Nat) : Nat := if x < 2 ^ w then x else x % 2 ^ w + x / 2 ^ w

def endAroundSum (w : Nat) (words : List Nat) : Nat := words.foldl (fun c x => wrap w (c + x)) 0

/-- The word that stands for `x`: 0 only for 0. -/
def residue (w x : Nat) : Nat := if x = 0 then 0 else (x - 1) % (2 ^ w - 1) + 1

variable {w : Nat}

@[simp] theorem residue_zero : residue w 0 = 0 := rfl

theorem residue_of_lt {x : Nat} (hx : x < 2 ^ w) : residue w x = x := by
  unfold residue
  split
  · rename_i hzero
    exact hzero.symm
  · rw [Nat.mod_eq_of_lt (by omega)]
    omega

theorem residue_lt (hw : 0 < w) (x : Nat) : residue w x < 2 ^ w := by
  have hpow : 2 ≤ 2 ^ w := Nat.le_self_pow hw.ne' 2
  unfold residue
  split
  · omega
  · have hmod := Nat.mod_lt (x - 1) (show 0 < 2 ^ w - 1 by omega)
    omega

/-- Adding one word to a sum that has been wrapped. -/
theorem wrap_residue (hw : 0 < w) {x : Nat} (a : Nat) (hx : x < 2 ^ w) :
    wrap w (residue w a + x) = residue w (a + x) := by
  have hpow : 2 ≤ 2 ^ w := Nat.le_self_pow hw.ne' 2
  generalize hM : 2 ^ w = M at *
  by_cases ha : a = 0
  · subst ha
    rw [residue_zero, Nat.zero_add, residue_of_lt (by omega), wrap, hM, if_pos hx]
  · -- `a - 1` is `q` times all ones and a rest
    obtain ⟨q, r, hr, hq⟩ : ∃ q r, r < M - 1 ∧ a - 1 = (M - 1) * q + r :=
      ⟨(a - 1) / (M - 1), (a - 1) % (M - 1), Nat.mod_lt _ (by omega), (Nat.div_add_mod _ _).symm⟩
    have hra : residue w a = r + 1 := by
      rw [residue, if_neg ha, hM, hq, Nat.mul_add_mod, Nat.mod_eq_of_lt hr]
    have hrax : residue w (a + x) = (r + x) % (M - 1) + 1 := by
      rw [residue, if_neg (by omega), hM, show a + x - 1 = (M - 1) * q + (r + x) by omega, Nat.mul_add_mod]
    rw [hra, hrax, wrap, hM]
    split
    · rw [Nat.mod_eq_of_lt (by omega)]
      omega
    · have hcarry : r + 1 + x = M * 1 + (r + 1 + x - M) := by omega
      have hrest : r + x = (M - 1) * 1 + (r + x - (M - 1)) := by omega
      rw [hcarry, Nat.mul_add_mod, Nat.mul_add_div (by omega), hrest, Nat.mul_add_mod,
        Nat.mod_eq_of_lt (by omega), Nat.div_eq_of_lt (by omega), Nat.mod_eq_of_lt (by omega)]
      omega

theorem foldl_wrap (hw : 0 < w) (words : List Nat) (hwords : ∀ x ∈ words, x < 2 ^ w) (a : Nat) :
    words.foldl (fun c x => wrap w (c + x)) (residue w a) = residue w (a + words.sum) := by
  induction words generalizing a with
  | nil => rfl
  | cons x words ih =>
    rw [List.foldl_cons, wrap_residue hw a (hwords x List.mem_cons_self), List.sum_cons, ← Nat.add_assoc]
    exact ih (fun y hy => hwords y (List.mem_cons_of_mem x hy)) (a + x)

theorem endAroundSum_eq (hw : 0 < w) {words : List Nat} (hwords : ∀ x ∈ words, x < 2 ^ w) :
    endAroundSum w words = residue w words.sum := by
  have hfold := foldl_wrap hw words hwords 0
  rwa [residue_zero, Nat.zero_add] at hfold

/-- A sum and its complement give all ones. -/
theorem residue_add_complement (hw : 0 < w) (x : Nat) : residue w (x + (2 ^ w - 1 - residue w x)) = 2 ^ w - 1 := by
  have hlt := residue_lt hw x
  rw [← wrap_residue hw x (by omega), wrap, if_pos (by omega)]
  omega

end CpuScheduler.EndAround
