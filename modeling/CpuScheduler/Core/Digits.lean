import Mathlib

/-!
# Numbers read digit by digit

`readDigits b v ds` is the value after the digits `ds`, most significant one
first, behind digits of the value `v`. Reading never lets the value fall, so a
reader that gives up as soon as the value is above a bound gives up just if the
number is.
-/
namespace CpuScheduler.Digits

variable {b v w : Nat} {ds es : List Nat}

def readDigits (b v : Nat) (ds : List Nat) : Nat := ds.foldl (fun v d => v * b + d) v

@[simp] theorem readDigits_nil : readDigits b v [] = v := rfl

@[simp] theorem readDigits_cons (d : Nat) : readDigits b v (d :: ds) = readDigits b (v * b + d) ds := rfl

theorem readDigits_append : readDigits b v (ds ++ es) = readDigits b (readDigits b v ds) es := List.foldl_append

theorem le_readDigits (hb : 0 < b) : v ≤ readDigits b v ds := by
  induction ds generalizing v with
  | nil => exact Nat.le_refl v
  | cons d ds ih =>
    calc v ≤ v * b := Nat.le_mul_of_pos_right v hb
      _ ≤ v * b + d := Nat.le_add_right _ _
      _ ≤ readDigits b (v * b + d) ds := ih

/-- What is read from the start is the number with these digits. -/
theorem readDigits_zero (b : Nat) (ds : List Nat) : readDigits b 0 ds = Nat.ofDigits b ds.reverse := by
  induction ds using List.reverseRecOn with
  | nil => rfl
  | append_singleton ds d ih =>
    rw [readDigits_append, ih, List.reverse_append, List.reverse_singleton, List.singleton_append, Nat.ofDigits_cons]
    simp only [readDigits_cons, readDigits_nil]
    rw [Nat.mul_comm, Nat.add_comm]

end CpuScheduler.Digits
