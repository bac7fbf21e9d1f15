import CpuScheduler.L9Machine.Screen
import CpuScheduler.L9Machine.Strings

/-!
# Numbers on the screen

The other functions of `screen.cpp` that print: the number is written as text
into an array on the stack, of which nothing is known before. The result is
`none` where the text is not defined, which is so for the smallest `int` only.
-/
namespace CpuScheduler.L9

open L1

/-- The characters before the terminator. -/
def chars (str : List UInt8) : List UInt8 := str.takeWhile (· ≠ 0)

namespace Vga

/-- mirrors screen.cpp:98-102 -/
def printkInt (v : Vga) (intAsDecimalString : Vector UInt8 12) (a : Int32) : Option Vga :=
  (intToDecimalString a intAsDecimalString.toList).map fun str => v.printk (chars str)

/-- mirrors screen.cpp:104-108 -/
def printkHex (v : Vga) (intAsHexadecimalString : Vector UInt8 9) (a : UInt32) : Option Vga :=
  (intToHexadecimalString a intAsHexadecimalString.toList).map fun str => v.printk (chars str)

/-- mirrors screen.cpp:125-127 -/
def printZeros : Nat → Nat → Vga → Vga
  | 0, _, v => v
  | numMissingZeros + 1, offset, v =>
    let (offset, v) := v.printChar offset 48
    printZeros numMissingZeros offset v

/-- mirrors screen.cpp:110-131 -/
def printkHexLong (v : Vga) (lowerString upperString : Vector UInt8 9) (a : UInt64) : Option Vga := do
  let lowerA := (a &&& 0xFFFFFFFF).toUInt32
  let upperA := ((a >>> 32) &&& 0xFFFFFFFF).toUInt32
  let lower ← intToHexadecimalString lowerA lowerString.toList
  let v ← if upperA > 0 then do
      let upper ← intToHexadecimalString upperA upperString.toList
      let v := v.printk (chars upper)
      let len ← strlen lower
      let (offset, v) := v.getCursorOffset
      some (printZeros (8 - len) offset v)
    else some v
  return v.printk (chars lower)

end Vga

/-! ## The two halves of a number -/

theorem numberDigits_padded {base k n : Nat} (hk : 0 < k) :
    numberDigits base n ++ List.replicate (k - (numberDigits base n).length) 0 =
      Nat.digits base n ++ List.replicate (k - (Nat.digits base n).length) 0 := by
  unfold numberDigits
  split
  · rename_i hzero
    obtain ⟨k, rfl⟩ := Nat.exists_eq_succ_of_ne_zero hk.ne'
    rw [hzero, Nat.digits_zero]
    rfl
  · rfl

/-- The digits of the lower half, filled up, and those of the upper one. -/
theorem numberDigits_append {base k n m : Nat} (hb : 1 < base) (hk : 0 < k) (hn : n < base ^ k) (hm : 0 < m) :
    numberDigits base n ++ List.replicate (k - (numberDigits base n).length) 0 ++ numberDigits base m =
      numberDigits base (n + base ^ k * m) := by
  have hlength : (Nat.digits base n).length ≤ k := (Nat.digits_length_le_iff hb n).mpr hn
  have hpos : n + base ^ k * m ≠ 0 := by
    have hupper := Nat.mul_pos (Nat.pow_pos (n := k) (Nat.zero_lt_of_lt hb)) hm
    omega
  have hupper : numberDigits base m = Nat.digits base m := if_neg hm.ne'
  have hall : numberDigits base (n + base ^ k * m) = Nat.digits base (n + base ^ k * m) := if_neg hpos
  rw [numberDigits_padded hk, hupper, hall, Nat.digits_append_zeroes_append_digits hb hm, Nat.add_sub_cancel' hlength]

theorem length_numberText (base n : Nat) : (numberText base n).length = (numberDigits base n).length := by
  rw [numberText, List.length_reverse, List.length_map]

theorem numberText_append {n m : Nat} (hn : n < 16 ^ 8) (hm : 0 < m) :
    numberText 16 m ++ List.replicate (8 - (numberText 16 n).length) 48 ++ numberText 16 n =
      numberText 16 (n + 16 ^ 8 * m) := by
  rw [length_numberText]
  unfold numberText
  rw [← numberDigits_append (by decide) (by decide) hn hm, List.map_append, List.map_append, List.reverse_append,
    List.reverse_append, List.map_replicate, List.reverse_replicate, List.append_assoc]
  rfl

/-! ## Printing text from an array -/

theorem chars_of_holds {str text : List UInt8} (h : HoldsText str text) : chars str = text := by
  have hne (c : UInt8) (hc : c ∈ text) : decide (c ≠ 0) = true := decide_eq_true (h.ne_zero hc)
  obtain ⟨rest, rfl, -⟩ := h
  rw [chars, List.takeWhile_append_of_pos hne, List.takeWhile_cons_of_neg (by decide), List.append_nil]

/-- The call succeeds, and it is as if this text had been typed. -/
def Prints (p : Page) (v : Vga) (text : List UInt8) (result : Option Vga) : Prop :=
  ∃ v', result = some v' ∧ Shows (p.typeAll (text.map typed)) v' ∧ OnlyVideo v.mem v'.mem

section
variable {p : Page} {v : Vga}

theorem Shows.printkChars (h : Shows p v) {str text : List UInt8} (hstr : HoldsText str text) :
    Shows (p.typeAll (text.map typed)) (v.printk (chars str)) ∧ OnlyVideo v.mem (v.printk (chars str)).mem := by
  rw [chars_of_holds hstr]
  exact h.printk text

theorem printZeros_eq (k : Nat) : ∀ (offset : Nat) (v : Vga),
    Vga.printZeros k offset v = Vga.printkLoop (List.replicate k 48) offset v := by
  induction k with
  | zero => exact fun _ _ => rfl
  | succ k ih => exact fun _ _ => ih _ _

theorem Shows.printkInt (h : Shows p v) {a : Int32} (ha : a ≠ Int32.minValue) (array : Vector UInt8 12) :
    Prints p v (decimalText a) (v.printkInt array a) := by
  obtain ⟨str, hstr, hholds⟩ := intToDecimalString_spec ha (Nat.le_of_eq array.length_toList.symm)
  obtain ⟨hshows, honly⟩ := h.printkChars hholds
  exact ⟨_, by rw [Vga.printkInt, hstr, Option.map_some], hshows, honly⟩

theorem Shows.printkHex (h : Shows p v) (a : UInt32) (array : Vector UInt8 9) :
    Prints p v (numberText 16 a.toNat) (v.printkHex array a) := by
  obtain ⟨str, hstr, hholds⟩ := intToHexadecimalString_spec a (Nat.le_of_eq array.length_toList.symm)
  obtain ⟨hshows, honly⟩ := h.printkChars hholds
  exact ⟨_, by rw [Vga.printkHex, hstr, Option.map_some], hshows, honly⟩

theorem lower_toNat (a : UInt64) : ((a &&& 0xFFFFFFFF).toUInt32).toNat = a.toNat % 16 ^ 8 := by
  have hand : a.toNat &&& 0xFFFFFFFF = a.toNat % 2 ^ 32 := Nat.and_two_pow_sub_one_eq_mod a.toNat 32
  rw [UInt64.toNat_toUInt32, UInt64.toNat_and]
  show (a.toNat &&& 0xFFFFFFFF) % 2 ^ 32 = _
  rw [hand]
  omega

theorem upper_toNat (a : UInt64) : (((a >>> 32) &&& 0xFFFFFFFF).toUInt32).toNat = a.toNat / 16 ^ 8 := by
  have hlt := a.toNat_lt
  have hshift : (a >>> 32).toNat = a.toNat / 2 ^ 32 := by
    rw [UInt64.toNat_shiftRight]
    exact Nat.shiftRight_eq_div_pow _ _
  rw [lower_toNat, hshift]
  omega

theorem Shows.printkHexLong (h : Shows p v) (a : UInt64) (lowerString upperString : Vector UInt8 9) :
    Prints p v (numberText 16 a.toNat) (v.printkHexLong lowerString upperString a) := by
  obtain ⟨lower, hlower, hholds⟩ :=
    intToHexadecimalString_spec ((a &&& 0xFFFFFFFF).toUInt32) (Nat.le_of_eq lowerString.length_toList.symm)
  rw [lower_toNat] at hholds
  unfold Vga.printkHexLong
  dsimp only
  rw [hlower]
  by_cases hupper : ((a >>> 32) &&& 0xFFFFFFFF).toUInt32 > 0
  · -- the upper half, the zeros that the lower one lacks, then the lower half
    have hpos : 0 < a.toNat / 16 ^ 8 := by
      rw [← upper_toNat]
      exact hupper
    obtain ⟨upper, hupper', hholds'⟩ := intToHexadecimalString_spec (((a >>> 32) &&& 0xFFFFFFFF).toUInt32)
      (Nat.le_of_eq upperString.length_toList.symm)
    rw [upper_toNat] at hholds'
    obtain ⟨hshows, honly⟩ := h.printkChars hholds'
    have hzeros := hshows.printk (List.replicate (8 - (numberText 16 (a.toNat % 16 ^ 8)).length) 48)
    obtain ⟨hlast, honly'⟩ := hzeros.1.printkChars hholds
    have htext := numberText_append (Nat.mod_lt a.toNat (by decide : 0 < 16 ^ 8)) hpos
    rw [Nat.mod_add_div, List.append_assoc] at htext
    rw [← typeAll_append, ← typeAll_append, htext] at hlast
    refine ⟨_, ?_, hlast, (honly.trans hzeros.2).trans honly'⟩
    simp only [Option.bind_eq_bind, Option.bind_some, if_pos hupper, hupper', strlen_of_holds hholds, printZeros_eq,
      Option.pure_def]
    rfl
  · have hzero : a.toNat / 16 ^ 8 = 0 := by
      rw [← upper_toNat]
      exact Nat.eq_zero_of_not_pos hupper
    have hsmall : a.toNat % 16 ^ 8 = a.toNat := Nat.mod_eq_of_lt (by omega)
    rw [hsmall] at hholds
    obtain ⟨hshows, honly⟩ := h.printkChars hholds
    refine ⟨_, ?_, hshows, honly⟩
    simp only [Option.bind_eq_bind, Option.bind_some, if_neg hupper, Option.pure_def]

end

/-- On a screen that is in use, a number is printed as its numeral: an `int`
in decimal unless it is the smallest one, for which nothing is defined, an
unsigned number of 32 or 64 bits in hexadecimal. -/
theorem numbers_shown (v : Vga) (outputs : List Output) :
    (∀ a array, if a = Int32.minValue then (outputs.foldl Vga.output v.newScreen).printkInt array a = none
      else Prints (outputs.foldl written Paper.blank) (outputs.foldl Vga.output v.newScreen) (decimalText a)
        ((outputs.foldl Vga.output v.newScreen).printkInt array a)) ∧
    (∀ a array, Prints (outputs.foldl written Paper.blank) (outputs.foldl Vga.output v.newScreen)
      (numberText 16 a.toNat) ((outputs.foldl Vga.output v.newScreen).printkHex array a)) ∧
    (∀ a lowerString upperString, Prints (outputs.foldl written Paper.blank) (outputs.foldl Vga.output v.newScreen)
      (numberText 16 a.toNat) ((outputs.foldl Vga.output v.newScreen).printkHexLong lowerString upperString a)) := by
  obtain ⟨hshows, -⟩ := (shows_newScreen v).1.outputs outputs
  refine ⟨fun a array => ?_, hshows.printkHex, hshows.printkHexLong⟩
  split
  · rename_i hmin
    rw [hmin]
    rfl
  · rename_i ha
    exact hshows.printkInt ha array

end CpuScheduler.L9
