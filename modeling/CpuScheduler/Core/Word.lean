import Mathlib

/-!
# Machine words

The kernel is 32-bit x86: `int` wraps to two's complement, an `int` stored
in an `unsigned int` keeps its bits, and multi-byte header fields are put
together from (and cut into) bytes in network order.
-/
namespace CpuScheduler.Word

/-- A mathematical integer as the machine's 32-bit `int`. -/
def asInt (x : Int) : Int := Int.bmod x (2 ^ 32)

/-- A mathematical integer as the machine's `unsigned int`. -/
def asUInt (x : Int) : Nat := (x % 2 ^ 32).toNat

theorem asInt_of_lt {x : Int} (h0 : 0 ≤ x) (h : x < 2 ^ 31) : asInt x = x := by
  unfold asInt; rw [Int.bmod_def]; omega

theorem asInt_two_pow_31 : asInt (2 ^ 31) = -2 ^ 31 := by decide

theorem asUInt_of_lt {x : Int} (h0 : 0 ≤ x) (h : x < 2 ^ 32) : asUInt x = x.toNat := by
  unfold asUInt; rw [Int.emod_eq_of_lt h0 h]

/-- Masking clears the last `k` bits. -/
theorem toNat_and_mask (a : UInt32) {k : Nat} (hk : k < 32) :
    (a &&& ((0xFFFFFFFF : UInt32) <<< k.toUInt32)).toNat = a.toNat / 2 ^ k * 2 ^ k := by
  have hmask : ∀ k < 32, ((0xFFFFFFFF : UInt32) <<< k.toUInt32).toNat = (2 ^ (32 - k) - 1) * 2 ^ k := by decide
  have hpow : 0 < 2 ^ k := Nat.two_pow_pos k
  have hdiv : a.toNat / 2 ^ k < 2 ^ (32 - k) := by
    rw [Nat.div_lt_iff_lt_mul hpow, ← Nat.pow_add, Nat.sub_add_cancel hk.le]
    exact a.toNat_lt
  rw [UInt32.toNat_and, hmask k hk, ← Nat.div_add_mod (a.toNat &&& _) (2 ^ k)]
  -- above bit k the mask has all bits, below it none
  rw [Nat.and_div_two_pow, Nat.and_mod_two_pow, Nat.mul_div_cancel _ hpow, Nat.mul_mod_left, Nat.and_zero,
    Nat.and_two_pow_sub_one_eq_mod, Nat.mod_eq_of_lt hdiv, Nat.add_zero, Nat.mul_comm]

/-! ## Bytes in network order -/

/-- Two bytes, most significant first. -/
def be16 (a b : UInt8) : Nat := (a.toNat <<< 8) + b.toNat

/-- Four bytes, most significant first. -/
def be32 (a b c d : UInt8) : UInt32 :=
  (a.toUInt32 <<< 24) + (b.toUInt32 <<< 16) + (c.toUInt32 <<< 8) + d.toUInt32

theorem be16_eq (a b : UInt8) : be16 a b = a.toNat * 256 + b.toNat := by
  simp [be16, Nat.shiftLeft_eq]

theorem be16_lt (a b : UInt8) : be16 a b < 65536 := by
  have := a.toNat_lt; have := b.toNat_lt
  rw [be16_eq]; omega

/-- A 16-bit value written as its high and low byte reads back. -/
theorem be16_split {v : Nat} (h : v < 65536) :
    be16 (UInt8.ofNat (v >>> 8)) (UInt8.ofNat (v &&& 0xFF)) = v := by
  have e : v &&& 0xFF = v % 256 := Nat.and_two_pow_sub_one_eq_mod v 8
  rw [be16_eq, e, Nat.shiftRight_eq_div_pow, UInt8.toNat_ofNat', UInt8.toNat_ofNat']
  omega

theorem be32_toNat (a b c d : UInt8) : (be32 a b c d).toNat =
    a.toNat * 2 ^ 24 + b.toNat * 2 ^ 16 + c.toNat * 2 ^ 8 + d.toNat := by
  have := a.toNat_lt; have := b.toNat_lt; have := c.toNat_lt; have := d.toNat_lt
  simp only [be32, UInt32.toNat_add, UInt32.toNat_shiftLeft, UInt8.toNat_toUInt32,
    UInt32.reduceToNat, Nat.reduceMod, Nat.shiftLeft_eq]
  omega

/-- The four bytes of an address read back as the address. -/
theorem be32_split (x : UInt32) : be32 (x >>> 24).toUInt8 ((x >>> 16) &&& 0xFF).toUInt8
    ((x >>> 8) &&& 0xFF).toUInt8 (x &&& 0xFF).toUInt8 = x := by
  have h := x.toNat_lt
  have and_ff (m : Nat) : m &&& 255 = m % 256 := Nat.and_two_pow_sub_one_eq_mod m 8
  apply UInt32.toNat_inj.mp
  simp only [be32_toNat, UInt32.toNat_toUInt8, UInt32.toNat_shiftRight, UInt32.toNat_and,
    UInt32.reduceToNat, Nat.reduceMod, Nat.shiftRight_eq_div_pow, and_ff]
  omega

/-! ## Bytes in the machine's own order -/

/-- The lowest `n` bytes of a number, least significant first. -/
def littleEndian (n x : Nat) : List UInt8 := (List.range n).map fun k => UInt8.ofNat (x / 256 ^ k)

@[simp] theorem length_littleEndian (n x : Nat) : (littleEndian n x).length = n := by simp [littleEndian]

/-- A 16-bit value reads back from its two bytes. -/
theorem be16_littleEndian {x : Nat} (h : x < 65536) : be16 (UInt8.ofNat (x / 256)) (UInt8.ofNat x) = x := by
  rw [be16_eq, UInt8.toNat_ofNat', UInt8.toNat_ofNat']
  omega

/-- A word reads back from its four bytes. -/
theorem be32_littleEndian (x : UInt32) : be32 (UInt8.ofNat (x.toNat / 16777216)) (UInt8.ofNat (x.toNat / 65536))
    (UInt8.ofNat (x.toNat / 256)) (UInt8.ofNat x.toNat) = x := by
  have h := x.toNat_lt
  apply UInt32.toNat_inj.mp
  simp only [be32_toNat, UInt8.toNat_ofNat']
  omega

end CpuScheduler.Word
