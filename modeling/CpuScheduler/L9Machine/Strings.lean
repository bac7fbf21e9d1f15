import Mathlib

/-!
# Numbers as text

`string.cpp`: the digits are written with the last one first, into an array of
the caller, and the array is then reversed in place up to its terminator. An
array is the list of its elements; a write or a read behind its end is
`none`, as is the negation that overflows.
-/
namespace CpuScheduler.L9

/-- `str[i] = c` -/
def storeChar (str : List UInt8) (i : Nat) (c : UInt8) : Option (List UInt8) :=
  if i < str.length then some (str.set i c) else none

/-- mirrors string.cpp:53-57 -/
def strlen : List UInt8 → Option Nat
  | [] => none
  | c :: cs => if c = 0 then some 0 else (strlen cs).map (· + 1)

/-- One round for each pair. mirrors string.cpp:46-50 -/
def reverseLoop (s : List UInt8) (i j : Nat) : Option (List UInt8) :=
  if i < j then do
    let c ← s[i]?
    let d ← s[j]?
    let s ← storeChar s i d
    let s ← storeChar s j c
    reverseLoop s (i + 1) (j - 1)
  else some s
termination_by j - i

/-- mirrors string.cpp:44-51 -/
def reverse (s : List UInt8) : Option (List UInt8) :=
  (strlen s).bind fun len => reverseLoop s 0 (len - 1)

/-- Above nine the letters follow; no digit of a decimal number is above nine.
mirrors string.cpp:8, 20, 31-36 -/
def digitChar (d : Nat) : UInt8 := if d ≥ 10 then UInt8.ofNat (d - 10 + 65) else UInt8.ofNat (d + 48)

/-- The digits of `n` from index `i` on; at most `fuel` of them.
mirrors string.cpp:7-9, 19-21, 30-37 -/
def digitLoop (base : Nat) : Nat → Nat → Nat → List UInt8 → Option (List UInt8 × Nat)
  | 0, _, _, _ => none
  | fuel + 1, n, i, str =>
    (storeChar str i (digitChar (n % base))).bind fun str =>
      if n / base > 0 then digitLoop base fuel (n / base) (i + 1) str else some (str, i + 1)

/-- mirrors string.cpp:3-15 -/
def intToDecimalString (n : Int32) (str : List UInt8) : Option (List UInt8) :=
  if n = Int32.minValue then none
  else do
    let (str, i) ← digitLoop 10 32 n.toInt.natAbs 0 str
    let (str, i) ← if n < 0 then (storeChar str i 45).map (·, i + 1) else some (str, i)
    let str ← storeChar str i 0
    reverse str

/-- mirrors string.cpp:17-26 -/
def unsignedIntToDecimalString (n : UInt32) (str : List UInt8) : Option (List UInt8) := do
  let (str, i) ← digitLoop 10 32 n.toNat 0 str
  let str ← storeChar str i 0
  reverse str

/-- mirrors string.cpp:28-42 -/
def intToHexadecimalString (n : UInt32) (str : List UInt8) : Option (List UInt8) := do
  let (str, i) ← digitLoop 16 32 n.toNat 0 str
  let str ← storeChar str i 0
  reverse str

/-! ## What is in an array -/

/-- The array begins with this text and a terminator. -/
def HoldsText (str text : List UInt8) : Prop := ∃ rest, str = text ++ 0 :: rest ∧ (0 : UInt8) ∉ text

theorem strlen_of_holds {str text : List UInt8} (h : HoldsText str text) : strlen str = some text.length := by
  obtain ⟨rest, rfl, h0⟩ := h
  induction text with
  | nil => rfl
  | cons c text ih =>
    rw [List.mem_cons, not_or] at h0
    rw [List.cons_append, strlen, if_neg (Ne.symm h0.1), ih h0.2]
    rfl

theorem HoldsText.ne_zero {str text : List UInt8} (h : HoldsText str text) {c : UInt8} (hc : c ∈ text) : c ≠ 0 := by
  obtain ⟨_, _, h0⟩ := h
  rintro rfl
  exact h0 hc

theorem storeChar_append (xs ys : List UInt8) (c v : UInt8) :
    storeChar (xs ++ c :: ys) xs.length v = some (xs ++ v :: ys) := by
  rw [storeChar, if_pos (by simp)]
  simp

theorem getElem?_append_cons (xs ys : List UInt8) (c : UInt8) : (xs ++ c :: ys)[xs.length]? = some c := by simp

/-- The loop reverses what is between its indices: a round swaps the two ends
of it and leaves the middle. -/
theorem reverseLoop_spec (middle : List UInt8) : ∀ before after : List UInt8,
    reverseLoop (before ++ middle ++ after) before.length (before.length + middle.length - 1) =
      some (before ++ middle.reverse ++ after) := by
  induction middle using List.bidirectionalRec with
  | nil =>
    intro before after
    rw [reverseLoop, if_neg (by simp)]
    rfl
  | singleton c =>
    intro before after
    rw [reverseLoop, if_neg (by simp)]
    rfl
  | cons_append c middle d ih =>
    intro before after
    have hlen : (c :: (middle ++ [d])).length = middle.length + 2 := by simp
    have hj : before.length + (middle.length + 2) - 1 = before.length + (middle.length + 1) := by omega
    have hswapped := ih (before ++ [d]) (c :: after)
    rw [List.length_append, List.length_singleton] at hswapped
    have hlast : before.length + 1 + middle.length - 1 = before.length + (middle.length + 1) - 1 := by omega
    rw [hlast] at hswapped
    have hdlen : (before ++ d :: middle).length = before.length + (middle.length + 1) := by simp
    have hclen : (before ++ c :: middle).length = before.length + (middle.length + 1) := by simp
    have hfront : before ++ c :: (middle ++ [d]) ++ after = before ++ c :: (middle ++ d :: after) := by simp
    have hback : before ++ c :: (middle ++ d :: after) = (before ++ c :: middle) ++ d :: after := by simp
    have hread : (before ++ c :: (middle ++ d :: after))[before.length + (middle.length + 1)]? = some d := by
      rw [hback, ← hclen]
      exact getElem?_append_cons _ _ _
    have hstore : storeChar (before ++ d :: (middle ++ d :: after)) (before.length + (middle.length + 1)) c =
        some (before ++ [d] ++ middle ++ c :: after) := by
      have hsplit : before ++ d :: (middle ++ d :: after) = (before ++ d :: middle) ++ d :: after := by simp
      rw [hsplit, ← hdlen, storeChar_append]
      simp
    rw [reverseLoop, hlen, hj, if_pos (by omega), hfront, getElem?_append_cons, hread]
    dsimp only [Option.bind_eq_bind, Option.bind_some]
    rw [storeChar_append, Option.bind_some, hstore, Option.bind_some, hswapped]
    simp

theorem reverse_spec {str text : List UInt8} (h : HoldsText str text) :
    ∃ r, reverse str = some r ∧ HoldsText r text.reverse ∧ r.length = str.length := by
  have hlen := strlen_of_holds h
  obtain ⟨rest, rfl, h0⟩ := h
  have hloop := reverseLoop_spec text [] (0 :: rest)
  rw [List.nil_append, List.length_nil, Nat.zero_add] at hloop
  refine ⟨text.reverse ++ 0 :: rest, ?_, ⟨rest, rfl, by rwa [List.mem_reverse]⟩, by simp⟩
  rw [reverse, hlen]
  exact hloop

/-! ## The digits -/

/-- The digits of a number, the last one first; 0 has one. -/
def numberDigits (base n : Nat) : List Nat := if n = 0 then [0] else Nat.digits base n

/-- A number as text. -/
def numberText (base n : Nat) : List UInt8 := ((numberDigits base n).map digitChar).reverse

section Digits
variable {base : Nat}

theorem numberDigits_step (hb : 1 < base) (n : Nat) : numberDigits base n =
    n % base :: if n / base > 0 then numberDigits base (n / base) else [] := by
  unfold numberDigits
  by_cases hn : n = 0
  · subst hn
    rw [if_pos rfl, Nat.zero_mod, Nat.zero_div, if_neg (Nat.lt_irrefl 0)]
  · rw [if_neg hn, Nat.digits_def' hb (Nat.pos_of_ne_zero hn)]
    by_cases hmore : n / base > 0
    · rw [if_pos hmore, if_neg (by omega)]
    · rw [if_neg hmore, Nat.eq_zero_of_not_pos hmore, Nat.digits_zero]

theorem numberDigits_ne_nil (hb : 1 < base) (n : Nat) : numberDigits base n ≠ [] := by
  rw [numberDigits_step hb]
  exact List.cons_ne_nil _ _

theorem numberDigits_lt (hb : 1 < base) {n d : Nat} (hd : d ∈ numberDigits base n) : d < base := by
  unfold numberDigits at hd
  split at hd
  · rw [List.mem_singleton.mp hd]
    omega
  · exact Nat.digits_lt_base hb hd

theorem numberDigits_length (hb : 1 < base) {n k : Nat} (hk : 0 < k) (hn : n < base ^ k) :
    (numberDigits base n).length ≤ k := by
  unfold numberDigits
  split
  · exact hk
  · exact (Nat.digits_length_le_iff hb n).mpr hn

theorem digitChar_ne_zero : ∀ d < 16, digitChar d ≠ 0 := by decide

theorem zero_notMem_digits (hb : 1 < base) (hbase : base ≤ 16) (n : Nat) :
    (0 : UInt8) ∉ (numberDigits base n).map digitChar := by
  intro h0
  obtain ⟨d, hd, hzero⟩ := List.mem_map.mp h0
  exact digitChar_ne_zero d (Nat.lt_of_lt_of_le (numberDigits_lt hb hd) hbase) hzero

/-- The loop writes the digits, the last one first. -/
theorem digitLoop_spec (hb : 1 < base) (fuel : Nat) : ∀ (n : Nat) (before rest : List UInt8),
    (numberDigits base n).length ≤ fuel → (numberDigits base n).length ≤ rest.length →
    digitLoop base fuel n before.length (before ++ rest) =
      some (before ++ (numberDigits base n).map digitChar ++ rest.drop (numberDigits base n).length,
        before.length + (numberDigits base n).length) := by
  induction fuel with
  | zero =>
    intro n before rest hfuel
    exact absurd (List.length_eq_zero_iff.mp (Nat.le_zero.mp hfuel)) (numberDigits_ne_nil hb n)
  | succ fuel ih =>
    intro n before rest hfuel hroom
    rw [numberDigits_step hb] at hfuel hroom ⊢
    obtain _ | ⟨c, rest⟩ := rest
    · exact absurd hroom (Nat.not_succ_le_zero _)
    · rw [digitLoop, storeChar_append, Option.bind_some]
      by_cases hmore : n / base > 0
      · rw [if_pos hmore] at hfuel hroom ⊢
        rw [if_pos hmore]
        have hrest := ih (n / base) (before ++ [digitChar (n % base)]) rest (Nat.le_of_succ_le_succ hfuel)
          (Nat.le_of_succ_le_succ hroom)
        rw [List.length_append, List.length_singleton, List.append_assoc, List.singleton_append] at hrest
        rw [hrest]
        simp [Nat.add_assoc, Nat.add_comm 1]
      · rw [if_neg hmore] at hfuel hroom ⊢
        rw [if_neg hmore]
        simp

end Digits

/-! ## The functions -/

/-- What follows the loops: the terminator and the reversal. -/
theorem terminate_spec (text rest : List UInt8) (c : UInt8) (h0 : (0 : UInt8) ∉ text) :
    ∃ r, (storeChar (text ++ c :: rest) text.length 0).bind reverse = some r ∧ HoldsText r text.reverse := by
  obtain ⟨r, hr, hholds, -⟩ := reverse_spec ⟨rest, rfl, h0⟩
  refine ⟨r, ?_, hholds⟩
  rw [storeChar_append, Option.bind_some]
  exact hr

theorem toText_spec {base k n : Nat} (hb : 1 < base) (hbase : base ≤ 16) (hk : 0 < k) (hk' : k ≤ 32) (hn : n < base ^ k)
    {str : List UInt8} (hroom : k < str.length) :
    ∃ r, ((digitLoop base 32 n 0 str).bind fun x => (storeChar x.1 x.2 0).bind reverse) = some r ∧
      HoldsText r (numberText base n) := by
  have hlength := numberDigits_length hb hk hn
  have hloop := digitLoop_spec hb 32 n [] str (by omega) (by omega)
  rw [List.nil_append, List.length_nil, Nat.zero_add, List.nil_append] at hloop
  rw [hloop, Option.bind_some]
  have hleft : (numberDigits base n).length < str.length := by omega
  have hdrop := List.drop_eq_getElem_cons hleft
  obtain ⟨r, hr, hholds⟩ := terminate_spec _ (str.drop ((numberDigits base n).length + 1))
    str[(numberDigits base n).length] (zero_notMem_digits hb hbase n)
  rw [List.length_map, ← hdrop] at hr
  exact ⟨r, hr, hholds⟩

/-- Ten digits and the terminator. -/
theorem unsignedIntToDecimalString_spec (n : UInt32) {str : List UInt8} (hroom : 11 ≤ str.length) :
    ∃ r, unsignedIntToDecimalString n str = some r ∧ HoldsText r (numberText 10 n.toNat) :=
  toText_spec (by decide) (by decide) (by decide : 0 < 10) (by decide) (Nat.lt_trans n.toNat_lt (by decide)) hroom

/-- Eight digits and the terminator. -/
theorem intToHexadecimalString_spec (n : UInt32) {str : List UInt8} (hroom : 9 ≤ str.length) :
    ∃ r, intToHexadecimalString n str = some r ∧ HoldsText r (numberText 16 n.toNat) :=
  toText_spec (by decide) (by decide) (by decide : 0 < 8) (by decide) n.toNat_lt hroom

/-- A minus sign in front of a negative number. -/
def decimalText (n : Int32) : List UInt8 := (if n < 0 then [45] else []) ++ numberText 10 n.toInt.natAbs

/-- A sign, ten digits and the terminator. -/
theorem intToDecimalString_spec {n : Int32} (hn : n ≠ Int32.minValue) {str : List UInt8} (hroom : 12 ≤ str.length) :
    ∃ r, intToDecimalString n str = some r ∧ HoldsText r (decimalText n) := by
  have habs : n.toInt.natAbs < 10 ^ 10 := by
    have hlow := n.le_toInt
    have hhigh := n.toInt_lt
    omega
  have hlength := numberDigits_length (by decide : 1 < 10) (by decide : 0 < 10) habs
  have h0 := zero_notMem_digits (by decide : 1 < 10) (by decide) n.toInt.natAbs
  have hloop := digitLoop_spec (by decide : 1 < 10) 32 n.toInt.natAbs [] str (by omega) (by omega)
  rw [List.nil_append, List.length_nil, Nat.zero_add, List.nil_append] at hloop
  unfold intToDecimalString decimalText numberText
  generalize numberDigits 10 n.toInt.natAbs = ds at hlength h0 hloop
  have hdrop := List.drop_eq_getElem_cons (show ds.length < str.length by omega)
  have hdrop' := List.drop_eq_getElem_cons (show ds.length + 1 < str.length by omega)
  rw [if_neg hn, hloop]
  by_cases hneg : n < 0
  · have hsigned : (0 : UInt8) ∉ ds.map digitChar ++ [45] := by
      rw [List.mem_append, not_or]
      exact ⟨h0, by decide⟩
    obtain ⟨r, hr, hholds⟩ := terminate_spec _ (str.drop (ds.length + 1 + 1)) str[ds.length + 1] hsigned
    rw [List.reverse_append] at hholds
    refine ⟨r, ?_, by rw [if_pos hneg]; exact hholds⟩
    have hsign : storeChar (ds.map digitChar ++ str.drop ds.length) ds.length 45 =
        some (ds.map digitChar ++ [45] ++ str.drop (ds.length + 1)) := by
      rw [hdrop]
      have hstore := storeChar_append (ds.map digitChar) (str.drop (ds.length + 1)) str[ds.length] 45
      rw [List.length_map] at hstore
      rw [hstore, List.append_assoc, List.singleton_append]
    rw [List.length_append, List.length_map, List.length_singleton, ← hdrop'] at hr
    simp only [Option.bind_eq_bind, Option.bind_some, if_pos hneg, hsign, Option.map_some]
    exact hr
  · obtain ⟨r, hr, hholds⟩ := terminate_spec _ (str.drop (ds.length + 1)) str[ds.length] h0
    refine ⟨r, ?_, by rw [if_neg hneg]; exact hholds⟩
    rw [List.length_map, ← hdrop] at hr
    simp only [Option.bind_eq_bind, Option.bind_some, if_neg hneg]
    exact hr

end CpuScheduler.L9
