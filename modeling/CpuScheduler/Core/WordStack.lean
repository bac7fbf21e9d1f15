import CpuScheduler.Core.Span

/-!
# A stack of words

A processor stack that grows downwards, in a memory that is read and written
by 32-bit words. What a word is in memory is left to the instance: the two
laws say that a write is read back and that it leaves the words alone that do
not overlap. `Holds m p ws`: from address `p` on, memory holds the words `ws`,
the top of the stack first. Addresses wrap around, so the only bound is that
the stack is not larger than the address space.
-/
namespace CpuScheduler

class WordMemory (M : Type) where
  read : M → UInt32 → UInt32
  write : M → UInt32 → UInt32 → M
  read_write_self : ∀ m a v, read (write m a v) a = v
  read_write_apart : ∀ m a b v, Span.Apart ⟨a, 4⟩ ⟨b, 4⟩ → read (write m a v) b = read m b

namespace WordStack

open WordMemory

variable {M : Type} [WordMemory M] {m m' : M} {p w : UInt32} {ws us : List UInt32}

def Holds (m : M) (p : UInt32) : List UInt32 → Prop
  | [] => True
  | w :: ws => read m p = w ∧ Holds m (p + 4) ws

/-- The pushes of `ws`, the first one first, from the stack pointer `p`. -/
def pushes : List UInt32 → UInt32 → M → UInt32 × M
  | [], p, m => (p, m)
  | w :: ws, p, m => pushes ws (p - 4) (write m (p - 4) w)

/-- The address of the word at distance `i` from the top. -/
def slot (p : UInt32) (i : Nat) : UInt32 := p + UInt32.ofNat (4 * i)

theorem slot_zero (p : UInt32) : slot p 0 = p := UInt32.add_zero p

theorem slot_succ (p : UInt32) (i : Nat) : slot (p + 4) i = slot p (i + 1) := by
  unfold slot
  rw [Nat.mul_succ, UInt32.ofNat_add, add_assoc, add_comm 4]
  rfl

theorem slot_sub (p : UInt32) (i : Nat) : slot (p - UInt32.ofNat (4 * i)) i = p := sub_add_cancel _ _

theorem slot_offset (p : UInt32) (k i : Nat) : slot (p + UInt32.ofNat k) i = p + UInt32.ofNat (k + 4 * i) := by
  rw [slot, add_assoc, ← UInt32.ofNat_add]

/-- The slots of one stack do not overlap. -/
theorem slot_apart {i j : Nat} (hij : i < j) (hj : 4 * (j + 1) ≤ 2 ^ 32) : Span.Apart ⟨slot p i, 4⟩ ⟨slot p j, 4⟩ :=
  Span.apart_of_le (by omega) (by omega)

/-- The words from a slot on. -/
theorem within_slot {i n k : Nat} (h : 4 * i + n ≤ k) (hk : k ≤ 2 ^ 32) : Span.Within ⟨slot p i, n⟩ ⟨p, k⟩ :=
  Span.within_of_le h hk

theorem Holds.read_slot (h : Holds m p ws) {i : Nat} (hi : i < ws.length) : read m (slot p i) = ws[i] := by
  induction ws generalizing p i with
  | nil => exact absurd hi (Nat.not_lt_zero i)
  | cons w ws ih =>
    cases i with
    | zero => rw [slot_zero, h.1, List.getElem_cons_zero]
    | succ i =>
      rw [← slot_succ, List.getElem_cons_succ]
      exact ih h.2 (Nat.lt_of_succ_lt_succ hi)

/-- A memory that has the same words at another address holds the same stack there. -/
theorem Holds.moved {q : UInt32} (h : Holds m p ws) (hsame : ∀ i, i < ws.length → read m' (slot q i) = read m (slot p i)) :
    Holds m' q ws := by
  induction ws generalizing p q with
  | nil => trivial
  | cons w ws ih =>
    have htop := hsame 0 (Nat.zero_lt_succ _)
    rw [slot_zero, slot_zero] at htop
    refine ⟨htop.trans h.1, ih h.2 fun i hi => ?_⟩
    rw [slot_succ, slot_succ]
    exact hsame (i + 1) (Nat.succ_lt_succ hi)

/-- A memory that has the same words holds the same stack. -/
theorem Holds.frame (h : Holds m p ws) (hsame : ∀ i, i < ws.length → read m' (slot p i) = read m (slot p i)) :
    Holds m' p ws := h.moved hsame

theorem Holds.pop (h : Holds m p (w :: ws)) : read m p = w ∧ Holds m (p + 4) ws := h

theorem Holds.left (h : Holds m p (us ++ ws)) : Holds m p us := by
  induction us generalizing p with
  | nil => trivial
  | cons u us ih => exact ⟨h.1, ih h.2⟩

theorem Holds.drop (h : Holds m p (us ++ ws)) : Holds m (slot p us.length) ws := by
  induction us generalizing p with
  | nil => rwa [List.length_nil, slot_zero]
  | cons u us ih =>
    rw [List.length_cons, ← slot_succ]
    exact ih h.2

/-- A word is pushed. -/
theorem Holds.push (h : Holds m p ws) (hsize : 4 * (ws.length + 1) ≤ 2 ^ 32) :
    Holds (write m (p - 4) w) (p - 4) (w :: ws) := by
  refine ⟨read_write_self m (p - 4) w, ?_⟩
  rw [sub_add_cancel]
  refine h.frame fun i hi => read_write_apart _ _ _ _ ?_
  have hbase : slot p i = slot (p - 4) (i + 1) := by rw [← slot_succ, sub_add_cancel]
  have hzero : p - 4 = slot (p - 4) 0 := (slot_zero _).symm
  rw [hbase]
  nth_rewrite 1 [hzero]
  exact slot_apart (Nat.succ_pos i) (by omega)

theorem pushes_append (us ws : List UInt32) (p : UInt32) (m : M) :
    pushes (us ++ ws) p m = pushes ws (pushes us p m).1 (pushes us p m).2 := by
  induction us generalizing p m with
  | nil => rfl
  | cons u us ih => exact ih (p - 4) (write m (p - 4) u)

theorem pushes_fst (ws : List UInt32) (p : UInt32) (m : M) : (pushes ws p m).1 = p - UInt32.ofNat (4 * ws.length) := by
  induction ws generalizing p m with
  | nil => exact (UInt32.sub_zero p).symm
  | cons w ws ih =>
    rw [pushes, ih, List.length_cons, Nat.mul_succ, UInt32.ofNat_add]
    show p - 4 - UInt32.ofNat (4 * ws.length) = p - (UInt32.ofNat (4 * ws.length) + 4)
    rw [sub_sub, add_comm]

/-- What was pushed lies on what was there, the last word on top. -/
theorem holds_pushes (h : Holds m p ws) (hsize : 4 * (us.length + ws.length) ≤ 2 ^ 32) :
    Holds (pushes us p m).2 (pushes us p m).1 (us.reverse ++ ws) := by
  induction us generalizing p m ws with
  | nil => exact h
  | cons u us ih =>
    rw [List.reverse_cons, List.append_assoc]
    rw [List.length_cons] at hsize
    exact ih (h.push (w := u) (by omega)) (by rw [List.length_append, List.length_singleton]; omega)

/-- The pushes leave every word alone that is outside of what they use. -/
theorem pushes_frame {a : UInt32} (ha : Span.Apart ⟨(pushes us p m).1, 4 * us.length⟩ ⟨a, 4⟩)
    (hsize : 4 * us.length ≤ 2 ^ 32) : read (pushes us p m).2 a = read m a := by
  induction us generalizing p m with
  | nil => rfl
  | cons u us ih =>
    rw [pushes_fst, List.length_cons] at ha
    rw [List.length_cons] at hsize
    have hbase : p - UInt32.ofNat (4 * (us.length + 1)) = p - 4 - UInt32.ofNat (4 * us.length) := by
      rw [Nat.mul_succ, UInt32.ofNat_add]
      show p - (UInt32.ofNat (4 * us.length) + 4) = _
      rw [sub_sub, add_comm]
    rw [hbase] at ha
    have hstart : p - 4 = slot (p - 4 - UInt32.ofNat (4 * us.length)) us.length := (slot_sub _ _).symm
    rw [pushes, ih (ha.mono ?_ fun _ h => h) (by omega)]
    · refine read_write_apart _ _ _ _ (ha.mono ?_ fun _ h => h)
      nth_rewrite 1 [hstart]
      exact Span.within_of_le (by omega) (by omega)
    · rw [pushes_fst]
      intro x hx
      unfold Span.Mem at hx ⊢
      dsimp only at hx ⊢
      omega

/-- Words that are pushed from `p + k` on, read from where they end, and a
stack further up that stays. -/
theorem pushes_below (ws : List UInt32) {k j : Nat} (hk : 4 * ws.length ≤ k) (hj : k ≤ j) (hfit : j + 4 * us.length ≤ 2 ^ 32)
    (h : Holds m (p + UInt32.ofNat j) us) : ∃ m', pushes ws.reverse (p + UInt32.ofNat k) m = (p + UInt32.ofNat (k - 4 * ws.length), m') ∧
      Holds m' (p + UInt32.ofNat (k - 4 * ws.length)) ws ∧ Holds m' (p + UInt32.ofNat j) us := by
  have htop : (pushes ws.reverse (p + UInt32.ofNat k) m).1 = p + UInt32.ofNat (k - 4 * ws.length) := by
    rw [pushes_fst, List.length_reverse, sub_eq_iff_eq_add, add_assoc, ← UInt32.ofNat_add, Nat.sub_add_cancel hk]
  have hpushed : Holds (pushes ws.reverse (p + UInt32.ofNat k) m).2 (pushes ws.reverse (p + UInt32.ofNat k) m).1 (ws.reverse.reverse ++ []) :=
    holds_pushes trivial (by rw [List.length_reverse, List.length_nil]; omega)
  rw [List.reverse_reverse, List.append_nil, htop] at hpushed
  refine ⟨_, Prod.ext htop rfl, hpushed, h.frame fun i hi => pushes_frame ?_ (by rw [List.length_reverse]; omega)⟩
  rw [htop, List.length_reverse, slot_offset]
  exact Span.apart_of_le (by omega) (by omega)

end WordStack

end CpuScheduler
