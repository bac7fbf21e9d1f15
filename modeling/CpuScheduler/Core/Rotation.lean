import Mathlib

/-!
# Going round a list that changes

A pointer goes round a list from each element to the one behind it, and from
the last one back to the first. Meanwhile elements come in at the front and
others, never the one at the pointer, go out. `Turn X Y`: since the pointer
was last at `X`, it has been at `Y` once if `Y` lies on the way it has gone,
and otherwise not at all. A change of the list moves no element past another
(`SameOrder`), so it does not disturb the count; when the pointer is about to
come to `X` again, it has been at every `Y` once (`Turn.finish`).
-/
namespace CpuScheduler.Rotation

variable {ι : Type} [DecidableEq ι] {L L' : List ι} {X Y c d : ι} {sel : List ι}

/-- The elements of both lists stand in the same order in both. -/
def SameOrder (L L' : List ι) : Prop :=
  ∀ a b, a ∈ L → a ∈ L' → b ∈ L → b ∈ L' → (L.idxOf a < L.idxOf b ↔ L'.idxOf a < L'.idxOf b)

theorem SameOrder.refl (L : List ι) : SameOrder L L := fun _ _ _ _ _ _ => Iff.rfl

theorem sameOrder_cons {z : ι} (hz : z ∉ L) : SameOrder L (z :: L) := by
  intro a b ha _ hb _
  have hza : z ≠ a := fun h => hz (h ▸ ha)
  have hzb : z ≠ b := fun h => hz (h ▸ hb)
  rw [List.idxOf_cons_ne L hza, List.idxOf_cons_ne L hzb, Nat.succ_lt_succ_iff]

theorem idxOf_remove {P Q : List ι} {z a : ι} (ha : a ≠ z) :
    (P ++ z :: Q).idxOf a = if a ∈ P then (P ++ Q).idxOf a else (P ++ Q).idxOf a + 1 := by
  split
  · rename_i hP
    rw [List.idxOf_append_of_mem hP, List.idxOf_append_of_mem hP]
  · rename_i hP
    rw [List.idxOf_append_of_notMem hP, List.idxOf_append_of_notMem hP, List.idxOf_cons_ne Q ha.symm]
    omega

theorem sameOrder_remove {P Q : List ι} {z : ι} (hnd : (P ++ z :: Q).Nodup) : SameOrder (P ++ z :: Q) (P ++ Q) := by
  have hz : z ∉ P ++ Q := (List.nodup_cons.mp (List.nodup_middle.mp hnd)).1
  intro a b _ ha _ hb
  have haz : a ≠ z := fun h => hz (h ▸ ha)
  have hbz : b ≠ z := fun h => hz (h ▸ hb)
  rw [idxOf_remove haz, idxOf_remove hbz]
  -- an element of `P` stands in front of one that is not
  have hfront {x : ι} (hx : x ∈ P) : (P ++ Q).idxOf x < P.length := by
    rw [List.idxOf_append_of_mem hx]
    exact List.idxOf_lt_length_of_mem hx
  have hback {x : ι} (hx : x ∉ P) : P.length ≤ (P ++ Q).idxOf x := by
    rw [List.idxOf_append_of_notMem hx]
    omega
  by_cases haP : a ∈ P <;> by_cases hbP : b ∈ P
  · rw [if_pos haP, if_pos hbP]
  · have h1 := hfront haP
    have h2 := hback hbP
    rw [if_pos haP, if_neg hbP]
    omega
  · have h1 := hback haP
    have h2 := hfront hbP
    rw [if_neg haP, if_pos hbP]
    omega
  · rw [if_neg haP, if_neg hbP, Nat.succ_lt_succ_iff]

/-- Behind `c` comes `d`, the first element if `c` is the last. -/
def Next (L : List ι) (c d : ι) : Prop :=
  (∃ P Q, L = P ++ c :: d :: Q) ∨ (∃ P, L = P ++ [c]) ∧ ∃ Q, L = d :: Q

/-- The positions: `d` stands right behind `c`, or at the front with `c` at
the end. -/
theorem Next.idxOf (h : Next L c d) (hnd : L.Nodup) :
    L.idxOf d = L.idxOf c + 1 ∨ L.idxOf d = 0 ∧ L.idxOf c + 1 = L.length := by
  rcases h with ⟨P, Q, rfl⟩ | ⟨⟨P, hP⟩, Q, hQ⟩
  · left
    have hmid := List.nodup_middle.mp hnd
    have hc : c ∉ P := fun h => (List.nodup_cons.mp hmid).1 (List.mem_append_left _ h)
    have hdc : c ≠ d := fun h => (List.nodup_cons.mp hmid).1 (by simp [h])
    have hd : d ∉ P := by
      intro h
      have hdis := List.disjoint_of_nodup_append hnd
      exact hdis h (by simp)
    rw [List.idxOf_append_of_notMem hc, List.idxOf_append_of_notMem hd, List.idxOf_cons_ne _ hdc, List.idxOf_cons_self,
      List.idxOf_cons_self]
  · right
    have hc : c ∉ P := by
      rw [hP] at hnd
      exact fun h => List.disjoint_of_nodup_append hnd h (by simp)
    refine ⟨by rw [hQ, List.idxOf_cons_self], ?_⟩
    rw [hP, List.idxOf_append_of_notMem hc, List.idxOf_cons_self, List.length_append, List.length_singleton, Nat.add_zero]

/-- `Y` lies on the way from `X` to `c`. -/
def OnWay (L : List ι) (X Y c : ι) : Prop :=
  if L.idxOf X ≤ L.idxOf c then L.idxOf X < L.idxOf Y ∧ L.idxOf Y ≤ L.idxOf c
  else L.idxOf X < L.idxOf Y ∨ L.idxOf Y ≤ L.idxOf c

instance : Decidable (OnWay L X Y c) := by
  unfold OnWay
  infer_instance

/-- The pointer stands at `c`; since it left `X` it has been at `sel`. -/
structure Turn (X Y : ι) (L : List ι) (c : ι) (sel : List ι) : Prop where
  nodup : L.Nodup
  left : X ∈ L
  other : Y ∈ L
  pointer : c ∈ L
  ne : Y ≠ X
  count : sel.count Y = if OnWay L X Y c then 1 else 0

theorem turn_start (hnd : L.Nodup) (hX : X ∈ L) (hY : Y ∈ L) (hne : Y ≠ X) : Turn X Y L X [] := by
  refine ⟨hnd, hX, hY, hX, hne, ?_⟩
  rw [if_neg]
  · rfl
  · unfold OnWay
    rw [if_pos (Nat.le_refl _)]
    omega

/-- The list changes, but not at the three elements. -/
theorem Turn.reorder (h : Turn X Y L c sel) (hnd : L'.Nodup) (horder : SameOrder L L') (hX : X ∈ L') (hY : Y ∈ L')
    (hc : c ∈ L') : Turn X Y L' c sel := by
  refine ⟨hnd, hX, hY, hc, h.ne, ?_⟩
  rw [h.count]
  have hcX := horder c X h.pointer hc h.left hX
  have hXY := horder X Y h.left hX h.other hY
  have hcY := horder c Y h.pointer hc h.other hY
  have hway : OnWay L X Y c ↔ OnWay L' X Y c := by
    unfold OnWay
    by_cases hle : L.idxOf X ≤ L.idxOf c
    · rw [if_pos hle, if_pos (by omega), hXY]
      omega
    · rw [if_neg hle, if_neg (by omega), hXY]
      omega
  simp only [hway]

/-- The pointer goes on, but not to `X`. -/
theorem Turn.next (h : Turn X Y L c sel) (hnext : Next L c d) (hd : d ∈ L) (hdX : d ≠ X) :
    Turn X Y L d (sel ++ [d]) := by
  refine ⟨h.nodup, h.left, h.other, hd, h.ne, ?_⟩
  have hXd : L.idxOf X ≠ L.idxOf d := fun he => hdX (List.idxOf_inj h.left |>.mp he).symm
  have hYX : L.idxOf Y ≠ L.idxOf X := fun he => h.ne (List.idxOf_inj h.other |>.mp he)
  have hXlt := List.idxOf_lt_length_of_mem h.left
  have hYlt := List.idxOf_lt_length_of_mem h.other
  have hidx := hnext.idxOf h.nodup
  rw [List.count_append, h.count]
  by_cases hYd : Y = d
  · subst hYd
    have hbefore : ¬ OnWay L X Y c := by
      unfold OnWay
      split <;> omega
    have hafter : OnWay L X Y Y := by
      unfold OnWay
      split <;> omega
    rw [if_neg hbefore, if_pos hafter, List.count_singleton_self]
  · have hidxY : L.idxOf Y ≠ L.idxOf d := fun he => hYd (List.idxOf_inj h.other |>.mp he)
    have hway : OnWay L X Y c ↔ OnWay L X Y d := by
      unfold OnWay
      split <;> split <;> omega
    have hzero : [d].count Y = 0 := List.count_eq_zero.mpr (by simpa using hYd)
    rw [hzero]
    simp only [hway, Nat.add_zero]

/-- The pointer is about to come back to `X`. -/
theorem Turn.finish (h : Turn X Y L c sel) (hnext : Next L c X) : sel.count Y = 1 := by
  have hYX : L.idxOf Y ≠ L.idxOf X := fun he => h.ne (List.idxOf_inj h.other |>.mp he)
  have hYlt := List.idxOf_lt_length_of_mem h.other
  have hidx := hnext.idxOf h.nodup
  rw [h.count, if_pos]
  unfold OnWay
  split <;> omega

end CpuScheduler.Rotation
