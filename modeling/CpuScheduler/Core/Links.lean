import Mathlib

/-!
# Linked lists in an array of elements

The kernel keeps its lists inside fixed arrays: an element has one or two
link fields and a list is a head pointer. A link field is a function
`ι → Option ι` (`none` is the null pointer), so that writing one field of
one element is `Function.update` and leaves every other field alone.

* `Seg next p xs q`: following `next` from `p` visits exactly `xs` and then
  stands at `q`.
* `Chains next frag p cs q`: the same for a list of lists. `next` leads from
  the head of one chain to the head of the following one and `frag` through
  the elements of a chain.
* `walk` / `chainsFrom` compute these lists, bounded by a number of steps.

The lemmas are the ones pointer code needs: append, frame (a write outside
the visited elements changes nothing), the write of the last link, and that
the visited list is determined by the memory.
-/
namespace CpuScheduler.Links

variable {ι : Type}

/-- From `p`, the links visit `xs` in order and end at `q`. -/
def Seg (next : ι → Option ι) : Option ι → List ι → Option ι → Prop
  | p, [], q => p = q
  | p, x :: xs, q => p = some x ∧ Seg next (next x) xs q

@[simp] theorem seg_nil {next : ι → Option ι} {p q : Option ι} : Seg next p [] q ↔ p = q := Iff.rfl

@[simp] theorem seg_cons {next : ι → Option ι} {p q : Option ι} {x : ι} {xs : List ι} :
    Seg next p (x :: xs) q ↔ p = some x ∧ Seg next (next x) xs q := Iff.rfl

theorem seg_append {next : ι → Option ι} {p q : Option ι} {xs ys : List ι} :
    Seg next p (xs ++ ys) q ↔ ∃ m, Seg next p xs m ∧ Seg next m ys q := by
  induction xs generalizing p with
  | nil => simp
  | cons x xs ih =>
    simp only [List.cons_append, seg_cons, ih]
    constructor
    · rintro ⟨h, m, h1, h2⟩; exact ⟨m, ⟨h, h1⟩, h2⟩
    · rintro ⟨m, ⟨h, h1⟩, h2⟩; exact ⟨h, m, h1, h2⟩

/-- Only the links of the visited elements matter. -/
theorem Seg.congr {next next' : ι → Option ι} {p q : Option ι} {xs : List ι}
    (h : Seg next p xs q) (he : ∀ x ∈ xs, next' x = next x) : Seg next' p xs q := by
  induction xs generalizing p with
  | nil => exact h
  | cons x xs ih =>
    refine ⟨h.1, ?_⟩
    rw [he x (by simp)]
    exact ih h.2 fun y hy => he y (by simp [hy])

theorem Seg.update [DecidableEq ι] {next : ι → Option ι} {p q v : Option ι} {xs : List ι} {e : ι}
    (h : Seg next p xs q) (he : e ∉ xs) : Seg (Function.update next e v) p xs q :=
  h.congr fun x hx => Function.update_of_ne (by rintro rfl; exact he hx) _ _

/-- Writing the link of the last visited element moves the end. -/
theorem Seg.update_last [DecidableEq ι] {next : ι → Option ι} {p q v : Option ι} {xs : List ι}
    {x : ι} (h : Seg next p (xs ++ [x]) q) (hx : x ∉ xs) :
    Seg (Function.update next x v) p (xs ++ [x]) v := by
  obtain ⟨m, h1, h2⟩ := seg_append.mp h
  exact seg_append.mpr ⟨m, h1.update hx, h2.1, by simp⟩

theorem Seg.unique {next : ι → Option ι} {p : Option ι} {xs ys : List ι}
    (hx : Seg next p xs none) (hy : Seg next p ys none) : xs = ys := by
  induction xs generalizing p ys with
  | nil =>
    cases ys with
    | nil => rfl
    | cons y ys => rw [seg_nil] at hx; subst hx; cases hy.1
  | cons x xs ih =>
    cases ys with
    | nil => rw [seg_nil] at hy; subst hy; cases hx.1
    | cons y ys =>
      have e : x = y := by have := hx.1.symm.trans hy.1; simpa using this
      subst e
      rw [ih hx.2 hy.2]

theorem Seg.head_none {next : ι → Option ι} {q : Option ι} {xs : List ι}
    (h : Seg next none xs q) : xs = [] ∧ q = none := by
  cases xs with
  | nil => exact ⟨rfl, h.symm⟩
  | cons x xs => cases h.1

theorem Seg.head_eq {next : ι → Option ι} {p : Option ι} {xs : List ι}
    (h : Seg next p xs none) : p = xs.head? := by
  cases xs with
  | nil => exact h
  | cons x xs => exact h.1

/-- Two memories with the same list have the same pointer to it. -/
theorem Seg.start_unique {next next' : ι → Option ι} {p p' q : Option ι} {xs : List ι}
    (h : Seg next p xs q) (h' : Seg next' p' xs q) : p = p' := by
  cases xs with
  | nil => exact h.trans h'.symm
  | cons x xs => exact h.1.trans h'.1.symm

/-- Two memories with the same list have the same links in it. -/
theorem Seg.next_unique {next next' : ι → Option ι} {p p' q : Option ι} {xs : List ι}
    (h : Seg next p xs q) (h' : Seg next' p' xs q) : ∀ x ∈ xs, next x = next' x := by
  induction xs generalizing p p' with
  | nil => intro x hx; cases hx
  | cons y xs ih =>
    intro x hx
    rcases List.mem_cons.mp hx with rfl | hx
    · exact h.2.start_unique h'.2
    · exact ih h.2 h'.2 x hx

/-- Linking `e` in behind `y`. -/
theorem Seg.insert [DecidableEq ι] {next : ι → Option ι} {p : Option ι} {xs ys : List ι} {y e : ι}
    (h : Seg next p (xs ++ y :: ys) none) (hnd : (xs ++ y :: ys).Nodup) (he : e ∉ xs ++ y :: ys) :
    Seg (Function.update (Function.update next e ys.head?) y (some e)) p (xs ++ y :: e :: ys)
      none := by
  simp only [List.mem_append, List.mem_cons, not_or] at he
  obtain ⟨hexs, hey, heys⟩ := he
  rw [List.nodup_append, List.nodup_cons] at hnd
  obtain ⟨-, ⟨hyys, -⟩, hxy⟩ := hnd
  obtain ⟨m, h1, h2, h3⟩ := seg_append.mp h
  refine seg_append.mpr ⟨m, (h1.update hexs).update fun hm => hxy y hm y (by simp) rfl, h2, ?_, ?_⟩
  · rw [Function.update_self]
  · rw [Function.update_of_ne hey, Function.update_self, ← h3.head_eq]
    exact (h3.update heys).update hyys

/-- The elements `next` visits from `p`, at most `fuel` of them. -/
def walk (next : ι → Option ι) : Nat → Option ι → List ι
  | 0, _ => []
  | _ + 1, none => []
  | fuel + 1, some x => x :: walk next fuel (next x)

theorem walk_eq {next : ι → Option ι} {p : Option ι} {xs : List ι} (h : Seg next p xs none)
    {fuel : Nat} (hf : xs.length ≤ fuel) : walk next fuel p = xs := by
  induction xs generalizing p fuel with
  | nil => rw [seg_nil] at h; subst h; cases fuel <;> rfl
  | cons x xs ih =>
    obtain ⟨rfl, h⟩ := h
    cases fuel with
    | zero => simp at hf
    | succ fuel => rw [walk, ih h (by simpa using hf)]

/-- Linking each element of an array to the one after it, from the `k`-th on. -/
theorem seg_finRange_drop {n : Nat} (k m : Nat) (hk : k + m = n) :
    Seg (fun i : Fin n => if hi : i.val + 1 < n then some ⟨i.val + 1, hi⟩ else none)
      (if hk : k < n then some ⟨k, hk⟩ else none) ((List.finRange n).drop k) none := by
  induction m generalizing k with
  | zero =>
    rw [dif_neg (by omega), List.drop_of_length_le (by simp; omega)]; rfl
  | succ m ih =>
    have hlt : k < n := by omega
    rw [dif_pos hlt, List.drop_eq_getElem_cons (by simpa using hlt), seg_cons]
    refine ⟨by simp, ?_⟩
    simpa using ih (k + 1) (by omega)

/-- The list a constructor makes of all elements, in array order. -/
theorem seg_finRange {n : Nat} [NeZero n] :
    Seg (fun i : Fin n => if hi : i.val + 1 < n then some ⟨i.val + 1, hi⟩ else none) (some 0) (List.finRange n) none := by
  have hseg := seg_finRange_drop (n := n) 0 n (by omega)
  rw [dif_pos (Nat.pos_of_ne_zero (NeZero.ne n)), List.drop_zero] at hseg
  exact hseg

/-! ## Lists of chains -/

/-- From `p`, `next` visits the heads of the chains `cs` and ends at `q`; each
chain is the `frag` list of its head. -/
def Chains (next frag : ι → Option ι) : Option ι → List (List ι) → Option ι → Prop
  | p, [], q => p = q
  | p, c :: cs, q => ∃ x xs, c = x :: xs ∧ p = some x ∧ Seg frag (frag x) xs none ∧
      Chains next frag (next x) cs q

@[simp] theorem chains_nil {next frag : ι → Option ι} {p q : Option ι} :
    Chains next frag p [] q ↔ p = q := Iff.rfl

@[simp] theorem chains_cons {next frag : ι → Option ι} {p q : Option ι} {x : ι} {xs : List ι}
    {cs : List (List ι)} : Chains next frag p ((x :: xs) :: cs) q ↔
      p = some x ∧ Seg frag (frag x) xs none ∧ Chains next frag (next x) cs q := by
  constructor
  · rintro ⟨y, ys, h, h1⟩; cases h; exact h1
  · intro h; exact ⟨x, xs, rfl, h⟩

theorem Chains.ne_nil {next frag : ι → Option ι} {p q : Option ι} {cs : List (List ι)}
    (h : Chains next frag p cs q) : ∀ c ∈ cs, c ≠ [] := by
  induction cs generalizing p with
  | nil => simp
  | cons c cs ih =>
    obtain ⟨x, xs, rfl, -, -, h⟩ := h
    intro d hd
    rcases List.mem_cons.mp hd with rfl | hd
    · simp
    · exact ih h d hd

theorem chains_append {next frag : ι → Option ι} {p q : Option ι} {cs ds : List (List ι)} :
    Chains next frag p (cs ++ ds) q ↔ ∃ m, Chains next frag p cs m ∧ Chains next frag m ds q := by
  induction cs generalizing p with
  | nil => simp
  | cons c cs ih =>
    simp only [List.cons_append, Chains, ih]
    constructor
    · rintro ⟨x, xs, h1, h2, h3, m, h4, h5⟩; exact ⟨m, ⟨x, xs, h1, h2, h3, h4⟩, h5⟩
    · rintro ⟨m, ⟨x, xs, h1, h2, h3, h4⟩, h5⟩; exact ⟨x, xs, h1, h2, h3, m, h4, h5⟩

theorem Chains.congr {next next' frag frag' : ι → Option ι} {p q : Option ι} {cs : List (List ι)}
    (h : Chains next frag p cs q) (he : ∀ x ∈ cs.flatten, next' x = next x ∧ frag' x = frag x) :
    Chains next' frag' p cs q := by
  induction cs generalizing p with
  | nil => exact h
  | cons c cs ih =>
    obtain ⟨x, xs, rfl, h1, h2, h3⟩ := h
    have hx := he x (by simp)
    refine ⟨x, xs, rfl, h1, ?_, ?_⟩
    · rw [hx.2]; exact h2.congr fun y hy => (he y (by simp [hy])).2
    · rw [hx.1]; exact ih h3 fun y hy => he y (by simp at hy ⊢; tauto)

/-- A write to the `next` link of an element outside the chains. -/
theorem Chains.update_next [DecidableEq ι] {next frag : ι → Option ι} {p q v : Option ι}
    {cs : List (List ι)} {e : ι} (h : Chains next frag p cs q) (he : e ∉ cs.flatten) :
    Chains (Function.update next e v) frag p cs q :=
  h.congr fun x hx => ⟨Function.update_of_ne (by rintro rfl; exact he hx) _ _, rfl⟩

/-- A write to the `frag` link of an element outside the chains. -/
theorem Chains.update_frag [DecidableEq ι] {next frag : ι → Option ι} {p q v : Option ι}
    {cs : List (List ι)} {e : ι} (h : Chains next frag p cs q) (he : e ∉ cs.flatten) :
    Chains next (Function.update frag e v) p cs q :=
  h.congr fun x hx => ⟨rfl, Function.update_of_ne (by rintro rfl; exact he hx) _ _⟩

/-- Writing the `next` link of the last head moves the end. -/
theorem Chains.update_last [DecidableEq ι] {next frag : ι → Option ι} {p q v : Option ι}
    {cs : List (List ι)} {x : ι} {xs : List ι} (h : Chains next frag p (cs ++ [x :: xs]) q)
    (hx : x ∉ cs.flatten) : Chains (Function.update next x v) frag p (cs ++ [x :: xs]) v := by
  obtain ⟨m, h1, h2⟩ := chains_append.mp h
  obtain ⟨h3, h4, -⟩ := chains_cons.mp h2
  exact chains_append.mpr ⟨m, h1.update_next hx, chains_cons.mpr ⟨h3, h4, by simp⟩⟩

theorem Chains.unique {next frag : ι → Option ι} {p : Option ι} {cs ds : List (List ι)}
    (hc : Chains next frag p cs none) (hd : Chains next frag p ds none) : cs = ds := by
  induction cs generalizing p ds with
  | nil =>
    cases ds with
    | nil => rfl
    | cons d ds => obtain ⟨y, ys, -, h, -⟩ := hd; rw [chains_nil] at hc; subst hc; cases h
  | cons c cs ih =>
    obtain ⟨x, xs, rfl, h1, h2, h3⟩ := hc
    cases ds with
    | nil => rw [chains_nil] at hd; subst hd; cases h1
    | cons d ds =>
      obtain ⟨y, ys, rfl, k1, k2, k3⟩ := hd
      have e : x = y := by have := h1.symm.trans k1; simpa using this
      subst e
      rw [h2.unique k2, ih h3 k3]

/-- The chains reached from `p`: at most `fuel` heads, at most `fuel` elements
in each. -/
def chainsFrom (next frag : ι → Option ι) (fuel : Nat) (p : Option ι) : List (List ι) :=
  (walk next fuel p).map fun x => walk frag fuel (some x)

theorem Chains.heads {next frag : ι → Option ι} {p q : Option ι} {cs : List (List ι)}
    (h : Chains next frag p cs q) : Seg next p (cs.filterMap List.head?) q := by
  induction cs generalizing p with
  | nil => exact h
  | cons c cs ih =>
    obtain ⟨x, xs, rfl, h1, -, h3⟩ := h
    exact ⟨h1, ih h3⟩

/-- Two memories with the same chains have the same links in each chain. -/
theorem Chains.frag_unique {next next' frag frag' : ι → Option ι} {p p' q q' : Option ι}
    {cs : List (List ι)} (h : Chains next frag p cs q) (h' : Chains next' frag' p' cs q') :
    ∀ x ∈ cs.flatten, frag x = frag' x := by
  induction cs generalizing p p' with
  | nil => intro x hx; cases hx
  | cons c cs ih =>
    obtain ⟨y, ys, rfl, -, h1, h2⟩ := h
    obtain ⟨-, k1, k2⟩ := chains_cons.mp h'
    intro x hx
    rcases List.mem_append.mp hx with hx | hx
    · have hseg : Seg frag (some y) (y :: ys) none := ⟨rfl, h1⟩
      have hseg' : Seg frag' (some y) (y :: ys) none := ⟨rfl, k1⟩
      exact hseg.next_unique hseg' x hx
    · exact ih h2 k2 x hx

theorem length_le_length_flatten {cs : List (List ι)} (h : ∀ c ∈ cs, c ≠ []) :
    cs.length ≤ cs.flatten.length := by
  induction cs with
  | nil => simp
  | cons c cs ih =>
    have h1 := ih fun d hd => h d (by simp [hd])
    have h2 := List.length_pos_iff.mpr (h c (by simp))
    simp only [List.length_cons, List.flatten_cons, List.length_append]; omega

theorem chainsFrom_eq {next frag : ι → Option ι} {p : Option ι} {cs : List (List ι)}
    (h : Chains next frag p cs none) {fuel : Nat} (hf : cs.flatten.length ≤ fuel) :
    chainsFrom next frag fuel p = cs := by
  have hh : (cs.filterMap List.head?).length ≤ fuel :=
    (List.length_filterMap_le _ _).trans ((length_le_length_flatten h.ne_nil).trans hf)
  rw [chainsFrom, walk_eq h.heads hh]
  clear hh
  induction cs generalizing p with
  | nil => rfl
  | cons c cs ih =>
    obtain ⟨x, xs, rfl, h1, h2, h3⟩ := h
    simp only [List.flatten_cons, List.length_append] at hf
    have hx : walk frag fuel (some x) = x :: xs := 
      walk_eq (seg_cons.mpr ⟨rfl, h2⟩) (by simp only [List.length_cons] at hf ⊢; omega)
    simp [hx, ih h3 (by omega)]

end CpuScheduler.Links
