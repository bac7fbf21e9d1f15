import CpuScheduler.Core.Links

/-!
# Doubly linked lists in an array of elements

`DList next prev head tail xs`: `next` visits `xs` from `head` on and `prev`
visits it in reverse from `tail` on. Turning a list round swaps the two
directions (`DList.flip`), so an operation that treats both ends alike is
proved for one of them.
-/
namespace CpuScheduler.Links

variable {ι : Type}

structure DList (next prev : ι → Option ι) (head tail : Option ι) (xs : List ι) : Prop where
  forward : Seg next head xs none
  backward : Seg prev tail xs.reverse none
  nodup : xs.Nodup

theorem DList.flip {next prev : ι → Option ι} {head tail : Option ι} {xs : List ι}
    (h : DList next prev head tail xs) : DList prev next tail head xs.reverse :=
  ⟨h.backward, by rw [List.reverse_reverse]; exact h.forward, List.nodup_reverse.mpr h.nodup⟩

theorem DList.head_eq {next prev : ι → Option ι} {head tail : Option ι} {xs : List ι}
    (h : DList next prev head tail xs) : head = xs.head? := h.forward.head_eq

theorem DList.tail_eq {next prev : ι → Option ι} {head tail : Option ι} {xs : List ι}
    (h : DList next prev head tail xs) : tail = xs.getLast? := by
  rw [← List.head?_reverse]
  exact h.backward.head_eq

/-- The link of an element leads to the element behind it. -/
theorem Seg.next_eq {next : ι → Option ι} {p : Option ι} {as bs : List ι} {e : ι}
    (h : Seg next p (as ++ e :: bs) none) : next e = bs.head? := by
  obtain ⟨m, _, _, h2⟩ := seg_append.mp h
  exact h2.head_eq

theorem DList.next_eq {next prev : ι → Option ι} {head tail : Option ι} {as bs : List ι} {e : ι}
    (h : DList next prev head tail (as ++ e :: bs)) : next e = bs.head? := h.forward.next_eq

theorem DList.prev_eq {next prev : ι → Option ι} {head tail : Option ι} {as bs : List ι} {e : ι}
    (h : DList next prev head tail (as ++ e :: bs)) : prev e = as.getLast? := by
  have hflip : Seg prev tail (bs.reverse ++ e :: as.reverse) none := by simpa using h.backward
  rw [hflip.next_eq, List.head?_reverse]

section
variable [DecidableEq ι]

/-- The link of `p`, if there is such an element, is `v`. -/
def setLink (link : ι → Option ι) (p v : Option ι) : ι → Option ι :=
  match p with
  | some p => Function.update link p v
  | none => link

/-- The end of a list is `v`, unless there is an element `p` in front. -/
def setEnd (last p v : Option ι) : Option ι :=
  match p with
  | some _ => last
  | none => v

theorem setLink_of_ne {link : ι → Option ι} {p v : Option ι} {x : ι} (h : p ≠ some x) : setLink link p v x = link x := by
  cases p with
  | none => rfl
  | some p => exact Function.update_of_ne (fun hx => h (by rw [hx])) _ _

/-- A link outside the list does not matter. -/
theorem DList.update_next {next prev : ι → Option ι} {head tail v : Option ι} {xs : List ι} {e : ι}
    (h : DList next prev head tail xs) (he : e ∉ xs) : DList (Function.update next e v) prev head tail xs :=
  ⟨h.forward.update he, h.backward, h.nodup⟩

/-- Taking `e` out: the link in front of it, or the head, gets its link. -/
theorem Seg.unlink {next : ι → Option ι} {p : Option ι} {as bs : List ι} {e : ι}
    (h : Seg next p (as ++ e :: bs) none) (hnd : (as ++ e :: bs).Nodup) :
    Seg (setLink next as.getLast? (next e)) (setEnd p as.getLast? (next e)) (as ++ bs) none := by
  rcases List.eq_nil_or_concat as with rfl | ⟨as, x, rfl⟩
  · exact h.2
  · rw [List.concat_eq_append] at *
    rw [List.getLast?_concat]
    obtain ⟨m, h1, _, h2⟩ := seg_append.mp h
    rw [List.nodup_append] at hnd
    obtain ⟨hnd, _, hdisj⟩ := hnd
    have hxbs : x ∉ bs := fun hx => hdisj x (by simp) x (List.mem_cons_of_mem _ hx) rfl
    have hxas : x ∉ as := by
      rw [List.nodup_append] at hnd
      exact fun hx => hnd.2.2 x hx x (by simp) rfl
    exact seg_append.mpr ⟨next e, h1.update_last hxas, h2.update hxbs⟩

/-- The first element. -/
theorem DList.push {next prev : ι → Option ι} {tail : Option ι} {xs : List ι} (e : ι)
    (h : DList next prev none tail xs) :
    DList (Function.update next e none) (Function.update prev e none) (some e) (some e) (e :: xs) := by
  obtain ⟨rfl, _⟩ := h.forward.head_none
  exact ⟨⟨rfl, Function.update_self _ _ _⟩, ⟨rfl, Function.update_self _ _ _⟩, List.nodup_singleton e⟩

/-- A new element in front of the others. -/
theorem DList.pushFront {next prev : ι → Option ι} {tail : Option ι} {xs : List ι} {e x : ι}
    (h : DList next prev (some x) tail xs) (he : e ∉ xs) :
    DList (Function.update next e (some x)) (Function.update (Function.update prev e none) x (some e)) (some e) tail
      (e :: xs) := by
  cases xs with
  | nil => cases h.forward
  | cons y xs =>
    cases (h.head_eq : some x = some y)
    refine ⟨⟨rfl, ?_⟩, ?_, List.nodup_cons.mpr ⟨he, h.nodup⟩⟩
    · rw [Function.update_self]
      exact h.forward.update he
    · have hback : Seg prev tail (xs.reverse ++ [x]) none := by simpa using h.backward
      have hx : x ∉ xs.reverse := by
        rw [List.mem_reverse]
        exact (List.nodup_cons.mp h.nodup).1
      have he' : e ∉ xs.reverse ++ [x] := by simpa [or_comm] using he
      have hback' : Seg (Function.update (Function.update prev e none) x (some e)) tail (xs.reverse ++ [x]) (some e) :=
        (hback.update he').update_last hx
      rw [List.reverse_cons, List.reverse_cons]
      refine seg_append.mpr ⟨some e, hback', rfl, ?_⟩
      rw [Function.update_of_ne (by rintro rfl; exact he (by simp)), Function.update_self]
      rfl

/-- A new element at the back. -/
theorem DList.pushBack {next prev : ι → Option ι} {head : Option ι} {xs : List ι} {e x : ι}
    (h : DList next prev head (some x) xs) (he : e ∉ xs) :
    DList (Function.update (Function.update next x (some e)) e none) (Function.update prev e (some x)) head (some e)
      (xs ++ [e]) := by
  have hx : x ∈ xs := List.mem_of_getLast? h.tail_eq.symm
  have hpush := (h.flip.pushFront (by rwa [List.mem_reverse])).flip
  rw [Function.update_comm (by rintro rfl; exact he hx)]
  simpa using hpush

/-- Taking an element out. -/
theorem DList.unlink {next prev : ι → Option ι} {head tail : Option ι} {as bs : List ι} {e : ι}
    (h : DList next prev head tail (as ++ e :: bs)) :
    DList (setLink next (prev e) (next e)) (setLink prev (next e) (prev e)) (setEnd head (prev e) (next e))
      (setEnd tail (next e) (prev e)) (as ++ bs) := by
  have hflip : DList prev next tail head (bs.reverse ++ e :: as.reverse) := by simpa using h.flip
  have hforward := h.forward.unlink h.nodup
  have hbackward := hflip.forward.unlink hflip.nodup
  rw [← h.prev_eq] at hforward
  rw [← hflip.prev_eq] at hbackward
  refine ⟨hforward, ?_, h.nodup.sublist (List.Sublist.append_left (List.sublist_cons_self e bs) as)⟩
  rw [List.reverse_append]
  exact hbackward

end

end CpuScheduler.Links
