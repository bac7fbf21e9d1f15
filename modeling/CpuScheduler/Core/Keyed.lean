import Mathlib

/-!
# Lists whose elements have keys

`view key value l` is the map that a list represents: the value of the first
element with a key. With different keys the order does not matter, so adding an
element anywhere is an update (`view_split`), taking it away is the update back
(`view_erased`), and the number of keys with a property is the number of
elements with it (`ncard_view`).
-/
namespace CpuScheduler.Keyed

variable {α β K : Type} [DecidableEq K]

def view (key : α → K) (value : α → β) (l : List α) (k : K) : Option β := (l.find? fun e => key e == k).map value

variable {key : α → K} {value value' : α → β} {l as bs : List α} {e : α} {k : K}

theorem view_congr (h : ∀ e ∈ l, value e = value' e) : view key value l = view key value' l := by
  funext k
  unfold view
  cases hfind : l.find? fun e => key e == k with
  | none => rfl
  | some e => rw [Option.map_some, Option.map_some, h e (List.mem_of_find?_eq_some hfind)]

theorem view_eq_none (h : k ∉ l.map key) : view key value l k = none := by
  unfold view
  rw [List.find?_eq_none.mpr fun e he => ?_, Option.map_none]
  simp only [beq_iff_eq]
  exact fun heq => h (heq ▸ List.mem_map_of_mem he)

theorem view_split (hnd : ((as ++ e :: bs).map key).Nodup) :
    view key value (as ++ e :: bs) = Function.update (view key value (as ++ bs)) (key e) (some (value e)) := by
  rw [List.map_append, List.map_cons] at hnd
  have hnot : key e ∉ as.map key := fun hmem => (List.nodup_append.mp hnd).2.2 _ hmem _ List.mem_cons_self rfl
  funext k
  unfold view
  rw [List.find?_append]
  by_cases hk : k = key e
  · subst hk
    rw [Function.update_self, List.find?_eq_none.mpr fun a ha => ?_]
    · simp
    · simp only [beq_iff_eq]
      exact fun heq => hnot (heq ▸ List.mem_map_of_mem ha)
  · rw [Function.update_of_ne hk, List.find?_append, List.find?_cons_of_neg (by simpa using Ne.symm hk)]

/-- Without the element, its key has no value. -/
theorem view_erased (hnd : ((as ++ e :: bs).map key).Nodup) :
    view key value (as ++ bs) = Function.update (view key value (as ++ e :: bs)) (key e) none := by
  have hnot : key e ∉ (as ++ bs).map key := by
    rw [List.map_append, List.map_cons] at hnd
    rw [List.map_append]
    exact (List.nodup_cons.mp (List.nodup_middle.mp hnd)).1
  rw [view_split hnd, Function.update_idem, ← view_eq_none hnot, Function.update_eq_self]

theorem view_eq_some (hnd : (l.map key).Nodup) {b : β} :
    view key value l k = some b ↔ ∃ e ∈ l, key e = k ∧ value e = b := by
  constructor
  · intro h
    obtain ⟨e, hfind, hvalue⟩ := Option.map_eq_some_iff.mp h
    exact ⟨e, List.mem_of_find?_eq_some hfind, by simpa using List.find?_some hfind, hvalue⟩
  · rintro ⟨e, he, rfl, rfl⟩
    obtain ⟨as, bs, rfl⟩ := List.append_of_mem he
    rw [view_split hnd, Function.update_self]

variable (value) in
/-- The keys whose value satisfies `P`. -/
theorem ncard_view (hnd : (l.map key).Nodup) (P : β → Bool) :
    {k | ∃ b, view key value l k = some b ∧ P b = true}.ncard = (l.filter fun e => P (value e)).length := by
  have hset : {k | ∃ b, view key value l k = some b ∧ P b = true} =
      ↑((l.filter fun e => P (value e)).map key).toFinset := by
    ext k
    simp only [Set.mem_ofPred_eq, view_eq_some hnd, List.coe_toFinset, List.mem_map, List.mem_filter]
    constructor
    · rintro ⟨b, ⟨e, he, hk, rfl⟩, hP⟩
      exact ⟨e, ⟨he, hP⟩, hk⟩
    · rintro ⟨e, ⟨he, hP⟩, hk⟩
      exact ⟨_, ⟨e, he, hk, rfl⟩, hP⟩
  rw [hset, Set.ncard_coe_finset, List.toFinset_card_of_nodup, List.length_map]
  exact hnd.sublist (List.filter_sublist.map key)

end CpuScheduler.Keyed
