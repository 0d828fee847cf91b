import Mathlib.Algebra.BigOperators.Group.List.Basic
import Mathlib.Algebra.GroupWithZero.Nat
import Mathlib.Data.List.Forall2

/-! Lists item by item: what stands at a place, and what changes when another item takes it. -/

namespace Reclaim

theorem getElem?_split {α : Type} {items : List α} {index : Nat} {item : α}
    (here : items[index]? = some item) : ∃ early late, items = early ++ item :: late ∧
      early.length = index ∧ ∀ other, items.set index other = early ++ other :: late := by
  obtain ⟨inside, rfl⟩ := List.getElem?_eq_some_iff.mp here
  refine ⟨items.take index, items.drop (index + 1), ?_, by simp; omega, fun other => ?_⟩
  · rw [← List.drop_eq_getElem_cons inside, List.take_append_drop]
  · rw [List.set_eq_take_append_cons_drop, if_pos inside]

theorem set_concat_length {α : Type} (items : List α) (old changed : α) :
    (items ++ [old]).set items.length changed = items ++ [changed] := by
  simp

theorem forall_mem_middle {α : Type} {property : α → Prop} {first last : List α} {item : α} :
    (∀ other ∈ first ++ item :: last, property other) ↔
      (∀ other ∈ first, property other) ∧ property item ∧ ∀ other ∈ last, property other := by
  rw [List.forall_mem_append, List.forall_mem_cons]

theorem forall₂_middle {α β : Type} {Related : α → β → Prop} {before after : List α} {item : α}
    {others : List β} (related : List.Forall₂ Related (before ++ item :: after) others) :
    ∃ early other late, others = early ++ other :: late ∧ before.length = early.length ∧
      List.Forall₂ Related before early ∧ Related item other ∧
      List.Forall₂ Related after late := by
  induction before generalizing others with
  | nil =>
      cases related with
      | @cons _ other _ late first rest =>
          exact ⟨[], other, late, rfl, rfl, List.Forall₂.nil, first, rest⟩
  | cons head before ih =>
      cases related with
      | @cons _ partner _ _ first rest =>
          obtain ⟨early, other, late, rfl, same, front, here, back⟩ := ih rest
          exact ⟨partner :: early, other, late, rfl, by simp [same], List.Forall₂.cons first front,
            here, back⟩

theorem getElem?_middle {α : Type} {front back : List α} {position : Nat} (item other : α)
    (distinct : position ≠ front.length) :
    (front ++ item :: back)[position]? = (front ++ other :: back)[position]? := by
  by_cases before : position < front.length
  · rw [List.getElem?_append_left before, List.getElem?_append_left before]
  · obtain ⟨offset, rfl⟩ : ∃ offset, position = front.length + (offset + 1) :=
      ⟨position - front.length - 1, by omega⟩
    rw [List.getElem?_append_right (by omega), List.getElem?_append_right (by omega),
      Nat.add_sub_cancel_left, List.getElem?_cons_succ, List.getElem?_cons_succ]

theorem zipWith_middle {α β γ : Type} (combine : α → β → γ) {before after : List α}
    {early late : List β} (same : before.length = early.length) (item : α) (other : β) :
    List.zipWith combine (before ++ item :: after) (early ++ other :: late) =
      List.zipWith combine before early ++ combine item other :: List.zipWith combine after late := by
  rw [List.zipWith_append same, List.zipWith_cons_cons]

theorem modify_middle {α : Type} (front : List α) (item : α) (back : List α) (change : α → α) :
    (front ++ item :: back).modify front.length change = front ++ change item :: back := by
  induction front with
  | nil => rfl
  | cons head front ih => exact congrArg (head :: ·) ih

theorem sum_set {α : Type} (measure : α → Nat) {items : List α} {index : Nat} {old : α}
    (here : items[index]? = some old) (new : α) :
    ((items.set index new).map measure).sum + measure old =
      (items.map measure).sum + measure new := by
  obtain ⟨early, late, rfl, rfl, replaced⟩ := getElem?_split here
  simp only [replaced, List.map_append, List.map_cons, List.sum_append, List.sum_cons]
  omega

theorem le_sum {α : Type} (measure : α → Nat) {items : List α} {index : Nat} {item : α}
    (here : items[index]? = some item) : measure item ≤ (items.map measure).sum := by
  obtain ⟨early, late, rfl, rfl, _⟩ := getElem?_split here
  simp only [List.map_append, List.map_cons, List.sum_append, List.sum_cons]
  omega

end Reclaim
