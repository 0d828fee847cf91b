import Mathlib.Algebra.BigOperators.Group.List.Basic
import Mathlib.Algebra.GroupWithZero.Nat
import Reclaim.Batches

/-! The batches of a list are consecutive, so that joining them gives the list back; there are as
many as asked for, and their sizes differ by at most one. -/

namespace Reclaim

def draw {α : Type} : List Nat → List α → List (List α) × List α
  | [], supply => ([], supply)
  | size :: sizes, supply =>
      let (pieces, left) := draw sizes (supply.drop size)
      (supply.take size :: pieces, left)

structure Divided {α : Type} (items : List α) (parts : Nat) (pieces : List (List α)) : Prop where
  count : pieces.length = parts
  joined : pieces.flatten = items
  sizes : ∀ index piece, pieces[index]? = some piece →
    piece.length = items.length / parts + if index < items.length % parts then 1 else 0
  falling : pieces.Pairwise fun piece later => later.length ≤ piece.length
  even : ∀ piece ∈ pieces, ∀ other ∈ pieces, piece.length ≤ other.length + 1
  drained : draw ((List.range parts).map (batchSize items.length parts)) items = (pieces, [])

theorem draw_eq {α : Type} (sizes : List Nat) (supply : List α) :
    draw sizes supply = (cut sizes supply, supply.drop sizes.sum) := by
  induction sizes generalizing supply with
  | nil => rfl
  | cons size rest ih => rw [draw, ih, cut, List.sum_cons, List.drop_drop]

theorem cut_flatten {α : Type} (sizes : List Nat) (items : List α)
    (whole : sizes.sum = items.length) : (cut sizes items).flatten = items := by
  induction sizes generalizing items with
  | nil =>
      have none : items = [] := List.eq_nil_of_length_eq_zero (by simpa using whole.symm)
      rw [none]
      rfl
  | cons size rest ih =>
      rw [List.sum_cons] at whole
      rw [cut, List.flatten_cons, ih _ (by rw [List.length_drop]; omega), List.take_append_drop]

theorem cut_lengths {α : Type} (sizes : List Nat) (items : List α)
    (enough : sizes.sum ≤ items.length) : (cut sizes items).map List.length = sizes := by
  induction sizes generalizing items with
  | nil => rfl
  | cons size rest ih =>
      rw [List.sum_cons] at enough
      rw [cut, List.map_cons, ih _ (by rw [List.length_drop]; omega), List.length_take]
      congr 1
      omega

theorem extra_sum (parts extra : Nat) :
    ((List.range parts).map fun index => if index < extra then 1 else 0).sum = min parts extra := by
  induction parts with
  | zero => simp
  | succ parts ih =>
      rw [List.range_succ, List.map_append, List.sum_append, ih]
      by_cases within : parts < extra
      · simp only [List.map_cons, List.map_nil, List.sum_cons, List.sum_nil, within, if_true]
        omega
      · simp only [List.map_cons, List.map_nil, List.sum_cons, List.sum_nil, within, if_false]
        omega

theorem batchSize_sum (total : Nat) {parts : Nat} (some : 0 < parts) :
    ((List.range parts).map (batchSize total parts)).sum = total := by
  have split : (List.range parts).map (batchSize total parts) =
      (List.range parts).map fun index =>
        total / parts + if index < total % parts then 1 else 0 := rfl
  have less := Nat.mod_lt total some
  have whole := Nat.div_add_mod total parts
  rw [split, List.sum_map_add, extra_sum]
  simp only [List.map_const', List.length_range, List.sum_replicate_nat]
  omega

theorem batches_eq {α : Type} (items : List α) {parts : Nat} (some : 0 < parts) :
    ∃ pieces, batches items parts = .ok pieces ∧ pieces.flatten = items ∧
      pieces.map List.length = (List.range parts).map (batchSize items.length parts) := by
  have whole := batchSize_sum items.length some
  refine ⟨_, if_neg (by omega), cut_flatten _ _ whole, cut_lengths _ _ ?_⟩
  exact Nat.le_of_eq whole

theorem batches_some {α : Type} {items : List α} {parts : Nat} {pieces : List (List α)}
    (divided : batches items parts = .ok pieces) :
    pieces.flatten = items ∧ pieces.length = parts := by
  have some : 0 < parts := by
    by_contra none
    rw [Nat.eq_zero_of_not_pos none] at divided
    cases divided
  obtain ⟨others, same, flat, lengths⟩ := batches_eq items some
  obtain rfl : pieces = others := Except.ok.inj (divided.symm.trans same)
  exact ⟨flat, by simpa using congrArg List.length lengths⟩

theorem batchSize_bounds (total parts index : Nat) :
    total / parts ≤ batchSize total parts index ∧
      batchSize total parts index ≤ total / parts + 1 := by
  unfold batchSize
  split
  · exact ⟨Nat.le_succ _, Nat.le_refl _⟩
  · exact ⟨Nat.le_refl _, Nat.le_succ _⟩

theorem batchSize_falls (total parts : Nat) {index later : Nat} (before : index < later) :
    batchSize total parts later ≤ batchSize total parts index := by
  have least := (batchSize_bounds total parts index).1
  unfold batchSize at least ⊢
  by_cases extra : later < total % parts
  · exact Nat.le_of_eq (by rw [if_pos extra, if_pos (Nat.lt_trans before extra)])
  · rw [if_neg extra]
    exact least

/-- A list is cut into consecutive pieces. The longer ones come first, by one item at most, and
nothing is left over when pieces of these sizes are drawn from the list. -/
theorem batches_divide {α : Type} (items : List α) {parts : Nat} (some : 0 < parts) :
    batches items 0 = .error .noBatches ∧
      ∃ pieces, batches items parts = .ok pieces ∧ Divided items parts pieces := by
  obtain ⟨pieces, divided, joined, lengths⟩ := batches_eq items some
  have cuts : pieces = cut ((List.range parts).map (batchSize items.length parts)) items := by
    rw [batches, if_neg (Nat.ne_of_gt some)] at divided
    exact (Except.ok.inj divided).symm
  have length {index : Nat} {piece : List α} (here : pieces[index]? = .some piece) :
      piece.length = batchSize items.length parts index := by
    have same := congrArg (fun sizes => sizes[index]?) lengths
    have bound := (List.getElem?_eq_some_iff.mp here).1
    have count : pieces.length = parts := by simpa using congrArg List.length lengths
    rw [count] at bound
    simpa [here, List.getElem?_range bound] using same
  have bounds {piece : List α} (member : piece ∈ pieces) :
      items.length / parts ≤ piece.length ∧ piece.length ≤ items.length / parts + 1 := by
    obtain ⟨index, here⟩ := List.mem_iff_getElem?.mp member
    rw [length here]
    exact batchSize_bounds _ _ _
  refine ⟨rfl, pieces, divided, ?_, joined, ?_, ?_, ?_, ?_⟩
  · simpa using congrArg List.length lengths
  · intro index piece here
    exact length here
  · have falls : ((List.range parts).map (batchSize items.length parts)).Pairwise
        fun size later => later ≤ size :=
      List.pairwise_map.mpr (List.pairwise_lt_range.imp (batchSize_falls _ _))
    rw [← lengths] at falls
    exact List.pairwise_map.mp falls
  · intro piece member other inside
    exact Nat.le_trans (bounds member).2 (Nat.succ_le_succ (bounds inside).1)
  · rw [draw_eq, ← cuts, batchSize_sum _ some, List.drop_length]

/-- More parts than items: the first parts have one each, the others none. -/
theorem batches_divide_few : 0 < 5 ∧ batches [7, 8, 9] 5 = .ok [[7], [8], [9], [], []] ∧
    Divided [7, 8, 9] 5 [[7], [8], [9], [], []] := by
  obtain ⟨_, pieces, divided, whole⟩ := batches_divide [7, 8, 9] (by decide : 0 < 5)
  have same : batches [7, 8, 9] 5 = .ok [[7], [8], [9], [], []] := rfl
  rw [same] at divided
  cases divided
  exact ⟨by decide, same, whole⟩

end Reclaim
