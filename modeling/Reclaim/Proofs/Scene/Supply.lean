import Reclaim.Proofs.Scene.Round
import Reclaim.Proofs.Shelf.Accounts
import Reclaim.Proofs.Space.Filling

/-! How many objects of one size there is room for. On a free list it is the sum of what its blocks serve,
in any order; in a space that has just been swept it is the same whoever swept and published first. -/

namespace Reclaim

variable {request size : Nat}

theorem Heap.Sound.fills {heap other : Heap} (sound : heap.Sound)
    (distinct : (heap.pages.map (·.id)).Nodup) (few : heap.pages.length ≤ Word.halfLimit)
    (alike : other.Alike heap) (kind : SpaceKind) (rounds : Word.Rounds request size) :
    (other.space kind).Fills request (FreeBlock.capacity size (heap.space kind).free.blocks) := by
  have same := alike.space kind
  have part : (heap.space kind).swept.Sublist heap.pages :=
    (List.sublist_append_right _ _).trans (heap.pages_sublist kind)
  have mapped := (sound.space kind).mapped.alike same.swept same.free
  have alone : ((other.space kind).swept.map (·.id)).Nodup :=
    (same.swept.map _).nodup_iff.mpr (distinct.sublist (part.map _))
  have length : (other.space kind).swept.length ≤ Word.halfLimit := by
    rw [same.swept.length_eq]
    exact Nat.le_trans part.length_le few
  have fills := PagedSpace.fills mapped alone length rounds
  rwa [FreeBlock.capacity_perm size same.free.blocks_perm] at fills

/-- However a free list has come about, asking it for one size ends after the servings of its blocks,
listed in any order. After a round over a heap with any history, each space takes what its blocks serve
once the heap is swept in one go. -/
theorem servings_counted (rounds : Word.Rounds request size) :
    (∀ count uses shelf, Shelf.Proper count uses →
      (Shelf.opened count).performEach uses = .ok shelf → ∀ list ∈ shelf.lists, ∀ blocks,
        list.blocks.Perm blocks →
          list.Exhausts request size (FreeBlock.capacity size blocks)) ∧
      ∀ id deeds world, History id deeds world →
        (∀ kind, ∀ page ∈ (world.heap.space kind).unswept, page.sweeps + 1 < Word.halfLimit) →
        ∀ kind, world.heap.RoundsTo fun after => (after.space kind).Fills request
          (FreeBlock.capacity size (world.heap.swept.space kind).free.blocks) := by
  constructor
  · intro count uses shelf proper performed list member blocks same
    obtain ⟨other, again, reached⟩ := proper.reaches
    rw [performed] at again
    cases again
    obtain ⟨index, here⟩ := List.mem_iff_getElem?.mp member
    have part := le_sum FreeList.total here
    have totals := reached.totals_le
    have room := proper.room
    rw [← FreeBlock.capacity_perm size same]
    exact (reached.keeps_order list member).exhausts (by omega) rounds
  · intro id deeds world history young kind
    obtain ⟨sound, _⟩ := history.invariant
    have few := sound.few_heap
    obtain ⟨tidy, ids⟩ := sound.heap.swept
    have length : world.heap.swept.pages.length = world.heap.pages.length := by
      simpa using ids.length_eq
    refine (Heap.rounds_to_swept (sound.heap.ready few young)).imp fun after alike => ?_
    exact tidy.fills (ids.nodup_iff.mpr sound.distinct_heap) (by omega) alike kind rounds

/-- Five bytes come to one word. The last word of each block is given up. -/
theorem servings_counted_words : Word.Rounds 5 8 ∧ Shelf.joinedList ∈ Shelf.stock.lists ∧
    Shelf.joinedList.Exhausts 5 8 389 ∧
    waitingHeap.RoundsTo fun after => (after.space .data).Fills 5 489 := by
  have rounds : Word.Rounds 5 8 := ⟨by decide, by decide, by decide, by decide, by decide⟩
  obtain ⟨lists, heaps⟩ := servings_counted rounds
  have member : Shelf.joinedList ∈ Shelf.stock.lists := by decide
  have young : ∀ kind, ∀ page ∈ (waitingHeap.space kind).unswept,
      page.sweeps + 1 < Word.halfLimit := by
    intro kind
    cases kind <;> decide
  have listed : FreeBlock.capacity 8 Shelf.joinedList.blocks = 389 := by decide
  have blocks : (waitingHeap.swept.space .data).free.blocks =
      [⟨⟨0⟩, 64, 24⟩, ⟨⟨0⟩, 192, 3904⟩] := rfl
  have swept : FreeBlock.capacity 8 (waitingHeap.swept.space .data).free.blocks = 489 := by
    rw [blocks]
    decide
  refine ⟨rounds, member, ?_, ?_⟩
  · rw [← listed]
    exact lists 2 Shelf.stockUses Shelf.stock Shelf.stockUses_proper Shelf.stockUses_performed
      Shelf.joinedList member _ (List.Perm.refl _)
  · rw [← swept]
    exact heaps ⟨0⟩ _ ⟨waitingHeap, [], []⟩ waitingHeap_history young .data

end Reclaim
