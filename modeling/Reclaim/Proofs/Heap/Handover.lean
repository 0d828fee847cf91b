import Mathlib.Data.List.Flatten
import Reclaim.Proofs.Batches
import Reclaim.Proofs.Heap.Sound

/-! Unswept pages that a heap hands over and gets back. They leave in batches in which the pages of both
spaces may be mixed. Giving pages back only appends them, each to its own space, so what the spaces end
with does not depend on how the pages were cut into batches, and all of them together are what the
heap had before. -/

namespace Reclaim

namespace Heap

inductive Delivery where
  | added (page : Page)
  | returned (batch : List Page)
  deriving DecidableEq, Repr

namespace Delivery

def pages : Delivery → List Page
  | .added page => [page]
  | .returned batch => batch

def batch? : Delivery → Option (List Page)
  | .added _ => none
  | .returned batch => some batch

end Delivery

def deliver (heap : Heap) : Delivery → Except Fault Heap
  | .added page => heap.addPage page
  | .returned batch => .ok (heap.restoreUnswept batch)

def deliverEach (heap : Heap) (deliveries : List Delivery) : Except Fault Heap :=
  deliveries.foldlM deliver heap

structure Restored (heap : Heap) (back : List (List Page)) (deliveries : List Delivery)
    (final : Heap) : Prop where
  unswept : ∀ kind, (final.space kind).unswept =
    (deliveries.flatMap Delivery.pages).filter fun page => decide (page.space = kind)
  appended : ∀ added : List Page, deliveries = added.map .added ++ back.map .returned →
    ∀ kind, (final.space kind).unswept =
      (added.filter fun page => decide (page.space = kind)) ++
        back.flatten.filter fun page => decide (page.space = kind)
  ordered : back.flatten.Sublist heap.takeUnswept.1
  others : ∀ kind, final.space kind =
    { heap.space kind with unswept := (final.space kind).unswept }
  counts : final.id = heap.id ∧ final.totals = heap.totals ∧ final.nextPage = heap.nextPage

variable {heap : Heap}

theorem restoreUnswept_restoreUnswept (heap : Heap) (pages more : List Page) :
    (heap.restoreUnswept pages).restoreUnswept more = heap.restoreUnswept (pages ++ more) := by
  simp [restoreUnswept, space, BySpace.get, PagedSpace.restoreUnswept]

theorem addPage_restores (kinds : ∀ kind, (heap.space kind).kind = kind) (page : Page) :
    heap.addPage page = .ok (heap.restoreUnswept [page]) := by
  have same := kinds page.space
  unfold addPage PagedSpace.addPage
  rw [if_pos same.symm]
  dsimp only
  cases kind : page.space <;>
    simp [setSpace, restoreUnswept, space, BySpace.set, BySpace.get, PagedSpace.restoreUnswept, kind]

theorem deliver_eq (kinds : ∀ kind, (heap.space kind).kind = kind) (delivery : Delivery) :
    heap.deliver delivery = .ok (heap.restoreUnswept delivery.pages) := by
  cases delivery with
  | added page => exact addPage_restores kinds page
  | returned batch => rfl

theorem deliverEach_eq (kinds : ∀ kind, (heap.space kind).kind = kind)
    (deliveries : List Delivery) :
    heap.deliverEach deliveries =
      .ok (heap.restoreUnswept (deliveries.flatMap Delivery.pages)) := by
  induction deliveries generalizing heap with
  | nil => rw [List.flatMap_nil, restoreUnswept_nil]; rfl
  | cons delivery rest ih =>
      have still (kind : SpaceKind) :
          ((heap.restoreUnswept delivery.pages).space kind).kind = kind := by
        rw [space_restoreUnswept]
        exact kinds kind
      rw [deliverEach, List.foldlM_cons, deliver_eq kinds]
      exact (ih still).trans (by rw [restoreUnswept_restoreUnswept, List.flatMap_cons])

theorem space_takeUnswept (heap : Heap) (kind : SpaceKind) :
    heap.takeUnswept.2.space kind = { heap.space kind with unswept := [] } := by
  cases kind <;> rfl

theorem filter_takeUnswept (own : ∀ kind, ∀ page ∈ (heap.space kind).unswept, page.space = kind)
    (kind : SpaceKind) :
    (heap.takeUnswept.1.filter fun page => decide (page.space = kind)) =
      (heap.space kind).unswept := by
  have mine : ((heap.space kind).unswept.filter fun page => decide (page.space = kind)) =
      (heap.space kind).unswept := by
    rw [List.filter_eq_self]
    intro page member
    simpa using own kind page member
  have theirs (other : SpaceKind) (distinct : other ≠ kind) :
      ((heap.space other).unswept.filter fun page => decide (page.space = kind)) = [] := by
    rw [List.filter_eq_nil_iff]
    intro page member
    simpa [own other page member] using distinct
  rw [takeUnswept, List.filter_append]
  cases kind with
  | data =>
      have pointers := theirs .pointer (by decide)
      exact (congrArg₂ _ mine pointers).trans (List.append_nil _)
  | pointer =>
      have datas := theirs .data (by decide)
      exact congrArg₂ _ datas mine

theorem takeUnswept_restores (own : ∀ kind, ∀ page ∈ (heap.space kind).unswept, page.space = kind) :
    heap.takeUnswept.2.restoreUnswept heap.takeUnswept.1 = heap := by
  have spaces (kind : SpaceKind) : (heap.takeUnswept.2.space kind).restoreUnswept
      (heap.takeUnswept.1.filter fun page => decide (page.space = kind)) = heap.space kind := by
    rw [filter_takeUnswept own, space_takeUnswept]
    rfl
  unfold restoreUnswept
  dsimp only
  rw [spaces, spaces]
  rfl

/-- Whatever batches come back, in their order, each space has their pages of its kind again, behind
the pages that were added before. When all of them come back and nothing else, the heap is as it was,
provided that no page was in a space of the other kind. -/
theorem handover (kinds : ∀ kind, (heap.space kind).kind = kind) {parts : Nat} (some : 0 < parts) :
    ∃ pieces, batches heap.takeUnswept.1 parts = .ok pieces ∧ pieces.length = parts ∧
      (∀ deliveries, (deliveries.filterMap Delivery.batch?).Sublist pieces →
        ∃ final, heap.takeUnswept.2.deliverEach deliveries = .ok final ∧
          Restored heap (deliveries.filterMap Delivery.batch?) deliveries final) ∧
      ((∀ kind, ∀ page ∈ (heap.space kind).unswept, page.space = kind) →
        (∀ kind, (heap.takeUnswept.1.filter fun page => decide (page.space = kind)) =
          (heap.space kind).unswept) ∧
        heap.takeUnswept.2.deliverEach (pieces.map .returned) = .ok heap) := by
  obtain ⟨pieces, divided, joined, lengths⟩ := batches_eq heap.takeUnswept.1 some
  have emptied (kind : SpaceKind) : (heap.takeUnswept.2.space kind).kind = kind := by
    rw [space_takeUnswept]
    exact kinds kind
  refine ⟨pieces, divided, by simpa using congrArg List.length lengths, ?_, ?_⟩
  · intro deliveries part
    have space (kind : SpaceKind) :
        (heap.takeUnswept.2.restoreUnswept (deliveries.flatMap Delivery.pages)).space kind =
          { heap.space kind with
            unswept := (deliveries.flatMap Delivery.pages).filter
              fun page => decide (page.space = kind) } := by
      rw [space_restoreUnswept, space_takeUnswept]
      rfl
    refine ⟨_, deliverEach_eq emptied deliveries, ?_, ?_, ?_, ?_, rfl, rfl, rfl⟩
    · intro kind
      rw [space]
    · intro added parted kind
      have pages : deliveries.flatMap Delivery.pages =
          added ++ (deliveries.filterMap Delivery.batch?).flatten := by
        conv_lhs => rw [parted]
        simp [List.flatMap_append, List.flatMap_map, Delivery.pages]
      rw [space, pages, List.filter_append]
    · rw [← joined]
      exact part.flatten
    · intro kind
      rw [space]
  · intro own
    have all : (pieces.map Delivery.returned).flatMap Delivery.pages = heap.takeUnswept.1 := by
      rw [List.flatMap_map, ← joined]
      exact List.flatMap_id
    refine ⟨filter_takeUnswept own, ?_⟩
    rw [deliverEach_eq emptied, all, takeUnswept_restores own]

def waitingPages : List Page := [.fresh ⟨0⟩ .data, .fresh ⟨1⟩ .pointer, .fresh ⟨2⟩ .pointer]

def mixedHeap : Heap :=
  { (fresh ⟨0⟩).restoreUnswept waitingPages with nextPage := 4 }

/-- The first of two batches mixes both spaces. A page is added, and only that batch comes back; then
both of them come back and nothing else. -/
theorem mixedHeap_handover :
    (∀ kind, (mixedHeap.space kind).kind = kind) ∧ 0 < 2 ∧
      batches mixedHeap.takeUnswept.1 2 =
        .ok [[.fresh ⟨0⟩ .data, .fresh ⟨1⟩ .pointer], [.fresh ⟨2⟩ .pointer]] ∧
      (∃ final,
        mixedHeap.takeUnswept.2.deliverEach
          [.added (.fresh ⟨3⟩ .pointer),
            .returned [.fresh ⟨0⟩ .data, .fresh ⟨1⟩ .pointer]] = .ok final ∧
        (final.space .data).unswept = [.fresh ⟨0⟩ .data] ∧
        (final.space .pointer).unswept = [.fresh ⟨3⟩ .pointer, .fresh ⟨1⟩ .pointer]) ∧
      mixedHeap.takeUnswept.2.deliverEach
        [.returned [.fresh ⟨0⟩ .data, .fresh ⟨1⟩ .pointer],
          .returned [.fresh ⟨2⟩ .pointer]] = .ok mixedHeap := by
  have kinds : ∀ kind, (mixedHeap.space kind).kind = kind := by
    intro kind
    cases kind <;> rfl
  have cut : batches mixedHeap.takeUnswept.1 2 =
      .ok [[.fresh ⟨0⟩ .data, .fresh ⟨1⟩ .pointer], [.fresh ⟨2⟩ .pointer]] := rfl
  have own : ∀ kind, ∀ page ∈ (mixedHeap.space kind).unswept, page.space = kind := by
    intro kind
    cases kind <;> decide
  obtain ⟨pieces, divided, _, partly, whole⟩ := handover kinds (by decide : 0 < 2)
  rw [cut] at divided
  cases divided
  obtain ⟨final, delivered, restored⟩ := partly
    [.added (.fresh ⟨3⟩ .pointer), .returned [.fresh ⟨0⟩ .data, .fresh ⟨1⟩ .pointer]]
    (by decide)
  have appended := restored.appended [.fresh ⟨3⟩ .pointer] rfl
  exact ⟨kinds, by decide, rfl, ⟨final, delivered, appended .data, appended .pointer⟩,
    (whole own).2⟩

end Heap

end Reclaim
