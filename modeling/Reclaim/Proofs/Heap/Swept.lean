import Reclaim.Proofs.Heap.Alike
import Reclaim.Proofs.Heap.Handover

/-! A heap after all of its unswept pages have been swept in one go: each space has its own pages behind
the swept ones and their ranges on its free list, and the totals have counted what the pages yield. -/

namespace Reclaim

structure SweepTotals.Within (totals : SweepTotals) : Prop where
  pages : totals.pages < Word.limit
  freed : totals.freed < Word.limit
  wasted : totals.wasted < Word.limit

namespace SweepTotals

theorem zero_within : SweepTotals.zero.Within := ⟨by decide, by decide, by decide⟩

theorem plus_within (totals : SweepTotals) (batch : BatchYield) : (totals.plus batch).Within := by
  have some : 0 < Word.limit := by decide
  exact ⟨Nat.mod_lt _ some, Nat.mod_lt _ some, Nat.mod_lt _ some⟩

theorem record_within (totals : SweepTotals) (page : PageYield) : (totals.record page).Within :=
  totals.plus_within page.single

theorem Within.plus_zero {totals : SweepTotals} (within : totals.Within) :
    totals.plus .zero = totals := by
  obtain ⟨pages, freed, wasted⟩ := within
  simp only [plus, BatchYield.zero, Word.wrappingAdd, Nat.add_zero, Nat.mod_eq_of_lt, pages, freed,
    wasted]

theorem Within.after_eq {totals : SweepTotals} (within : totals.Within) (pages : List Page) :
    totals.after pages = totals.plus (harvest pages) := by
  induction pages generalizing totals with
  | nil => exact within.plus_zero.symm
  | cons page rest ih =>
      have later := ih (totals.record_within page.yielded)
      rw [harvest_cons, ← plus_plus, ← record_eq]
      exact later

end SweepTotals

theorem harvest_bytes (pages : List Page) :
    (harvest pages).freed = FreeBlock.keptBytes ((pages.map Page.renewed).flatMap Page.ranges) ∧
      (harvest pages).wasted =
        FreeBlock.lostBytes ((pages.map Page.renewed).flatMap Page.ranges) := by
  induction pages with
  | nil => exact ⟨rfl, rfl⟩
  | cons page rest ih =>
      obtain ⟨freed, wasted⟩ := ih
      rw [harvest_cons, List.map_cons, List.flatMap_cons, FreeBlock.keptBytes_append,
        FreeBlock.lostBytes_append, ← freed, ← wasted]
      exact ⟨rfl, rfl⟩

namespace Heap

def swept (heap : Heap) : Heap := heap.takeUnswept.2.reclaim heap.takeUnswept.1

variable {heap : Heap}

theorem space_swept (own : ∀ kind, ∀ page ∈ (heap.space kind).unswept, page.space = kind)
    (kind : SpaceKind) : heap.swept.space kind =
      PagedSpace.receive { heap.space kind with unswept := [] }
        ((heap.space kind).unswept.map Page.renewed) := by
  rw [swept, space_reclaim, renewedIn, filter_takeUnswept own, space_takeUnswept]

theorem Sound.swept (sound : heap.Sound) :
    heap.swept.Sound ∧ (heap.swept.pages.map (·.id)).Perm (heap.pages.map (·.id)) := by
  obtain ⟨emptied, parted, waiting⟩ := sound.takeUnswept
  obtain ⟨reclaimed, pages⟩ := emptied.reclaim fun page member => (waiting page member).1
  refine ⟨reclaimed, (pages.map _).trans (List.Perm.trans ?_ (parted.map _).symm)⟩
  rw [List.map_append, List.map_append, List.map_map]
  exact List.Perm.refl _

theorem mem_takeUnswept {page : Page} (member : page ∈ heap.takeUnswept.1) :
    ∃ kind, page ∈ (heap.space kind).unswept := by
  rcases List.mem_append.mp member with inData | inPointer
  · exact ⟨.data, inData⟩
  · exact ⟨.pointer, inPointer⟩

theorem Sound.ready (sound : heap.Sound) (few : heap.pages.length ≤ Word.halfLimit)
    (young : ∀ kind, ∀ page ∈ (heap.space kind).unswept, page.sweeps + 1 < Word.halfLimit) :
    heap.takeUnswept.2.Ready heap.takeUnswept.1 := by
  obtain ⟨_, parted, waiting⟩ := sound.takeUnswept
  obtain ⟨reclaimed, ids⟩ := sound.swept
  have length : heap.swept.pages.length = heap.pages.length := by simpa using ids.length_eq
  constructor
  · intro page member
    obtain ⟨kind, inside⟩ := mem_takeUnswept member
    exact ⟨(waiting page member).2, young kind page inside⟩
  · intro kind
    have free : (heap.swept.space kind).free = (heap.takeUnswept.2.space kind).free.join
        (mapOf (renewedIn kind heap.takeUnswept.1)) := by
      rw [Heap.swept, space_reclaim]
      rfl
    rw [← free]
    have part : (heap.swept.space kind).swept.Sublist heap.swept.pages :=
      (List.sublist_append_right _ _).trans (heap.swept.pages_sublist kind)
    refine (reclaimed.space kind).mapped.fits ?_
    exact Nat.le_trans part.length_le (Nat.le_trans (Nat.le_of_eq length) few)
  · refine (harvest_modest fun page member => (waiting page member).1).fits ?_
    have part := parted.length_eq
    rw [List.length_append] at part
    rw [harvest_pages]
    omega

end Heap

end Reclaim
