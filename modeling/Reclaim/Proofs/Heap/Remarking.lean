import Reclaim.Proofs.Heap.Swept
import Reclaim.Proofs.Page.Search

/-! A new cycle in which every object is marked again. The free list of a space has come about by sweeps,
splits and joins, and so has the place of each object; still the pages alone say what the list holds, and
a sweep that drops nothing finds the same ranges once more. -/

namespace Reclaim

namespace Page

variable {page : Page}

def again (page : Page) : Page := { page with sweeps := page.sweeps + 1 }

theorem Sound.markEach (sound : page.Sound) (offsets : List Nat) :
    (page.markEach offsets).2.Sound ∧ (page.markEach offsets).2.swept = page.swept ∧
      (page.markEach offsets).2.space = page.space ∧
      (page.markEach offsets).2.sweeps = page.sweeps := by
  rw [markEach_spec sound.arranged]
  refine ⟨⟨?_, sound.above, ?_, sound.inside, sound.full⟩, rfl, rfl, rfl⟩
  · exact sound.arranged.map (fun object => by split <;> rfl) (fun object => by split <;> rfl)
  · intro object member
    obtain ⟨old, inside, rfl⟩ := List.mem_map.mp member
    have below := sound.below old inside
    dsimp only
    split <;> exact below

theorem Sound.renewed_marked (sound : page.Sound) (swept : page.swept = true)
    (unmarked : ∀ object ∈ page.objects, object.marked = false) {offsets : List Nat}
    (covers : ∀ object ∈ page.objects, object.offset ∈ offsets) :
    (page.markUnswept.markEach offsets).2.renewed = page.again := by
  have marked : (page.markUnswept.markEach offsets).2 =
      { page.markUnswept with
        objects := page.objects.map fun object => { object with marked := true } } := by
    rw [markEach_spec sound.markUnswept.arranged]
    congr 1
    exact List.map_congr_left fun object member => if_pos (covers object member)
  have survive : (page.objects.map fun object => { object with marked := true }).filter (·.marked) =
      page.objects.map fun object => { object with marked := true } := by
    rw [List.filter_eq_self]
    intro object member
    obtain ⟨old, _, rfl⟩ := List.mem_map.mp member
    rfl
  have cleared : ((page.objects.map fun object => { object with marked := true }).map
      fun object => { object with marked := false }) = page.objects := by
    rw [List.map_map]
    conv_rhs => rw [← List.map_id page.objects]
    refine List.map_congr_left fun object member => ?_
    have mark := unmarked object member
    cases object
    simpa using mark.symm
  rw [marked]
  unfold Page.renewed Page.retained Page.again Page.markUnswept
  dsimp only
  rw [survive, cleared, ← sound.full swept, ← swept]

end Page

def PagedSpace.markEach (space : PagedSpace) (offsets : PageId → List Nat) : PagedSpace :=
  { space with unswept := space.unswept.map fun page => (page.markEach (offsets page.id)).2 }

namespace Heap

def markEach (heap : Heap) (offsets : PageId → List Nat) : Heap :=
  { heap with spaces := heap.spaces.map fun space => space.markEach offsets }

structure Resettled (heap after : Heap) : Prop where
  unswept : ∀ kind, (after.space kind).unswept = []
  swept : ∀ kind, (after.space kind).swept.Perm ((heap.space kind).swept.map Page.again)
  unmarked : ∀ kind, ∀ page ∈ (after.space kind).swept, ∀ object ∈ page.objects,
    object.marked = false
  free : ∀ kind, (after.space kind).free.Alike (heap.space kind).free
  totals : after.totals =
    { pages := Word.wrappingAdd heap.totals.pages
        ((heap.space .data).swept.length + (heap.space .pointer).swept.length)
      freed := Word.wrappingAdd heap.totals.freed
        ((heap.space .data).free.available + (heap.space .pointer).free.available)
      wasted := Word.wrappingAdd heap.totals.wasted
        ((heap.space .data).free.wasted + (heap.space .pointer).free.wasted) }
  id : after.id = heap.id
  nextPage : after.nextPage = heap.nextPage
  kind : ∀ kind, (after.space kind).kind = (heap.space kind).kind

variable {heap after : Heap} {offsets : PageId → List Nat}

theorem space_markEach (heap : Heap) (offsets : PageId → List Nat) (kind : SpaceKind) :
    (heap.markEach offsets).space kind = (heap.space kind).markEach offsets := by
  cases kind <;> rfl

theorem Sound.markEach (sound : heap.Sound) (offsets : PageId → List Nat) :
    (heap.markEach offsets).Sound where
  kind kind := by
    rw [space_markEach]
    exact sound.kind kind
  space kind := by
    rw [space_markEach]
    have old := sound.space kind
    refine ⟨?_, old.mapped, ?_⟩
    · intro page member
      obtain ⟨before, inside, rfl⟩ := List.mem_map.mp member
      obtain ⟨whole, unswept⟩ := old.waiting before inside
      obtain ⟨marked, same, _⟩ := whole.markEach (offsets before.id)
      exact ⟨marked, same.trans unswept⟩
    · intro page member
      rcases List.mem_append.mp member with unswept | swept
      · obtain ⟨before, inside, rfl⟩ := List.mem_map.mp unswept
        obtain ⟨_, _, space, _⟩ := (old.waiting before inside).1.markEach (offsets before.id)
        exact space.trans (old.own before (List.mem_append_left _ inside))
      · exact old.own page (List.mem_append_right _ swept)

theorem space_remarked (settled : ∀ kind, (heap.space kind).unswept = []) (kind : SpaceKind) :
    (heap.prepare.markEach offsets).space kind =
      { kind := (heap.space kind).kind
        unswept := (heap.space kind).swept.map fun page =>
          (page.markUnswept.markEach (offsets page.id)).2
        swept := []
        free := .empty } := by
  rw [space_markEach, space_prepare]
  simp [PagedSpace.prepare, PagedSpace.recycle, PagedSpace.restoreUnswept, PagedSpace.takeSwept,
    PagedSpace.dropBlocks, PagedSpace.markEach, settled kind, Page.markUnswept]

theorem Sound.remarked (sound : heap.Sound) (few : heap.pages.length ≤ Word.halfLimit)
    (settled : ∀ kind, (heap.space kind).unswept = [])
    (young : ∀ kind, ∀ page ∈ (heap.space kind).swept, page.sweeps + 1 < Word.halfLimit)
    (offsets : PageId → List Nat) :
    (heap.prepare.markEach offsets).takeUnswept.2.Ready
      (heap.prepare.markEach offsets).takeUnswept.1 := by
  have marked := sound.prepare.1.markEach offsets
  refine marked.ready ?_ ?_
  · have length (kind : SpaceKind) : ((heap.prepare.markEach offsets).space kind).pages.length =
        (heap.space kind).pages.length := by
      rw [space_remarked settled]
      simp [PagedSpace.pages, settled kind]
    simp only [pages, List.length_append, length] at few ⊢
    exact few
  · intro kind page member
    rw [space_remarked settled] at member
    obtain ⟨before, inside, rfl⟩ := List.mem_map.mp member
    have whole := (sound.space kind).mapped.sound before inside
    obtain ⟨_, _, _, sweeps⟩ := whole.markUnswept.markEach (offsets before.id)
    rw [sweeps]
    exact young kind before inside

/-- Sweeping in one go, after every object has been marked, changes counts only. -/
theorem Sound.swept_remarked (sound : heap.Sound) (within : heap.totals.Within)
    (settled : ∀ kind, (heap.space kind).unswept = [])
    (covers : ∀ kind, ∀ page ∈ (heap.space kind).swept, ∀ object ∈ page.objects,
      object.offset ∈ offsets page.id)
    (alike : after.Alike (heap.prepare.markEach offsets).swept) : heap.Resettled after := by
  have marked := sound.prepare.1.markEach offsets
  have own (kind : SpaceKind) (page : Page)
      (member : page ∈ ((heap.prepare.markEach offsets).space kind).unswept) : page.space = kind :=
    ((marked.space kind).own page (List.mem_append_left _ member)).trans (marked.kind kind)
  have renewed (kind : SpaceKind) :
      ((heap.prepare.markEach offsets).space kind).unswept.map Page.renewed =
        (heap.space kind).swept.map Page.again := by
    have mapped := (sound.space kind).mapped
    rw [space_remarked settled, List.map_map]
    exact List.map_congr_left fun page member =>
      (mapped.sound page member).renewed_marked (mapped.swept page member)
        (mapped.unmarked page member) (covers kind page member)
  have ranges (kind : SpaceKind) : ((heap.space kind).swept.map Page.again).flatMap Page.ranges =
      (heap.space kind).swept.flatMap Page.ranges := by
    rw [List.flatMap_map]
    rfl
  have space (kind : SpaceKind) : (heap.prepare.markEach offsets).swept.space kind =
      { kind := (heap.space kind).kind
        unswept := []
        swept := (heap.space kind).swept.map Page.again
        free := mapOf ((heap.space kind).swept.map Page.again) } := by
    rw [space_swept own, renewed, space_remarked settled]
    simp [PagedSpace.receive, FreeList.empty_join]
  constructor
  · intro kind
    rw [(alike.space kind).unswept, space]
  · intro kind
    have same := (alike.space kind).swept
    rwa [space] at same
  · intro kind page member
    have same := (alike.space kind).swept
    rw [space] at same
    obtain ⟨before, inside, rfl⟩ := List.mem_map.mp (same.mem_iff.mp member)
    exact (sound.space kind).mapped.unmarked before inside
  · intro kind
    have same := (alike.space kind).free
    rw [space] at same
    have holds := FreeList.ofBlocks_holds (((heap.space kind).swept.map Page.again).flatMap Page.ranges)
    rw [ranges] at holds
    refine same.trans ?_
    rw [mapOf, ranges]
    exact holds.alike (sound.space kind).mapped.holds
  · -- What the cycle has freed and lost are the ranges of its pages, and the lists count the same ones.
    have pages : (heap.prepare.markEach offsets).takeUnswept.1.map Page.renewed =
        (heap.space .data).swept.map Page.again ++ (heap.space .pointer).swept.map Page.again := by
      rw [← renewed, ← renewed]
      exact List.map_append
    have length : (heap.prepare.markEach offsets).takeUnswept.1.length =
        (heap.space .data).swept.length + (heap.space .pointer).swept.length := by
      simpa using congrArg List.length pages
    obtain ⟨freed, wasted⟩ := harvest_bytes (heap.prepare.markEach offsets).takeUnswept.1
    have counted : (heap.prepare.markEach offsets).swept.totals =
        heap.totals.after (heap.prepare.markEach offsets).takeUnswept.1 := rfl
    rw [pages, List.flatMap_append, ranges, ranges] at freed wasted
    rw [FreeBlock.keptBytes_append] at freed
    rw [FreeBlock.lostBytes_append] at wasted
    rw [alike.totals, counted, within.after_eq, SweepTotals.plus, harvest_pages, length, freed,
      wasted, (sound.space .data).mapped.holds.available,
      (sound.space .pointer).mapped.holds.available, (sound.space .data).mapped.holds.wasted,
      (sound.space .pointer).mapped.holds.wasted]
  · exact alike.id
  · exact alike.nextPage
  · intro kind
    rw [(alike.space kind).kind, space]

end Heap

end Reclaim
