import Reclaim.Proofs.FreeList.Holding
import Reclaim.Proofs.Page.Sound

/-! What a sweep makes of a page: the page that it leaves, the ranges that it frees and the totals
that it answers, each as a function of the page alone. A sweep joins these ranges to its list, so
what a list gains from a page does not depend on what it held before. -/

namespace Reclaim

def Gap.block (id : PageId) (gap : Gap) : FreeBlock :=
  { page := id, offset := gap.offset, size := gap.size }

def FreeBlock.largestKept (blocks : List FreeBlock) : Nat :=
  ((blocks.filter FreeBlock.tracked).map (·.size)).foldr max 0

theorem FreeBlock.largestKept_cons (block : FreeBlock) (rest : List FreeBlock) :
    largestKept (block :: rest) =
      if block.tracked then max block.size (largestKept rest) else largestKept rest := by
  cases kept : block.tracked <;> simp [largestKept, kept]

namespace Page

def ranges (page : Page) : List FreeBlock :=
  (gapsFrom headerBytes page.objects).map (Gap.block page.id)

def renewed (page : Page) : Page :=
  page.retained (page.objects.filter (·.marked)) (page.sweeps + 1)

def yielded (page : Page) : PageYield :=
  { freed := FreeBlock.keptBytes page.renewed.ranges
    wasted := FreeBlock.lostBytes page.renewed.ranges
    largest := FreeBlock.largestKept page.renewed.ranges
    dropped := page.objects.length - (page.objects.filter (·.marked)).length }

structure Sweepable (page : Page) : Prop where
  unswept : page.swept = false
  young : page.sweeps + 1 < Word.halfLimit

theorem renewed_ranges (page : Page) :
    page.renewed.ranges =
      (gapsFrom headerBytes (page.objects.filter (·.marked))).map (Gap.block page.id) := by
  have same : gapsFrom headerBytes ((page.objects.filter (·.marked)).map fun object =>
      { object with marked := false }) = gapsFrom headerBytes (page.objects.filter (·.marked)) :=
    gapsFrom_map (fun _ => rfl) (fun _ => rfl)
  simp only [ranges, renewed, retained, same]

theorem renewed_swept (page : Page) : page.renewed.swept = true := rfl

theorem renewed_unmarked {page : Page} {object : HeapObject}
    (member : object ∈ page.renewed.objects) : object.marked = false := by
  obtain ⟨old, _, rfl⟩ := List.mem_map.mp member
  rfl

theorem Sound.renewed {page : Page} (sound : page.Sound) : page.renewed.Sound :=
  sound.retained _ _

theorem Sound.bytes {page : Page} (sound : page.Sound) :
    FreeBlock.bytes page.ranges + page.allocatedBytes = objectAreaBytes := by
  have filled := gapsFrom_bytes sound.arranged
  have same : FreeBlock.bytes page.ranges =
      ((gapsFrom headerBytes page.objects).map (·.size)).sum := by
    simp [FreeBlock.bytes, ranges, Gap.block, Function.comp_def]
  have allocated : page.allocatedBytes = (page.objects.map (·.size)).sum := rfl
  rw [same, allocated, objectAreaBytes]
  omega

theorem Sound.range_stop {page : Page} (sound : page.Sound) {block : FreeBlock}
    (member : block ∈ page.ranges) :
    block.page = page.id ∧ block.offset + block.size ≤ pageBytes := by
  obtain ⟨gap, inside, rfl⟩ := List.mem_map.mp member
  exact ⟨rfl, gapsFrom_stop_le sound.arranged inside⟩

theorem release_eq {id : PageId} (total : PageYield) {list : FreeList} {gaps : List Gap}
    (positive : ∀ gap ∈ gaps, 0 < gap.size)
    (fits : (list.join (.ofBlocks (gaps.map (Gap.block id)))).Fits) :
    release id total list gaps =
      .ok ({ total with
              freed := total.freed + FreeBlock.keptBytes (gaps.map (Gap.block id))
              wasted := total.wasted + FreeBlock.lostBytes (gaps.map (Gap.block id))
              largest := max total.largest (FreeBlock.largestKept (gaps.map (Gap.block id))) },
            list.join (.ofBlocks (gaps.map (Gap.block id)))) := by
  induction gaps generalizing total list with
  | nil => simp [release, FreeList.ofBlocks_nil, FreeList.join_empty, FreeBlock.keptBytes,
      FreeBlock.lostBytes, FreeBlock.bytes, FreeBlock.largestKept]
  | cons gap rest ih =>
      rw [List.map_cons] at fits ⊢
      have parted : FreeList.ofBlocks (gap.block id :: rest.map (Gap.block id)) =
          (FreeList.ofBlocks [gap.block id]).join (.ofBlocks (rest.map (Gap.block id))) :=
        FreeList.ofBlocks_append [_] _
      rw [parted, ← FreeList.join_assoc] at fits ⊢
      have later := fun total => ih total (fun gap member => positive gap (by simp [member])) fits
      have wide := positive gap (by simp)
      have freed : list.free { page := id, offset := gap.offset, size := gap.size } =
          (.ok (if (gap.block id).tracked then 0 else gap.size),
            list.join (.ofBlocks [gap.block id])) := FreeList.free_eq fits.of_join_left
      rw [release, freed, FreeBlock.keptBytes_cons, FreeBlock.lostBytes_cons,
        FreeBlock.largestKept_cons]
      have size : (gap.block id).size = gap.size := rfl
      cases kept : (gap.block id).tracked with
      | true => simp [later, size, Nat.add_assoc]
      | false =>
          have nonzero : gap.size ≠ 0 := by omega
          simp [later, nonzero, size, Nat.add_assoc]

/-- What a sweep comes to depends on the page alone. One whose sweep count is full ends in a fault. -/
theorem sweep_unswept {page : Page} {list : FreeList} (unswept : page.swept = false)
    (fits : (list.join (.ofBlocks page.renewed.ranges)).Fits) :
    page.sweep list =
      if page.sweeps + 1 < Word.halfLimit then
        .ok (page.yielded, page.renewed, list.join (.ofBlocks page.renewed.ranges))
      else .error .addOverflow := by
  have ranges := renewed_ranges page
  rw [ranges] at fits
  have released (total : PageYield) := release_eq total (fun _ => gapsFrom_positive) fits
  unfold sweep
  simp only [unswept, Bool.false_eq_true, if_false, released, Word.addHalf]
  by_cases young : page.sweeps + 1 < Word.halfLimit
  · simp only [young, if_true, yielded, ranges, Nat.zero_add, Nat.zero_max]
    rfl
  · simp only [young, if_false]

theorem sweep_eq {page : Page} {list : FreeList} (sweepable : page.Sweepable)
    (fits : (list.join (.ofBlocks page.renewed.ranges)).Fits) :
    page.sweep list =
      .ok (page.yielded, page.renewed, list.join (.ofBlocks page.renewed.ranges)) := by
  rw [sweep_unswept sweepable.unswept fits, if_pos sweepable.young]

end Page

end Reclaim
