import Reclaim.Proofs.World.History

/-! The free list of a space is a map of the gaps on its swept pages, in every state that a history
reaches. -/

namespace Reclaim

structure GapMap (space : PagedSpace) : Prop where
  distinct : (space.swept.map (·.id)).Nodup
  flagged : ∀ page ∈ space.swept, page.swept = true ∧
    ∀ object ∈ page.objects, object.marked = false
  ranges : ∀ page ∈ space.swept, page.ranges.Nodup ∧ ∀ block, block ∈ page.ranges ↔
    block.page = page.id ∧ Page.IsGap headerBytes page.objects ⟨block.offset, block.size⟩
  listed : space.free.blocks.Perm
    ((space.swept.flatMap Page.ranges).filter fun block => decide (minBlockBytes ≤ block.size))
  wasted : space.free.wasted =
    (((space.swept.flatMap Page.ranges).filter fun block =>
      decide (block.size < minBlockBytes)).map (·.size)).sum
  filled : space.free.available + space.free.wasted +
    (space.swept.map Page.allocatedBytes).sum = objectAreaBytes * space.swept.length

theorem Page.Sound.mem_ranges {page : Page} (sound : page.Sound) (block : FreeBlock) :
    block ∈ page.ranges ↔
      block.page = page.id ∧ Page.IsGap headerBytes page.objects ⟨block.offset, block.size⟩ := by
  rw [Page.ranges, List.mem_map]
  constructor
  · rintro ⟨gap, inside, rfl⟩
    exact ⟨rfl, (Page.mem_gapsFrom sound.arranged).mp inside⟩
  · rintro ⟨owner, gap⟩
    refine ⟨⟨block.offset, block.size⟩, (Page.mem_gapsFrom sound.arranged).mpr gap, ?_⟩
    rw [Gap.block, ← owner]

theorem Page.Sound.ranges_nodup {page : Page} (sound : page.Sound) : page.ranges.Nodup := by
  refine (Page.gapsFrom_nodup sound.arranged).map ?_
  intro gap other same
  have fields := FreeBlock.mk.inj same
  cases gap
  cases other
  simp_all

theorem Mapped.isGapMap {space : PagedSpace} (mapped : Mapped space.swept space.free)
    (distinct : (space.swept.map (·.id)).Nodup) : GapMap space where
  distinct := distinct
  flagged page member := ⟨mapped.swept page member, mapped.unmarked page member⟩
  ranges page member :=
    ⟨(mapped.sound page member).ranges_nodup, (mapped.sound page member).mem_ranges⟩
  listed := mapped.holds.blocks_perm
  wasted := by
    have small : (fun block : FreeBlock => !block.tracked) =
        fun block => decide (block.size < minBlockBytes) := by
      funext block
      rw [FreeBlock.tracked, ← decide_not]
      simp only [Nat.not_le]
    rw [mapped.holds.wasted, FreeBlock.lostBytes, FreeBlock.bytes, small]
  filled := mapped.filled

/-- Whatever clients and sweepers have done, the blocks on a free list are the maximal uncovered
ranges of the swept pages that are large enough, and the wasted bytes are those of the other ranges.
-/
theorem History.gapMap {id : HeapId} {deeds : List Deed} {world : World}
    (history : History id deeds world) (kind : SpaceKind) : GapMap (world.heap.space kind) := by
  obtain ⟨sound, _⟩ := history.invariant
  have inSpace : (world.heap.space kind).swept.Sublist world.heap.pages :=
    (List.sublist_append_right _ _).trans (world.heap.pages_sublist kind)
  exact ((sound.heap.space kind).mapped).isGapMap (sound.distinct_heap.sublist (inSpace.map _))

theorem sampleWorld_gapMap :
    History ⟨0⟩ sampleDeeds sampleWorld ∧ GapMap (sampleWorld.heap.space .data) :=
  ⟨sample_history, sample_history.gapMap .data⟩

end Reclaim
