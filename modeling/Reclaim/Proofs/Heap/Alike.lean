import Reclaim.Proofs.Heap.Harvest

/-! Heaps that differ in order only: in the order of their swept pages, and of the blocks within a
category. The order in which pages are published does not matter beyond that, and neither does it to
the room that they need. -/

namespace Reclaim

structure FreeList.Alike (list other : FreeList) : Prop where
  blocks : ∀ category, (list.blocksIn category).Perm (other.blocksIn category)
  available : list.available = other.available
  wasted : list.wasted = other.wasted

namespace FreeList

variable {list other : FreeList}

theorem Holds.alike {blocks : List FreeBlock} (holds : list.Holds blocks)
    (same : other.Holds blocks) : list.Alike other where
  blocks category := (holds.listed category).trans (same.listed category).symm
  available := holds.available.trans same.available.symm
  wasted := holds.wasted.trans same.wasted.symm

theorem Alike.join (alike : list.Alike other) (front : FreeList) :
    (front.join list).Alike (front.join other) where
  blocks category := by
    rw [blocksIn_join, blocksIn_join]
    exact (alike.blocks category).append_left _
  available := congrArg (front.available + ·) alike.available
  wasted := congrArg (front.wasted + ·) alike.wasted

theorem Alike.refl (list : FreeList) : list.Alike list := ⟨fun _ => List.Perm.refl _, rfl, rfl⟩

theorem Alike.trans {last : FreeList} (alike : list.Alike other) (more : other.Alike last) :
    list.Alike last where
  blocks category := (alike.blocks category).trans (more.blocks category)
  available := alike.available.trans more.available
  wasted := alike.wasted.trans more.wasted

theorem Alike.holds {blocks : List FreeBlock} (alike : list.Alike other)
    (holds : other.Holds blocks) : list.Holds blocks where
  listed category := (alike.blocks category).trans (holds.listed category)
  available := alike.available.trans holds.available
  wasted := alike.wasted.trans holds.wasted

theorem Alike.blocks_perm (alike : list.Alike other) : list.blocks.Perm other.blocks :=
  (((alike.blocks .small).append (alike.blocks .medium)).append (alike.blocks .large)).append
    (alike.blocks .huge)

theorem Alike.fits (alike : list.Alike other) (fits : other.Fits) : list.Fits := by
  constructor
  · rw [alike.available]
    exact fits.available
  · rw [alike.wasted]
    exact fits.wasted

end FreeList

/-- The order of pages and blocks does not matter to what a list maps. -/
theorem Mapped.alike {pages more : List Page} {list other : FreeList} (mapped : Mapped more other)
    (same : pages.Perm more) (alike : list.Alike other) : Mapped pages list where
  holds := alike.holds (mapped.holds.perm (same.symm.flatMap_right _))
  sound page member := mapped.sound page (same.mem_iff.mp member)
  swept page member := mapped.swept page (same.mem_iff.mp member)
  unmarked page member := mapped.unmarked page (same.mem_iff.mp member)

theorem mapOf_alike {pages more : List Page} (same : pages.Perm more) :
    (mapOf pages).Alike (mapOf more) := by
  have holds : (mapOf pages).Holds (more.flatMap Page.ranges) :=
    (FreeList.ofBlocks_holds _).perm (same.flatMap_right _)
  exact holds.alike (FreeList.ofBlocks_holds _)

theorem room_of_perm {free : FreeList} {part whole : List Page}
    (fits : (free.join (mapOf whole)).Fits) (rest : List Page) (parted : (part ++ rest).Perm whole) :
    (free.join (mapOf part)).Fits := by
  have all := ((mapOf_alike parted).join free).fits fits
  rw [mapOf_append, ← FreeList.join_assoc] at all
  exact all.of_join_left

structure PagedSpace.Alike (space other : PagedSpace) : Prop where
  kind : space.kind = other.kind
  unswept : space.unswept = other.unswept
  swept : space.swept.Perm other.swept
  free : space.free.Alike other.free

structure Heap.Alike (heap other : Heap) : Prop where
  id : heap.id = other.id
  totals : heap.totals = other.totals
  nextPage : heap.nextPage = other.nextPage
  space : ∀ kind, (heap.space kind).Alike (other.space kind)

theorem Heap.Alike.refl (heap : Heap) : heap.Alike heap :=
  ⟨rfl, rfl, rfl, fun _ => ⟨rfl, rfl, List.Perm.refl _, .refl _⟩⟩

theorem PagedSpace.receive_alike (space : PagedSpace) {pages more : List Page}
    (same : pages.Perm more) : (space.receive pages).Alike (space.receive more) where
  kind := rfl
  unswept := rfl
  swept := same.append_left _
  free := (mapOf_alike same).join _

structure Heap.Ready (heap : Heap) (pages : List Page) : Prop where
  sweepable : ∀ page ∈ pages, page.Sweepable
  lists : ∀ kind, ((heap.space kind).free.join (mapOf (renewedIn kind pages))).Fits
  totals : (harvest pages).Fits

end Reclaim
