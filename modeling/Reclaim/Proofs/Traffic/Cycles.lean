import Mathlib.Algebra.Order.BigOperators.Group.List
import Mathlib.Algebra.Order.Ring.Nat
import Mathlib.Data.List.Permutation
import Reclaim.Proofs.Traffic.Tidy
import Reclaim.Proofs.World.GapMap

/-! Allocation next to sweeping and across new cycles. Whatever the sections of mutators, sweepers and
the collector do in between, no byte is given to two parties and an allocation finds the page that its
block lies in, provided that no allocation is under way when the swept pages leave their space. Within
one cycle they never leave. -/

namespace Reclaim

structure PagedSpace.Parcelled (space : PagedSpace) : Prop where
  distinct : ((space.unswept ++ space.swept).map (·.id)).Nodup
  few : (space.unswept ++ space.swept).length ≤ Word.halfLimit
  sound : ∀ page ∈ space.unswept ++ space.swept, page.Sound
  waits : ∀ page ∈ space.unswept, page.swept = false
  swept : ∀ page ∈ space.swept, page.swept = true
  free : ∃ blocks, space.free.Holds blocks ∧ blocks.Pairwise FreeBlock.Apart ∧
    ∀ block ∈ blocks, ∃ page ∈ space.swept, page.Leaves block

theorem PagedSpace.Parcelled.tidy {space : PagedSpace} (parcelled : space.Parcelled) :
    ∃ free, Tidy free [] (Traffic.calm space) := by
  obtain ⟨distinct, few, sound, waits, swept, blocks, holds, apart, left⟩ := parcelled
  have roster : Roster space.unswept space.swept [] :=
    ⟨by rwa [List.append_nil], by rwa [List.append_nil], by rwa [List.append_nil], waits, swept⟩
  refine ⟨blocks, ?_, rfl, holds, nofun, ?_, ?_, nofun⟩
  · simpa [Traffic.waiting, Traffic.cleared, Traffic.calm, Collector.pages] using roster
  · simpa [Traffic.calm] using left
  · simpa [Traffic.calm] using apart

theorem Mapped.parcelled {space : PagedSpace} (mapped : Mapped space.swept space.free)
    (distinct : ((space.unswept ++ space.swept).map (·.id)).Nodup)
    (few : (space.unswept ++ space.swept).length ≤ Word.halfLimit)
    (waiting : ∀ page ∈ space.unswept, page.Sound ∧ page.swept = false) : space.Parcelled where
  distinct := distinct
  few := few
  sound := List.forall_mem_append.mpr ⟨fun page member => (waiting page member).1, mapped.sound⟩
  waits page member := (waiting page member).2
  swept := mapped.swept
  free := by
    refine ⟨_, mapped.holds, ?_, ?_⟩
    · rw [List.pairwise_flatMap]
      refine ⟨fun page member => (mapped.sound page member).ranges_apart, ?_⟩
      have names := distinct.sublist ((List.sublist_append_right _ _).map _)
      refine (List.pairwise_map.mp names).imp_of_mem ?_
      intro page other inside found separate range member another present
      refine Or.inl fun same => separate ?_
      have owner := ((mapped.sound page inside).range_stop member).1
      exact owner.symm.trans (same.trans ((mapped.sound other found).range_stop present).1)
    · intro block member
      obtain ⟨page, inside, found⟩ := List.mem_flatMap.mp member
      exact ⟨page, inside, (mapped.sound page inside).ranges_leave found⟩

theorem World.Sound.parcelled {world : World} (sound : world.Sound) (kind : SpaceKind) :
    (world.heap.space kind).Parcelled := by
  have inHeap := world.heap.pages_sublist kind
  have space := sound.heap.space kind
  exact space.mapped.parcelled (sound.distinct_heap.sublist (inHeap.map _))
    (Nat.le_trans inHeap.length_le sound.few_heap) space.waiting

namespace Section

/-- What a section has to answer: nothing fails, but where a page has been swept as often as can be
counted; and an object is recorded where the block was that it takes. -/
def Answers (passed : Section) (next : Traffic) : Prop :=
  match passed with
  | .occupy block answer =>
      answer = .ok ⟨next.space.kind, block.page, block.offset⟩ ∧
        ∃ page ∈ next.space.swept, page.id = block.page ∧
          ⟨block.offset, block.size, false⟩ ∈ page.objects
  | .sweep page (.error _) => Word.halfLimit ≤ page.sweeps + 1
  | _ => passed.fault? = none

def Worn (passed : Section) : Prop :=
  ∃ page fault, passed = .sweep page (.error fault) ∧ Word.halfLimit ≤ page.sweeps + 1

theorem Answers.worn {passed : Section} {next : Traffic} (answers : passed.Answers next)
    {fault : Fault} (failed : passed.fault? = some fault) : passed.Worn := by
  unfold Answers at answers
  split at answers
  next block answer =>
    rw [answers.1] at failed
    cases failed
  next page fault => exact ⟨page, fault, rfl, answers⟩
  next =>
    rw [answers] at failed
    cases failed

end Section

theorem Page.sweep_young {page renewed : Page} {list grown : FreeList} {produced : PageYield}
    (swept : page.sweep list = .ok (produced, renewed, grown)) :
    page.sweeps + 1 < Word.halfLimit := by
  by_contra worn
  unfold sweep at swept
  simp only [Word.addHalf, worn, if_false] at swept
  split at swept
  next => cases swept
  next => split at swept <;> cases swept

namespace Tidy

variable {free : List FreeBlock} {carts : List Cart} {traffic next : Traffic} {act : Section}

theorem step (tidy : Tidy free carts traffic) (step : Traffic.Step traffic act next)
    (clean : act.Clean) : (∃ found later, Tidy found later next) ∧ act.Answers next := by
  cases step with
  | reserve request =>
      obtain ⟨⟨found, answer⟩, later, kept⟩ := tidy.reserve request
      refine ⟨⟨later, carts, kept⟩, ?_⟩
      rw [answer]
      rfl
  | occupy =>
      obtain ⟨answer, kept, recorded⟩ := tidy.occupy
      refine ⟨⟨free, carts, kept⟩, answer, recorded⟩
  | edit edit waiting => exact ⟨⟨free, carts, tidy.edit edit waiting⟩, rfl⟩
  | deal parted => exact ⟨⟨free, _, tidy.deal parted⟩, rfl⟩
  | sweep swept =>
      obtain ⟨same, later, kept⟩ := tidy.sweep (Page.sweep_young swept)
      rw [swept] at same
      cases same
      exact ⟨⟨free, later, kept⟩, rfl⟩
  | lose failed =>
      obtain ⟨later, kept⟩ := tidy.lose
      refine ⟨⟨free, later, kept⟩, ?_⟩
      by_contra young
      have swept := (tidy.sweep (Nat.lt_of_not_le young)).1
      rw [failed] at swept
      cases swept
  | publishPages =>
      obtain ⟨later, kept⟩ := tidy.publishPages
      exact ⟨⟨free, later, kept⟩, rfl⟩
  | publishBlocks =>
      obtain ⟨answer, kept⟩ := tidy.publishBlocks
      refine ⟨kept, ?_⟩
      rw [answer]
      rfl
  | drop => exact ⟨⟨[], carts, tidy.drop⟩, rfl⟩
  | take =>
      obtain rfl := clean _ rfl
      exact ⟨⟨[], carts, tidy.take⟩, rfl⟩
  | recycle => exact ⟨⟨free, carts, tidy.recycle⟩, rfl⟩

end Tidy

namespace Traffic

def blocks (traffic : Traffic) : List FreeBlock :=
  traffic.space.free.blocks ++ (traffic.reserved ++ traffic.hauls.flatMap (·.list.blocks))

structure Clear (traffic : Traffic) : Prop where
  apart : (traffic.pages.flatMap Page.extents ++
    traffic.blocks.map FreeBlock.extent).Pairwise Extent.Apart
  published : ∀ block ∈ traffic.space.free.blocks ++ traffic.reserved,
    ∃ page ∈ traffic.space.swept, page.id = block.page

end Traffic

theorem FreeList.Holds.count_le {list : FreeList} {blocks : List FreeBlock}
    (holds : list.Holds blocks) (block : FreeBlock) :
    list.blocks.count block ≤ blocks.count block := by
  rw [holds.blocks_perm.count_eq]
  exact List.filter_sublist.count_le block

namespace Tidy

variable {free : List FreeBlock} {carts : List Cart} {traffic : Traffic}

theorem blocks_subperm (tidy : Tidy free carts traffic) :
    traffic.blocks.Subperm (free ++ (traffic.reserved ++ carts.flatMap (·.blocks))) := by
  refine List.subperm_ext_iff.mpr fun block _ => ?_
  have listed : (carts.flatMap (·.haul.list.blocks)).count block ≤
      (carts.flatMap (·.blocks)).count block := by
    rw [List.count_flatMap, List.count_flatMap]
    exact List.sum_le_sum fun cart member => (tidy.loaded cart member).holds.count_le block
  have onFree := tidy.holds.count_le block
  rw [Traffic.blocks, tidy.hauls, List.flatMap_map]
  simp only [List.count_append]
  omega

theorem clear (tidy : Tidy free carts traffic) : traffic.Clear := by
  obtain ⟨found, same, fewer⟩ := tidy.blocks_subperm
  have left : ∀ block ∈ traffic.blocks, ∃ page ∈ traffic.pages, page.Leaves block := by
    intro block member
    obtain ⟨page, inside, leaves⟩ :=
      tidy.all_left block (fewer.subset (same.symm.mem_iff.mp member))
    exact ⟨page, by simp [Traffic.pages, inside], leaves⟩
  constructor
  · refine List.pairwise_append.mpr ⟨extents_apart tidy.roster.distinct tidy.roster.sound, ?_, ?_⟩
    · rw [List.pairwise_map]
      exact (FreeBlock.apart_perm same).mp (tidy.apart.sublist fewer)
    · intro extent recorded other member
      obtain ⟨block, inside, rfl⟩ := List.mem_map.mp member
      exact leaves_apart tidy.roster.distinct left recorded inside
  · intro block member
    have held : block ∈ free ++ traffic.reserved := by
      rcases List.mem_append.mp member with listed | reserved
      · have kept := tidy.holds.blocks_perm.mem_iff.mp listed
        exact List.mem_append_left _ (List.mem_filter.mp kept).1
      · exact List.mem_append_right _ reserved
    obtain ⟨page, inside, leaves⟩ := tidy.left block held
    exact ⟨page, inside, leaves.owner.symm⟩

end Tidy

namespace Traffic

def sampleSpace : PagedSpace :=
  -- A swept page with two objects and a free block, and a fresh page that waits to be swept.
  { sampleWorld.heap.space .data with unswept := [Page.fresh ⟨1⟩ .data] }

def sampleBlock : FreeBlock := ⟨⟨0⟩, 192, 16⟩

theorem sampleSpace_parcelled : sampleSpace.Parcelled := by
  have space := sample_history.invariant.1.heap.space .data
  refine (show Mapped sampleSpace.swept sampleSpace.free from space.mapped).parcelled (by decide)
    (by decide) ?_
  intro page member
  obtain rfl := List.mem_singleton.mp member
  exact ⟨Page.fresh_sound _ _, rfl⟩

namespace Run

variable {space : PagedSpace} {passed : List Section} {traffic : Traffic}

theorem tidy (run : Run (calm space) passed traffic) (parcelled : space.Parcelled)
    (clean : ∀ act ∈ passed, act.Clean) :
    (∃ free carts, Tidy free carts traffic) ∧
      ∀ act ∈ passed, ∀ fault, act.fault? = some fault → act.Worn := by
  induction run with
  | nil =>
      obtain ⟨free, tidy⟩ := parcelled.tidy
      exact ⟨⟨free, [], tidy⟩, nofun⟩
  | snoc earlier step ih =>
      obtain ⟨before, last⟩ := List.forall_mem_append.mp clean
      obtain ⟨⟨free, carts, tidy⟩, worn⟩ := ih before
      obtain ⟨kept, answers⟩ := tidy.step step (last _ (by simp))
      refine ⟨kept, List.forall_mem_append.mpr ⟨worn, ?_⟩⟩
      intro act member fault failed
      obtain rfl := List.mem_singleton.mp member
      exact answers.worn failed

/-- As long as no new cycle begins, no byte is given out twice, the page of every block that is free
or reserved has been published, and nothing fails but the sweep of a page that is worn. -/
theorem undisturbed (run : Run (calm space) passed traffic) (parcelled : space.Parcelled)
    (cycle : ∀ act ∈ passed, act.isCycle = false) :
    traffic.Clear ∧ ∀ act ∈ passed, ∀ fault, act.fault? = some fault → act.Worn := by
  have clean : ∀ act ∈ passed, act.Clean := by
    intro act member stale same
    have none := cycle act member
    rw [same] at none
    cases none
  obtain ⟨⟨_, _, tidy⟩, worn⟩ := run.tidy parcelled clean
  exact ⟨tidy.clear, worn⟩

/-- New cycles do not change this, provided that no allocation is under way when the swept pages leave
the space: every section answers what it should. -/
theorem answered (run : Run (calm space) passed traffic) (parcelled : space.Parcelled)
    (clean : ∀ act ∈ passed, act.Clean) :
    traffic.Clear ∧ (∀ act ∈ passed, ∀ fault, act.fault? = some fault → act.Worn) ∧
      ∀ act next, Step traffic act next → act.Clean → act.Answers next ∧ next.Clear := by
  obtain ⟨⟨_, _, tidy⟩, worn⟩ := run.tidy parcelled clean
  refine ⟨tidy.clear, worn, fun act next step last => ?_⟩
  obtain ⟨⟨_, _, kept⟩, answers⟩ := tidy.step step last
  exact ⟨answers, kept.clear⟩

end Run

theorem Step.occupied {space : PagedSpace} {hauls : List Haul} {first last : List FreeBlock}
    {block : FreeBlock} {collector : Collector} {answer : Except Fault ObjectAddress}
    (answered : (space.occupy block).1 = answer) :
    Step ⟨space, hauls, first ++ block :: last, collector⟩ (.occupy block answer)
      ⟨(space.occupy block).2, hauls, first ++ last, collector⟩ := answered ▸ .occupy

def sampleSections : List Section :=
  -- An object takes its place while a sweeper has published its page and not yet its blocks.
  [.reserve 10 (.ok (some sampleBlock)), .deal, .sweep (Page.fresh ⟨1⟩ .data) (.ok ()),
    .publishPages, .occupy sampleBlock (.ok ⟨.data, ⟨0⟩, 192⟩)]

theorem sampleSections_run : ∃ traffic, Run (calm sampleSpace) sampleSections traffic := by
  have reserved : Run (calm sampleSpace) [.reserve 10 (.ok (some sampleBlock))]
      ⟨(sampleSpace.reserve 10).2, [], [sampleBlock], .idle⟩ := .snoc .nil (.reserve 10)
  have dealt : Run (calm sampleSpace) _ _ :=
    .snoc reserved (@Step.deal _ [] _ [[Page.fresh ⟨1⟩ .data]] (List.Perm.refl _))
  have swept : Run (calm sampleSpace) _ _ :=
    .snoc dealt (@Step.sweep _ [] [] _ _ (Page.fresh ⟨1⟩ .data) _ [] [] _ _ _ rfl)
  have published : Run (calm sampleSpace) _ _ := .snoc swept (@Step.publishPages _ [] [] _ _ _ _)
  exact ⟨_, .snoc published (@Step.occupied _ _ [] [] sampleBlock _ _ (by cbv))⟩

theorem sampleSections_undisturbed :
    ∃ traffic, Run (calm sampleSpace) sampleSections traffic ∧
      (∀ act ∈ sampleSections, act.isCycle = false) ∧ traffic.Clear ∧
      ∀ act ∈ sampleSections, ∀ fault, act.fault? = some fault → act.Worn := by
  obtain ⟨traffic, run⟩ := sampleSections_run
  have cycle : ∀ act ∈ sampleSections, act.isCycle = false := by simp [sampleSections, Section.isCycle]
  exact ⟨traffic, run, cycle, run.undisturbed sampleSpace_parcelled cycle⟩

def recycledSections : List Section :=
  -- A new cycle begins when the allocation is done.
  [.reserve 10 (.ok (some sampleBlock)), .occupy sampleBlock (.ok ⟨.data, ⟨0⟩, 192⟩), .drop, .take [],
    .recycle]

theorem recycledSections_run : ∃ traffic, Run (calm sampleSpace) recycledSections traffic := by
  have reserved : Run (calm sampleSpace) [.reserve 10 (.ok (some sampleBlock))]
      ⟨(sampleSpace.reserve 10).2, [], [sampleBlock], .idle⟩ := .snoc .nil (.reserve 10)
  have occupied : Run (calm sampleSpace) _ _ :=
    .snoc reserved (@Step.occupied _ _ [] [] sampleBlock _ _ (by cbv))
  exact ⟨_, .snoc (.snoc (.snoc occupied .drop) .take) .recycle⟩

theorem recycledSections_answered :
    ∃ traffic, Run (calm sampleSpace) recycledSections traffic ∧
      (∀ act ∈ recycledSections, act.Clean) ∧ traffic.Clear ∧
      (∀ act ∈ recycledSections, ∀ fault, act.fault? = some fault → act.Worn) ∧
      ∀ act next, Step traffic act next → act.Clean → act.Answers next ∧ next.Clear := by
  obtain ⟨traffic, run⟩ := recycledSections_run
  have clean : ∀ act ∈ recycledSections, act.Clean := by
    simp [recycledSections, Section.Clean]
  exact ⟨traffic, run, clean, run.answered sampleSpace_parcelled clean⟩

/-- When the swept pages leave with an allocation under way, it fails to find the page of its block; and
when the page has come back, its object lies in a block that is free. -/
theorem sampleSpace_stale :
    (∃ traffic, Run (calm sampleSpace)
      [.reserve 10 (.ok (some sampleBlock)), .drop, .take [sampleBlock],
        .occupy sampleBlock (.error (.unpublishedPage ⟨0⟩))] traffic) ∧
    ∃ page traffic, Run (calm sampleSpace)
      [.reserve 10 (.ok (some sampleBlock)), .drop, .take [sampleBlock], .recycle, .deal,
        .sweep page (.ok ()), .publishPages, .publishBlocks (.ok ()),
        .occupy sampleBlock (.ok ⟨.data, ⟨0⟩, 192⟩)] traffic ∧
      ∃ block ∈ traffic.space.free.blocks, ¬ sampleBlock.extent.Apart block.extent := by
  have reserved : Run (calm sampleSpace) [.reserve 10 (.ok (some sampleBlock))]
      ⟨(sampleSpace.reserve 10).2, [], [sampleBlock], .idle⟩ := .snoc .nil (.reserve 10)
  have taken : Run (calm sampleSpace) _ _ := .snoc (.snoc reserved .drop) .take
  refine ⟨⟨_, .snoc taken (@Step.occupied _ _ [] [] sampleBlock _ _ (by cbv))⟩, ?_⟩
  have dealt : Run (calm sampleSpace) _ _ :=
    .snoc (.snoc taken .recycle) (@Step.deal _ [] _
      [sampleSpace.swept.map Page.markUnswept, [Page.fresh ⟨1⟩ .data]] (List.Perm.swap _ _ _))
  have swept : Run (calm sampleSpace) _ _ :=
    .snoc dealt (@Step.sweep _ [] [_] _ _ _ _ [] [] _ _ _ rfl)
  have published : Run (calm sampleSpace) _ _ :=
    .snoc (.snoc swept (@Step.publishPages _ [] _ _ _ _ _)) (@Step.publishBlocks _ [] _ _ _ _)
  refine ⟨_, _, .snoc published (@Step.occupied _ _ [] [] sampleBlock _ _ (by cbv)),
    ⟨⟨0⟩, 64, 4032⟩, List.contains_iff_mem.mp ?_, by decide⟩
  cbv

end Traffic

end Reclaim
