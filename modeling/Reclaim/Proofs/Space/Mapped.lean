import Mathlib.Data.List.Nodup
import Reclaim.Proofs.Page.Reclaimed
import Reclaim.Proofs.Totals
import Reclaim.Space

/-! Swept pages and the free list that maps them. The list holds exactly the free ranges of the
pages, every page is flagged as swept, and no object on them is marked. Sweeping one more page,
publishing a private list with its pages and allocating from the list keep this so. -/

namespace Reclaim

def Page.Gains (page : Page) (object : HeapObject) (objects : List HeapObject) : Prop :=
  ∃ before after, page.objects = before ++ after ∧
    (∀ earlier ∈ before, earlier.stop ≤ object.offset) ∧
    (∀ later ∈ after, object.stop ≤ later.offset) ∧
    objects = before ++ object :: after

structure Mapped (pages : List Page) (list : FreeList) : Prop where
  holds : list.Holds (pages.flatMap Page.ranges)
  sound : ∀ page ∈ pages, page.Sound
  swept : ∀ page ∈ pages, page.swept = true
  unmarked : ∀ page ∈ pages, ∀ object ∈ page.objects, object.marked = false

namespace Mapped

variable {pages more : List Page} {list source : FreeList}

theorem nil : Mapped [] .empty := ⟨FreeList.empty_holds, by simp, by simp, by simp⟩

theorem append (mapped : Mapped pages list) (other : Mapped more source) :
    Mapped (pages ++ more) (list.join source) where
  holds := by
    rw [List.flatMap_append]
    exact mapped.holds.join other.holds
  sound page member := (List.mem_append.mp member).elim (mapped.sound page) (other.sound page)
  swept page member := (List.mem_append.mp member).elim (mapped.swept page) (other.swept page)
  unmarked page member :=
    (List.mem_append.mp member).elim (mapped.unmarked page) (other.unmarked page)

theorem renewed {page : Page} (sound : page.Sound) :
    Mapped [page.renewed] (.ofBlocks page.renewed.ranges) where
  holds := by simpa using FreeList.ofBlocks_holds page.renewed.ranges
  sound other member := by
    obtain rfl := List.mem_singleton.mp member
    exact sound.renewed
  swept other member := by
    obtain rfl := List.mem_singleton.mp member
    rfl
  unmarked other member object inside := by
    obtain rfl := List.mem_singleton.mp member
    exact Page.renewed_unmarked inside

theorem filled (mapped : Mapped pages list) :
    list.available + list.wasted + (pages.map Page.allocatedBytes).sum =
      objectAreaBytes * pages.length := by
  rw [mapped.holds.total]
  have sound := mapped.sound
  clear mapped
  induction pages with
  | nil => rfl
  | cons page rest ih =>
      have later := ih fun other member => sound other (by simp [member])
      have here := (sound page (by simp)).bytes
      simp only [List.flatMap_cons, List.map_cons, List.sum_cons, List.length_cons,
        FreeBlock.bytes_append, Nat.mul_succ]
      omega

theorem fits (mapped : Mapped pages list) (few : pages.length ≤ Word.halfLimit) : list.Fits := by
  have filled := mapped.filled
  have room := objectArea_room few
  exact ⟨by omega, by omega⟩

theorem range_owner (mapped : Mapped pages list) {block : FreeBlock}
    (member : block ∈ pages.flatMap Page.ranges) :
    block.offset + block.size ≤ pageBytes ∧
      ∃ early page late, pages = early ++ page :: late ∧ block ∈ page.ranges := by
  obtain ⟨page, inside, owned⟩ := List.mem_flatMap.mp member
  obtain ⟨early, late, split⟩ := List.append_of_mem inside
  exact ⟨((mapped.sound page inside).range_stop owned).2, early, page, late, split, owned⟩

theorem replace {early late : List Page} {page : Page} {objects before after : List HeapObject}
    {gap : Gap} {object : HeapObject} {rest : List FreeBlock}
    (mapped : Mapped (early ++ page :: late) list)
    (fills : Page.Fills headerBytes page.objects gap object before after)
    (gained : objects = before ++ object :: after) (unmarked : object.marked = false)
    (parted : ((early ++ page :: late).flatMap Page.ranges).Perm (gap.block page.id :: rest))
    (holds : source.Holds ((gap.block page.id).tail object.size ++ rest)) :
    Mapped (early ++ { page with objects } :: late) source := by
  have sound := mapped.sound page (by simp)
  have full := sound.full (mapped.swept page (by simp))
  obtain ⟨front, back, old, new⟩ := fills.gaps
  have oldRanges : page.ranges = front.map (Gap.block page.id) ++
      gap.block page.id :: back.map (Gap.block page.id) := by simp [Page.ranges, old]
  have tail : (Page.gapTail gap object.size).map (Gap.block page.id) =
      (gap.block page.id).tail object.size := by
    unfold Page.gapTail FreeBlock.tail Gap.block
    by_cases whole : gap.size = object.size <;> simp [whole]
  have newRanges : ({ page with objects } : Page).ranges = front.map (Gap.block page.id) ++
      ((gap.block page.id).tail object.size ++ back.map (Gap.block page.id)) := by
    simp [Page.ranges, gained, new, tail]
  constructor
  · refine holds.perm (List.perm_iff_count.mpr fun block => ?_)
    have counted := List.perm_iff_count.mp parted block
    simp only [List.flatMap_append, List.flatMap_cons, oldRanges, newRanges, List.count_append,
      List.count_cons] at counted ⊢
    omega
  · intro other member
    simp only [List.mem_append, List.mem_cons] at member
    rcases member with inEarly | rfl | inLate
    · exact mapped.sound other (by simp [inEarly])
    · subst gained
      refine ⟨fills.arranged, sound.above, ?_, sound.inside, sound.full⟩
      intro placed inside
      have stop := (fills.arranged.bounds inside).2.2
      dsimp only
      omega
    · exact mapped.sound other (by simp [inLate])
  · intro other member
    simp only [List.mem_append, List.mem_cons] at member
    rcases member with inEarly | rfl | inLate
    · exact mapped.swept other (by simp [inEarly])
    · exact mapped.swept page (by simp)
    · exact mapped.swept other (by simp [inLate])
  · intro other member placed inside
    simp only [List.mem_append, List.mem_cons] at member
    rcases member with inEarly | rfl | inLate
    · exact mapped.unmarked other (by simp [inEarly]) placed inside
    · subst gained
      have old := mapped.unmarked page (by simp)
      rw [fills.split] at old
      simp only [List.mem_append, List.mem_cons] at inside old
      rcases inside with inBefore | rfl | inAfter
      · exact old placed (Or.inl inBefore)
      · exact unmarked
      · exact old placed (Or.inr inAfter)
    · exact mapped.unmarked other (by simp [inLate]) placed inside

end Mapped

namespace PagedSpace

theorem findIdx?_owner {early late : List Page} {page : Page}
    (distinct : ((early ++ page :: late).map (·.id)).Nodup) :
    (early ++ page :: late).findIdx? (fun other => decide (other.id = page.id)) =
      some early.length := by
  have elsewhere : early.findIdx? (fun other => decide (other.id = page.id)) = none := by
    rw [List.findIdx?_eq_none_iff]
    intro other member
    simp only [List.map_append, List.map_cons] at distinct
    have apart := (List.nodup_append.mp distinct).2.2 other.id (List.mem_map_of_mem member)
      page.id (by simp)
    simpa using apart
  simp [List.findIdx?_append, elsewhere, List.findIdx?_cons]

theorem occupy_eq (space : PagedSpace) {early late : List Page} {page : Page}
    {objects : List HeapObject} (block : FreeBlock)
    (pages : space.swept = early ++ page :: late) (owner : block.page = page.id)
    (distinct : (space.swept.map (·.id)).Nodup)
    (placed : page.place block.offset block.size = .ok { page with objects }) :
    space.occupy block =
      (.ok ⟨space.kind, block.page, block.offset⟩,
        { space with swept := early ++ { page with objects } :: late }) := by
  rw [pages] at distinct
  unfold occupy
  rw [pages, owner, findIdx?_owner distinct]
  simp [placed]

/-- An allocation that finds nothing leaves the space alone. One that succeeds records an object of
the rounded size where one swept page was free, and the list maps the pages as before. -/
theorem allocate_eq {space : PagedSpace} (mapped : Mapped space.swept space.free)
    (distinct : (space.swept.map (·.id)).Nodup) (few : space.swept.length ≤ Word.halfLimit)
    (request : Nat) :
    space.allocate request = (.ok none, space) ∨
      ∃ early page late objects object left, space.swept = early ++ page :: late ∧
        Word.roundUp? request = some object.size ∧ 0 < object.size ∧
        page.Gains object objects ∧
        Mapped (early ++ { page with objects } :: late) left ∧
        space.allocate request =
          (.ok (some ⟨space.kind, page.id, object.offset⟩),
            { space with swept := early ++ { page with objects } :: late, free := left }) := by
  have room : FreeBlock.bytes (space.swept.flatMap Page.ranges) < Word.limit := by
    have filled := mapped.filled
    have whole := objectArea_room few
    rw [← mapped.holds.total]
    omega
  have inWord : ∀ block ∈ space.swept.flatMap Page.ranges,
      block.offset + block.size < Word.limit := by
    intro block member
    have stop := (mapped.range_owner member).1
    have page : pageBytes < Word.limit := by decide
    omega
  rcases mapped.holds.allocate_eq room inWord request with
    same | ⟨block, rest, size, left, parted, kept, positive, rounded, fits, holds, found⟩
  · exact Or.inl (by simp [allocate, reserve, same])
  · right
    have member : block ∈ space.swept.flatMap Page.ranges := parted.mem_iff.mpr (by simp)
    obtain ⟨_, early, page, late, pages, owned⟩ := mapped.range_owner member
    obtain ⟨gap, inside, rfl⟩ := List.mem_map.mp owned
    have sound := mapped.sound page (by simp [pages])
    have larger := (Word.roundUp?_eq_some rounded).1
    obtain ⟨before, after, fills⟩ := Page.gap_fills
      { offset := gap.offset, size, marked := false } sound.arranged inside rfl
      (by dsimp only; omega) fits
    have bounds := (Page.mem_gapsFrom sound.arranged).mp inside
    have low := (bounds.vacant gap.offset (Nat.le_refl _)
      (by have := bounds.positive; omega)).1
    have high := Page.gapsFrom_stop_le sound.arranged inside
    have above : ∀ later ∈ after, gap.offset + size ≤ later.offset := fun later found => by
      have start := fills.above later found
      have shorter : size ≤ gap.size := fits
      omega
    have placed : page.place gap.offset size = .ok { page with
        objects := before ++ { offset := gap.offset, size, marked := false } :: after } :=
      Page.place_eq sound fills.split fills.below above low
        (by have shorter : size ≤ gap.size := fits; omega)
    have occupied := occupy_eq { space with free := left }
      { gap.block page.id with size } pages rfl distinct placed
    refine ⟨early, page, late, _, { offset := gap.offset, size, marked := false }, left, pages,
      rounded, by dsimp only; omega, ⟨before, after, fills.split, fills.below, above, rfl⟩, ?_, ?_⟩
    · rw [pages] at mapped parted
      exact mapped.replace fills rfl rfl parted holds
    · unfold allocate reserve
      rw [found]
      dsimp only
      rw [occupied]
      rfl

theorem publish_eq {space : PagedSpace} {pages : List Page} {list : FreeList}
    (fits : (space.free.join list).Fits) :
    space.publish pages list =
      (.ok (), { space with swept := space.swept ++ pages, free := space.free.join list }) := by
  have joined : (space.publishPages pages).free.concatenate list =
      (.ok list.available, space.free.join list, .empty) := FreeList.concatenate_eq fits
  simp only [publish, publishBlocks, joined]
  rfl

end PagedSpace

end Reclaim
