import Reclaim.Heap
import Reclaim.Proofs.Items
import Reclaim.Proofs.Space.Mapped

/-! Sound heaps: unswept pages wait for a sweep, each space holds its own pages only, and each free
list maps the swept pages of its space. The operations of a heap keep it sound, and what each of them
does to the pages is said up to their order. -/

namespace Reclaim

def Turned (page next : Page) (before after : List Page) : Prop :=
  ∃ rest, before.Perm (page :: rest) ∧ after.Perm (next :: rest)

theorem Turned.frame {page next : Page} {before after : List Page}
    (turned : Turned page next before after) (others : List Page) :
    Turned page next (before ++ others) (after ++ others) := by
  obtain ⟨rest, old, new⟩ := turned
  exact ⟨rest ++ others, old.append_right others, new.append_right others⟩

theorem Turned.middle (early late : List Page) (page next : Page) :
    Turned page next (early ++ page :: late) (early ++ next :: late) :=
  ⟨early ++ late, List.perm_middle, List.perm_middle⟩

theorem Turned.perm {page next : Page} {before after old new : List Page}
    (turned : Turned page next before after) (same : old.Perm before) (alike : new.Perm after) :
    Turned page next old new := by
  obtain ⟨rest, first, second⟩ := turned
  exact ⟨rest, same.trans first, alike.trans second⟩

theorem Turned.mem {page next : Page} {before after : List Page}
    (turned : Turned page next before after) : page ∈ before ∧ next ∈ after := by
  obtain ⟨rest, old, new⟩ := turned
  exact ⟨old.mem_iff.mpr (by simp), new.mem_iff.mpr (by simp)⟩

theorem Turned.map {α : Type} {page next : Page} {before after : List Page}
    (turned : Turned page next before after) (measure : Page → α)
    (same : measure next = measure page) : (after.map measure).Perm (before.map measure) := by
  obtain ⟨rest, old, new⟩ := turned
  refine (new.map _).trans (List.Perm.trans ?_ (old.map _).symm)
  rw [List.map_cons, List.map_cons, same]

namespace PagedSpace

def pages (space : PagedSpace) : List Page := space.unswept ++ space.swept

structure Sound (space : PagedSpace) : Prop where
  waiting : ∀ page ∈ space.unswept, page.Sound ∧ page.swept = false
  mapped : Mapped space.swept space.free
  own : ∀ page ∈ space.pages, page.space = space.kind

end PagedSpace

namespace Heap

def pages (heap : Heap) : List Page := (heap.space .data).pages ++ (heap.space .pointer).pages

structure Sound (heap : Heap) : Prop where
  kind : ∀ kind, (heap.space kind).kind = kind
  space : ∀ kind, (heap.space kind).Sound

@[simp] theorem space_setSpace_same (heap : Heap) (kind : SpaceKind) (space : PagedSpace) :
    (heap.setSpace kind space).space kind = space :=
  BySpace.get_set_same _ _ _

theorem space_setSpace_other (heap : Heap) {kind other : SpaceKind} (space : PagedSpace)
    (distinct : other ≠ kind) : (heap.setSpace kind space).space other = heap.space other :=
  BySpace.get_set_other _ _ distinct

@[simp] theorem setSpace_self (heap : Heap) (kind : SpaceKind) :
    heap.setSpace kind (heap.space kind) = heap := by
  cases kind <;> rfl

theorem mem_pages {heap : Heap} {page : Page} :
    page ∈ heap.pages ↔ ∃ kind, page ∈ (heap.space kind).pages := by
  rw [pages, List.mem_append]
  constructor
  · rintro (inData | inPointer)
    · exact ⟨.data, inData⟩
    · exact ⟨.pointer, inPointer⟩
  · rintro ⟨kind, member⟩
    cases kind
    · exact Or.inl member
    · exact Or.inr member

theorem pages_sublist (heap : Heap) (kind : SpaceKind) :
    (heap.space kind).pages.Sublist heap.pages := by
  cases kind
  · exact List.sublist_append_left _ _
  · exact List.sublist_append_right _ _

theorem pages_setSpace (heap : Heap) (kind : SpaceKind) (space : PagedSpace)
    (gone added : List Page)
    (change : (gone ++ space.pages).Perm (added ++ (heap.space kind).pages)) :
    (gone ++ (heap.setSpace kind space).pages).Perm (added ++ heap.pages) := by
  refine List.perm_iff_count.mpr fun page => ?_
  have counted := List.perm_iff_count.mp change page
  rw [List.count_append, List.count_append] at counted
  cases kind with
  | data =>
      have other : (heap.setSpace .data space).space .pointer = heap.space .pointer := rfl
      simp only [pages, List.count_append, space_setSpace_same, other] at counted ⊢
      omega
  | pointer =>
      have other : (heap.setSpace .pointer space).space .data = heap.space .data := rfl
      simp only [pages, List.count_append, space_setSpace_same, other] at counted ⊢
      omega

theorem fresh_sound (id : HeapId) : (fresh id).Sound where
  kind kind := by cases kind <;> rfl
  space kind := by
    cases kind <;> exact ⟨by simp [fresh, space, BySpace.get, PagedSpace.fresh], Mapped.nil,
      by simp [fresh, space, BySpace.get, PagedSpace.fresh, PagedSpace.pages]⟩

namespace Sound

variable {heap : Heap}

theorem setSpace (sound : heap.Sound) {kind : SpaceKind} {space : PagedSpace}
    (same : space.kind = kind) (kept : space.Sound) : (heap.setSpace kind space).Sound := by
  constructor <;> intro other <;> by_cases equal : other = kind
  · subst equal
    rwa [space_setSpace_same]
  · rw [space_setSpace_other _ _ equal]
    exact sound.kind other
  · subst equal
    rwa [space_setSpace_same]
  · rw [space_setSpace_other _ _ equal]
    exact sound.space other

theorem page (sound : heap.Sound) {page : Page} (member : page ∈ heap.pages) : page.Sound := by
  obtain ⟨kind, inside⟩ := mem_pages.mp member
  rcases List.mem_append.mp inside with unswept | swept
  · exact ((sound.space kind).waiting page unswept).1
  · exact (sound.space kind).mapped.sound page swept

end Sound

theorem addPage_eq {heap : Heap} (sound : heap.Sound) (page : Page) :
    heap.addPage page =
      .ok (heap.setSpace page.space
        { heap.space page.space with unswept := (heap.space page.space).unswept ++ [page] }) := by
  have same := sound.kind page.space
  simp [addPage, PagedSpace.addPage, same]

theorem addPage_space {heap next : Heap} {page : Page} (sound : heap.Sound)
    (added : heap.addPage page = .ok next) :
    (next.space page.space).unswept = (heap.space page.space).unswept ++ [page] ∧
      ∀ kind, kind ≠ page.space → next.space kind = heap.space kind := by
  rw [addPage_eq sound] at added
  cases added
  refine ⟨by rw [space_setSpace_same], fun kind distinct => ?_⟩
  rw [space_setSpace_other _ _ distinct]

theorem Sound.addPage {heap next : Heap} {page : Page} (sound : heap.Sound) (pageSound : page.Sound)
    (unswept : page.swept = false) (added : heap.addPage page = .ok next) :
    next.Sound ∧ next.pages.Perm (page :: heap.pages) := by
  rw [addPage_eq sound] at added
  cases added
  have space := sound.space page.space
  have kind := sound.kind page.space
  constructor
  · refine sound.setSpace (by exact kind) ⟨?_, space.mapped, ?_⟩
    · intro other member
      rcases List.mem_append.mp member with old | new
      · exact space.waiting other old
      · obtain rfl := List.mem_singleton.mp new
        exact ⟨pageSound, unswept⟩
    · intro other member
      simp only [PagedSpace.pages, List.append_assoc, List.mem_append, List.mem_cons,
        List.not_mem_nil, or_false] at member
      rcases member with old | rfl | swept
      · exact space.own other (List.mem_append_left _ old)
      · exact kind.symm
      · exact space.own other (List.mem_append_right _ swept)
  · refine pages_setSpace _ _ _ [] [page] ?_
    simp only [PagedSpace.pages, List.nil_append, List.append_assoc, List.singleton_append]
    exact List.perm_middle

theorem Sound.editUnswept {heap : Heap} {kind : SpaceKind} {early late : List Page}
    {page next : Page} (sound : heap.Sound)
    (pages : (heap.space kind).unswept = early ++ page :: late) (nextSound : next.Sound)
    (space : next.space = page.space) (unswept : next.swept = page.swept) :
    let edited := heap.setSpace kind { heap.space kind with unswept := early ++ next :: late }
    edited.Sound ∧ Turned page next heap.pages edited.pages := by
  have old := sound.space kind
  have waiting := old.waiting
  have own := old.own
  simp only [PagedSpace.pages, pages] at waiting own
  constructor
  · refine sound.setSpace (by exact sound.kind kind) ⟨?_, old.mapped, ?_⟩
    · intro other member
      rcases List.mem_append.mp member with inEarly | inLate
      · exact waiting other (by simp [inEarly])
      · rcases List.mem_cons.mp inLate with rfl | inRest
        · exact ⟨nextSound, unswept.trans (waiting page (by simp)).2⟩
        · exact waiting other (by simp [inRest])
    · intro other member
      simp only [PagedSpace.pages, List.append_assoc, List.mem_append, List.cons_append,
        List.mem_cons] at member
      rcases member with inEarly | rfl | inLate | swept
      · exact own other (by simp [inEarly])
      · exact space.trans (own page (by simp))
      · exact own other (by simp [inLate])
      · exact own other (by simp [swept])
  · have present : page ∈ heap.pages := (heap.pages_sublist kind).subset (by
      simp [PagedSpace.pages, pages])
    have split := List.perm_cons_erase present
    refine ⟨_, split, ?_⟩
    have changed := pages_setSpace heap kind
      { heap.space kind with unswept := early ++ next :: late } [page] [next]
      (List.perm_iff_count.mpr fun other => by
        simp only [PagedSpace.pages, pages, List.count_append, List.count_cons, List.count_nil]
        omega)
    exact List.Perm.cons_inv (changed.trans ((split.cons next).trans (List.Perm.swap _ _ _)))

theorem Sound.takeUnswept {heap : Heap} (sound : heap.Sound) :
    heap.takeUnswept.2.Sound ∧ heap.pages.Perm (heap.takeUnswept.1 ++ heap.takeUnswept.2.pages) ∧
      ∀ page ∈ heap.takeUnswept.1, page.Sound ∧ page.swept = false := by
  have data := sound.space .data
  have pointer := sound.space .pointer
  refine ⟨⟨?_, ?_⟩, ?_, ?_⟩
  · intro kind
    have same := sound.kind kind
    cases kind <;> exact same
  · intro kind
    have old := sound.space kind
    have emptied : ({ heap.space kind with unswept := [] } : PagedSpace).Sound :=
      ⟨by simp, old.mapped, fun page member => old.own page (List.mem_append_right _ (by
        simpa [PagedSpace.pages] using member))⟩
    cases kind <;> exact emptied
  · refine List.perm_iff_count.mpr fun page => ?_
    simp only [Heap.takeUnswept, pages, PagedSpace.pages, PagedSpace.takeUnswept, Heap.space,
      BySpace.map, BySpace.get, List.count_append, List.count_nil]
    omega
  · intro page member
    rcases List.mem_append.mp member with inData | inPointer
    · exact data.waiting page inData
    · exact pointer.waiting page inPointer

theorem space_restoreUnswept (heap : Heap) (pages : List Page) (kind : SpaceKind) :
    (heap.restoreUnswept pages).space kind =
      (heap.space kind).restoreUnswept (pages.filter fun page => decide (page.space = kind)) := by
  cases kind <;> rfl

theorem restoreUnswept_nil (heap : Heap) : heap.restoreUnswept [] = heap := by
  have same (space : PagedSpace) : space.restoreUnswept [] = space := by
    rw [PagedSpace.restoreUnswept, List.append_nil]
  simp only [Heap.restoreUnswept, List.filter_nil, same]
  rfl

theorem filter_space_perm (pages : List Page) :
    (pages.filter (fun page => decide (page.space = .data)) ++
      pages.filter (fun page => decide (page.space = .pointer))).Perm pages := by
  have other : (fun page : Page => decide (page.space = .pointer)) =
      fun page => !decide (page.space = .data) := by
    funext page
    cases page.space <;> rfl
  rw [other]
  exact List.filter_append_perm _ _

theorem Sound.restoreUnswept {heap : Heap} {pages : List Page} (sound : heap.Sound)
    (waiting : ∀ page ∈ pages, page.Sound ∧ page.swept = false) :
    (heap.restoreUnswept pages).Sound ∧
      (heap.restoreUnswept pages).pages.Perm (pages ++ heap.pages) := by
  refine ⟨⟨?_, ?_⟩, ?_⟩
  · intro kind
    rw [space_restoreUnswept]
    exact sound.kind kind
  · intro kind
    rw [space_restoreUnswept]
    have old := sound.space kind
    refine ⟨?_, old.mapped, ?_⟩
    · intro page member
      rcases List.mem_append.mp member with before | restored
      · exact old.waiting page before
      · exact waiting page (List.mem_filter.mp restored).1
    · intro page member
      simp only [PagedSpace.pages, PagedSpace.restoreUnswept, List.append_assoc, List.mem_append,
        List.mem_filter, decide_eq_true_eq] at member
      rcases member with before | restored | swept
      · exact old.own page (List.mem_append_left _ before)
      · exact restored.2.trans (sound.kind kind).symm
      · exact old.own page (List.mem_append_right _ swept)
  · refine List.perm_iff_count.mpr fun page => ?_
    have parted := List.perm_iff_count.mp (filter_space_perm pages) page
    simp only [Heap.pages, space_restoreUnswept, PagedSpace.pages, PagedSpace.restoreUnswept,
      List.count_append] at parted ⊢
    omega

theorem space_prepare (heap : Heap) (kind : SpaceKind) :
    heap.prepare.space kind = (heap.space kind).prepare := by
  cases kind <;> rfl

theorem Sound.prepare {heap : Heap} (sound : heap.Sound) :
    heap.prepare.Sound ∧
      ∃ waiting done, heap.pages.Perm (waiting ++ done) ∧
        heap.prepare.pages.Perm (waiting ++ done.map Page.markUnswept) := by
  refine ⟨⟨?_, ?_⟩, (heap.space .data).unswept ++ (heap.space .pointer).unswept,
    (heap.space .data).swept ++ (heap.space .pointer).swept, ?_, ?_⟩
  · intro kind
    rw [space_prepare]
    exact sound.kind kind
  · intro kind
    rw [space_prepare]
    have old := sound.space kind
    refine ⟨?_, Mapped.nil, ?_⟩
    · intro page member
      rcases List.mem_append.mp member with before | recycled
      · exact old.waiting page before
      · obtain ⟨swept, inside, rfl⟩ := List.mem_map.mp recycled
        exact ⟨(old.mapped.sound swept inside).markUnswept, rfl⟩
    · intro page member
      simp only [PagedSpace.pages, List.mem_append] at member
      rcases member with waiting | swept
      · rcases List.mem_append.mp waiting with before | recycled
        · exact old.own page (List.mem_append_left _ before)
        · obtain ⟨swept, inside, rfl⟩ := List.mem_map.mp recycled
          exact old.own swept (List.mem_append_right _ inside)
      · cases swept
  · refine List.perm_iff_count.mpr fun page => ?_
    simp only [Heap.pages, PagedSpace.pages, List.count_append]
    omega
  · refine List.perm_iff_count.mpr fun page => ?_
    simp only [Heap.pages, PagedSpace.pages, space_prepare, PagedSpace.prepare, PagedSpace.recycle,
      PagedSpace.restoreUnswept, PagedSpace.takeSwept, PagedSpace.dropBlocks, List.map_append,
      List.count_append, List.count_nil]
    omega

/-- An allocation that finds nothing leaves the heap alone. One that succeeds records an object of
the rounded size where one swept page was free. -/
theorem Sound.allocate {heap : Heap} (sound : heap.Sound)
    (distinct : (heap.pages.map (·.id)).Nodup) (few : heap.pages.length ≤ Word.halfLimit)
    (kind : SpaceKind) (request : Nat) :
    heap.allocate kind request = (.ok none, heap) ∨
      ∃ page objects object next,
        heap.allocate kind request = (.ok (some ⟨kind, page.id, object.offset⟩), next) ∧
        Word.roundUp? request = some object.size ∧ 0 < object.size ∧
        page.Gains object objects ∧ next.Sound ∧ next.nextPage = heap.nextPage ∧
        (∀ kind, (next.space kind).unswept = (heap.space kind).unswept) ∧
        Turned page { page with objects } heap.pages next.pages := by
  have old := sound.space kind
  have inSpace : (heap.space kind).swept.Sublist heap.pages :=
    (List.sublist_append_right _ _).trans (heap.pages_sublist kind)
  rcases PagedSpace.allocate_eq old.mapped (distinct.sublist (inSpace.map _))
      (Nat.le_trans inSpace.length_le few) request with
    same | ⟨early, page, late, objects, object, left, pages, rounded, positive, gains, mapped, found⟩
  · exact Or.inl (by simp [Heap.allocate, onSpace, same])
  · right
    have own := old.own
    simp only [PagedSpace.pages, pages] at own
    refine ⟨page, objects, object, heap.setSpace kind { heap.space kind with
      swept := early ++ { page with objects } :: late, free := left }, ?_, rounded, positive, gains,
      ?_, rfl, ?_, heap.pages.erase page, ?_, ?_⟩
    · simp only [Heap.allocate, onSpace, found, sound.kind kind]
    · refine sound.setSpace (by exact sound.kind kind) ⟨old.waiting, mapped, ?_⟩
      intro other member
      simp only [PagedSpace.pages, List.mem_append, List.mem_cons] at member
      rcases member with unswept | inEarly | rfl | inLate
      · exact own other (by simp [unswept])
      · exact own other (by simp [inEarly])
      · exact own page (by simp)
      · exact own other (by simp [inLate])
    · intro other
      by_cases equal : other = kind
      · subst equal
        rw [space_setSpace_same]
      · rw [space_setSpace_other _ _ equal]
    · exact List.perm_cons_erase (inSpace.subset (by simp [pages]))
    · have split := List.perm_cons_erase (inSpace.subset (by simp [pages] : page ∈ _))
      have changed := pages_setSpace heap kind
        { heap.space kind with swept := early ++ { page with objects } :: late, free := left }
        [page] [{ page with objects }]
        (List.perm_iff_count.mpr fun other => by
          simp only [PagedSpace.pages, pages, List.count_append, List.count_cons, List.count_nil]
          omega)
      exact List.Perm.cons_inv (changed.trans ((split.cons _).trans (List.Perm.swap _ _ _)))

end Heap

end Reclaim
