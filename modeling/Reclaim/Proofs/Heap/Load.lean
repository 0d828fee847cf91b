import Reclaim.Proofs.Heap.Sound
import Reclaim.Proofs.Totals

/-! Loads: pages on their way through a sweep. A sweeper takes the pages of its batch one after
another and publishes what it has swept space by space. Other threads may act between any two of
these steps, so each is an operation of its own on the load and the heap. -/

namespace Reclaim

structure Load where
  left : List Page
  batch : Heap.Batch
  deriving DecidableEq, Repr

namespace Load

def ofPages (pages : List Page) : Load := ⟨pages, .start .zero⟩

def pages (load : Load) : List Page :=
  load.left ++ (load.batch.pages.data ++ load.batch.pages.pointer)

def sweepNext (load : Load) (heap : Heap) : Except Fault Unit × Load × Heap :=
  match load.left with
  | [] => (.ok (), load, heap)
  | page :: left =>
      let (answer, batch) := { load.batch with totals := heap.totals }.sweep [page]
      (answer, { left, batch }, { heap with totals := batch.totals })

def sweepEach (load : Load) (heap : Heap) : Nat → Except Fault Unit × Load × Heap
  | 0 => (.ok (), load, heap)
  | count + 1 =>
      match load.sweepNext heap with
      | (.error fault, load, heap) => (.error fault, load, heap)
      | (.ok (), load, heap) => load.sweepEach heap count

def without (load : Load) (kind : SpaceKind) : Load :=
  { load with
    batch :=
      { load.batch with
        lists := load.batch.lists.set kind .empty
        pages := load.batch.pages.set kind [] } }

def publish (load : Load) (heap : Heap) (kind : SpaceKind) : Except Fault Unit × Load × Heap :=
  let (answer, heap) := heap.publishBatch load.batch kind
  (answer, load.without kind, heap)

structure Sound (load : Load) : Prop where
  waiting : ∀ page ∈ load.left, page.Sound ∧ page.swept = false
  mapped : ∀ kind, Mapped (load.batch.pages.get kind) (load.batch.lists.get kind)
  own : ∀ kind, ∀ page ∈ load.batch.pages.get kind, page.space = kind
  counted : load.left ≠ [] →
    load.batch.yielded.pages = load.batch.pages.data.length + load.batch.pages.pointer.length
  modest : load.batch.yielded.Modest

theorem ofPages_sound {pages : List Page}
    (waiting : ∀ page ∈ pages, page.Sound ∧ page.swept = false) : (ofPages pages).Sound where
  waiting := waiting
  mapped kind := by cases kind <;> exact Mapped.nil
  own kind := by cases kind <;> simp [ofPages, Heap.Batch.start, BySpace.get]
  counted _ := rfl
  modest := Nat.zero_le _

theorem ofPages_pages (pages : List Page) : (ofPages pages).pages = pages := by
  simp [Load.pages, ofPages, Heap.Batch.start]

theorem mem_pages {load : Load} {page : Page} :
    page ∈ load.pages ↔ page ∈ load.left ∨ ∃ kind, page ∈ load.batch.pages.get kind := by
  rw [Load.pages, List.mem_append, List.mem_append]
  constructor
  · rintro (left | inData | inPointer)
    · exact Or.inl left
    · exact Or.inr ⟨.data, inData⟩
    · exact Or.inr ⟨.pointer, inPointer⟩
  · rintro (left | ⟨kind, inside⟩)
    · exact Or.inl left
    · cases kind
      · exact Or.inr (Or.inl inside)
      · exact Or.inr (Or.inr inside)

theorem Sound.page {load : Load} (sound : load.Sound) {page : Page} (member : page ∈ load.pages) :
    page.Sound := by
  rcases mem_pages.mp member with left | ⟨kind, inside⟩
  · exact (sound.waiting page left).1
  · exact (sound.mapped kind).sound page inside

theorem yielded_modest {page : Page} (sound : page.Sound) : page.yielded.single.Modest := by
  have filled := sound.renewed.bytes
  have parts := FreeBlock.keptBytes_add_lostBytes page.renewed.ranges
  simp only [BatchYield.Modest, PageYield.single, Page.yielded, Nat.mul_one]
  omega

def gained (batch : Heap.Batch) (totals : SweepTotals) (page : Page) : Heap.Batch :=
  { lists := batch.lists.set page.space
      ((batch.lists.get page.space).join (.ofBlocks page.renewed.ranges))
    pages := batch.pages.modify page.space (· ++ [page.renewed])
    totals := totals.record page.yielded
    yielded := batch.yielded.plus page.yielded.single }

theorem sweep_single (batch : Heap.Batch) {page : Page} (sweepable : page.Sweepable)
    (lists : ((batch.lists.get page.space).join (.ofBlocks page.renewed.ranges)).Fits)
    (totals : (batch.yielded.plus page.yielded.single).Fits) :
    batch.sweep [page] = (.ok (), gained batch batch.totals page) := by
  simp only [Heap.Batch.sweep, Page.sweep_eq sweepable lists, BatchYield.record_eq totals]
  rfl

theorem sweepNext_eq {load : Load} {page : Page} {left : List Page} (heap : Heap)
    (next : load.left = page :: left) (sweepable : page.Sweepable)
    (lists : ((load.batch.lists.get page.space).join (.ofBlocks page.renewed.ranges)).Fits)
    (totals : (load.batch.yielded.plus page.yielded.single).Fits) :
    load.sweepNext heap =
      (.ok (), { left, batch := gained load.batch heap.totals page },
        { heap with totals := heap.totals.record page.yielded }) := by
  have swept := sweep_single { load.batch with totals := heap.totals } sweepable lists totals
  simp only [sweepNext, next, swept]
  rfl

theorem gained_get_same (batch : Heap.Batch) (totals : SweepTotals) (page : Page) :
    (gained batch totals page).pages.get page.space =
        batch.pages.get page.space ++ [page.renewed] ∧
      (gained batch totals page).lists.get page.space =
        (batch.lists.get page.space).join (.ofBlocks page.renewed.ranges) :=
  ⟨BySpace.get_set_same _ _ _, BySpace.get_set_same _ _ _⟩

theorem gained_get_other (batch : Heap.Batch) (totals : SweepTotals) {page : Page}
    {kind : SpaceKind} (distinct : kind ≠ page.space) :
    (gained batch totals page).pages.get kind = batch.pages.get kind ∧
      (gained batch totals page).lists.get kind = batch.lists.get kind :=
  ⟨BySpace.get_set_other _ _ distinct, BySpace.get_set_other _ _ distinct⟩

theorem gained_pages_perm (batch : Heap.Batch) (totals : SweepTotals) (page : Page) :
    ((gained batch totals page).pages.data ++ (gained batch totals page).pages.pointer).Perm
      (page.renewed :: (batch.pages.data ++ batch.pages.pointer)) := by
  refine List.perm_iff_count.mpr fun other => ?_
  cases kind : page.space <;>
    simp only [gained, BySpace.modify, BySpace.set, BySpace.get, kind, List.count_append,
      List.count_cons, List.count_nil] <;>
    omega

theorem Sound.room {load : Load} {page : Page} {left : List Page} (sound : load.Sound)
    (next : load.left = page :: left) (few : load.pages.length ≤ Word.halfLimit) :
    ((load.batch.lists.get page.space).join (.ofBlocks page.renewed.ranges)).Fits ∧
      (load.batch.yielded.plus page.yielded.single).Fits := by
  have pageSound := (sound.waiting page (by simp [next])).1
  have counted := sound.counted (by simp [next])
  have total : load.left.length + (load.batch.pages.data.length +
      load.batch.pages.pointer.length) ≤ Word.halfLimit := by
    simpa only [Load.pages, List.length_append] using few
  rw [next, List.length_cons] at total
  have inSpace : (load.batch.pages.get page.space).length ≤
      load.batch.pages.data.length + load.batch.pages.pointer.length := by
    cases page.space <;> simp [BySpace.get]
  constructor
  · apply ((sound.mapped page.space).append (Mapped.renewed pageSound)).fits
    rw [List.length_append, List.length_singleton]
    omega
  · apply (sound.modest.plus (yielded_modest pageSound)).fits
    simp only [BatchYield.plus, PageYield.single]
    omega

theorem Sound.sweepNext {load : Load} {page : Page} {left : List Page} (sound : load.Sound)
    (heap : Heap) (next : load.left = page :: left) (young : page.sweeps + 1 < Word.halfLimit)
    (few : load.pages.length ≤ Word.halfLimit) :
    load.sweepNext heap =
        (.ok (), ⟨left, gained load.batch heap.totals page⟩,
          { heap with totals := heap.totals.record page.yielded }) ∧
      (Load.mk left (gained load.batch heap.totals page)).Sound ∧
      Turned page page.renewed load.pages
        (Load.mk left (gained load.batch heap.totals page)).pages := by
  obtain ⟨pageSound, unswept⟩ := sound.waiting page (by simp [next])
  obtain ⟨lists, totals⟩ := sound.room next few
  have counted := sound.counted (by simp [next])
  have merged := (sound.mapped page.space).append (Mapped.renewed pageSound)
  have together := sound.modest.plus (yielded_modest pageSound)
  refine ⟨sweepNext_eq heap next ⟨unswept, young⟩ lists totals, ?_, ?_⟩
  · constructor
    · intro other member
      exact sound.waiting other (by simp [next, member])
    · intro kind
      by_cases same : kind = page.space
      · subst same
        obtain ⟨pages, list⟩ := gained_get_same load.batch heap.totals page
        simp only [pages, list]
        exact merged
      · obtain ⟨pages, list⟩ := gained_get_other load.batch heap.totals same
        simp only [pages, list]
        exact sound.mapped kind
    · intro kind other member
      by_cases same : kind = page.space
      · subst same
        simp only [(gained_get_same load.batch heap.totals page).1, List.mem_append,
          List.mem_singleton] at member
        rcases member with before | rfl
        · exact sound.own page.space other before
        · rfl
      · simp only [(gained_get_other load.batch heap.totals same).1] at member
        exact sound.own kind other member
    · intro _
      have length := (gained_pages_perm load.batch heap.totals page).length_eq
      simp only [List.length_append, List.length_cons] at length
      rw [length, ← counted]
      rfl
    · exact together
  · refine ⟨left ++ (load.batch.pages.data ++ load.batch.pages.pointer), ?_, ?_⟩
    · rw [Load.pages, next]
      exact List.Perm.refl _
    · exact ((gained_pages_perm load.batch heap.totals page).append_left left).trans
        List.perm_middle

theorem publish_eq {load : Load} {heap : Heap} {kind : SpaceKind}
    (bare : load.batch.pages.get kind = [] → load.batch.lists.get kind = .empty)
    (fits : ((heap.space kind).free.join (load.batch.lists.get kind)).Fits) :
    load.publish heap kind =
      (.ok (), load.without kind,
        heap.setSpace kind
          { heap.space kind with
            swept := (heap.space kind).swept ++ load.batch.pages.get kind
            free := (heap.space kind).free.join (load.batch.lists.get kind) }) := by
  unfold publish Heap.publishBatch
  by_cases none : load.batch.pages.get kind = []
  · simp only [none, bare none, FreeList.join_empty, List.isEmpty_nil, if_true, List.append_nil]
    exact congrArg _ (congrArg _ (heap.setSpace_self kind).symm)
  · have some : (load.batch.pages.get kind).isEmpty = false := by simpa using none
    simp only [some, Bool.false_eq_true, if_false, Heap.onSpace, PagedSpace.publish_eq fits]

theorem Sound.bare {load : Load} (sound : load.Sound) {kind : SpaceKind}
    (none : load.batch.pages.get kind = []) : load.batch.lists.get kind = .empty := by
  have mapped := sound.mapped kind
  rw [none] at mapped
  exact mapped.holds.eq_empty

theorem without_get_same (load : Load) (kind : SpaceKind) :
    (load.without kind).batch.pages.get kind = [] ∧
      (load.without kind).batch.lists.get kind = .empty :=
  ⟨BySpace.get_set_same _ _ _, BySpace.get_set_same _ _ _⟩

theorem without_get_other (load : Load) {kind other : SpaceKind} (distinct : other ≠ kind) :
    (load.without kind).batch.pages.get other = load.batch.pages.get other ∧
      (load.without kind).batch.lists.get other = load.batch.lists.get other :=
  ⟨BySpace.get_set_other _ _ distinct, BySpace.get_set_other _ _ distinct⟩

theorem without_pages_perm (load : Load) (kind : SpaceKind) :
    load.pages.Perm (load.batch.pages.get kind ++ (load.without kind).pages) := by
  refine List.perm_iff_count.mpr fun page => ?_
  cases kind <;>
    simp only [Load.pages, without, BySpace.set, BySpace.get, List.count_append, List.count_nil] <;>
    omega

theorem Sound.without {load : Load} (sound : load.Sound) (kind : SpaceKind)
    (done : load.left = []) : (load.without kind).Sound where
  waiting := sound.waiting
  mapped other := by
    by_cases same : other = kind
    · subst same
      rw [(without_get_same load other).1, (without_get_same load other).2]
      exact Mapped.nil
    · rw [(without_get_other load same).1, (without_get_other load same).2]
      exact sound.mapped other
  own other page member := by
    by_cases same : other = kind
    · subst same
      rw [(without_get_same load other).1] at member
      cases member
    · rw [(without_get_other load same).1] at member
      exact sound.own other page member
  counted left := absurd done left
  modest := sound.modest

/-- A sound load publishes one of its spaces without fault: pages and blocks join that space of the
heap, and no page is lost. -/
theorem Sound.publish {load : Load} {heap : Heap} (sound : load.Sound) (heapSound : heap.Sound)
    (done : load.left = []) (few : load.pages.length + heap.pages.length ≤ Word.halfLimit)
    (kind : SpaceKind) :
    ∃ next, load.publish heap kind = (.ok (), load.without kind, next) ∧
      (load.without kind).Sound ∧ next.Sound ∧ next.nextPage = heap.nextPage ∧
      (∀ other, (next.space other).unswept = (heap.space other).unswept) ∧
      next.pages.Perm (load.batch.pages.get kind ++ heap.pages) := by
  have old := heapSound.space kind
  have merged := old.mapped.append (sound.mapped kind)
  have inLoad : (load.batch.pages.get kind).length ≤ load.pages.length := by
    rw [(without_pages_perm load kind).length_eq, List.length_append]
    exact Nat.le_add_right _ _
  have inHeap : (heap.space kind).swept.length ≤ heap.pages.length :=
    ((List.sublist_append_right _ _).trans (heap.pages_sublist kind)).length_le
  have fits := merged.fits (by
    rw [List.length_append]
    omega)
  refine ⟨_, publish_eq sound.bare fits, sound.without kind done, ?_, rfl, ?_, ?_⟩
  · refine heapSound.setSpace (by exact heapSound.kind kind) ⟨old.waiting, merged, ?_⟩
    intro page member
    simp only [PagedSpace.pages, List.mem_append] at member
    rcases member with waiting | swept | added
    · exact old.own page (List.mem_append_left _ waiting)
    · exact old.own page (List.mem_append_right _ swept)
    · exact (sound.own kind page added).trans (heapSound.kind kind).symm
  · intro other
    by_cases same : other = kind
    · subst same
      rw [Heap.space_setSpace_same]
    · rw [Heap.space_setSpace_other _ _ same]
  · refine Heap.pages_setSpace _ _ _ [] (load.batch.pages.get kind) ?_
    simp only [PagedSpace.pages, List.nil_append]
    exact List.perm_iff_count.mpr fun page => by
      simp only [List.count_append]
      omega

/-! A batch that one thread sweeps and publishes without being interrupted takes the same steps. -/

theorem sweep_cons (batch : Heap.Batch) (page : Page) (rest : List Page) :
    batch.sweep (page :: rest) =
      match batch.sweep [page] with
      | (.error fault, swept) => (.error fault, swept)
      | (.ok (), swept) => swept.sweep rest := by
  simp only [Heap.Batch.sweep]
  cases page.sweep (batch.lists.get page.space) with
  | error fault => rfl
  | ok result =>
      obtain ⟨produced, renewed, list⟩ := result
      dsimp only
      generalize batch.yielded.record produced = recorded
      obtain ⟨answer, yielded⟩ := recorded
      cases answer <;> rfl

theorem sweepEach_eq (load : Load) {after : Load} {heap next : Heap} {answer : Except Fault Unit}
    (swept : load.sweepEach heap load.left.length = (answer, after, next)) :
    { load.batch with totals := heap.totals : Heap.Batch }.sweep load.left =
        (answer, { after.batch with totals := next.totals }) ∧
      next = { heap with totals := next.totals } := by
  obtain ⟨left, batch⟩ := load
  induction left generalizing batch heap with
  | nil =>
      cases swept
      exact ⟨rfl, rfl⟩
  | cons page rest ih =>
      rcases single : ({ batch with totals := heap.totals } : Heap.Batch).sweep [page] with
        ⟨outcome, grown⟩
      have stepped : (Load.mk (page :: rest) batch).sweepNext heap =
          (outcome, ⟨rest, grown⟩, { heap with totals := grown.totals }) := by
        simp only [sweepNext, single]
      rw [sweep_cons, single]
      rw [List.length_cons, sweepEach, stepped] at swept
      cases outcome with
      | error fault =>
          cases swept
          exact ⟨rfl, rfl⟩
      | ok _ =>
          obtain ⟨whole, same⟩ := ih grown swept
          exact ⟨whole, same⟩

theorem sweepPages_eq (heap : Heap) (pages : List Page) :
    heap.sweepPages pages =
      match (ofPages pages).sweepEach heap pages.length with
      | (.error fault, _, heap) => (.error fault, heap)
      | (.ok (), load, heap) =>
          match load.publish heap .data with
          | (.error fault, _, heap) => (.error fault, heap)
          | (.ok (), load, heap) =>
              match load.publish heap .pointer with
              | (.error fault, _, heap) => (.error fault, heap)
              | (.ok (), load, heap) => (.ok load.batch.yielded, heap) := by
  generalize stepped : (ofPages pages).sweepEach heap pages.length = result
  obtain ⟨answer, load, next⟩ := result
  obtain ⟨whole, same⟩ := sweepEach_eq (ofPages pages) stepped
  have started : Heap.Batch.start heap.totals =
      { (ofPages pages).batch with totals := heap.totals } := rfl
  have left : (ofPages pages).left = pages := rfl
  rw [left] at whole
  rw [Heap.sweepPages, started, whole]
  dsimp only
  rw [← same]
  cases answer with
  | error fault => rfl
  | ok _ =>
      dsimp only
      have data (totals : SweepTotals) :
          next.publishBatch { load.batch with totals } .data = next.publishBatch load.batch .data :=
        rfl
      have pointer (heap : Heap) (totals : SweepTotals) :
          heap.publishBatch { load.batch with totals } .pointer =
            heap.publishBatch (load.without .data).batch .pointer := rfl
      rw [data, publish]
      generalize next.publishBatch load.batch .data = first
      obtain ⟨answer, next⟩ := first
      cases answer with
      | error fault => rfl
      | ok _ =>
          dsimp only
          rw [pointer, publish]
          generalize next.publishBatch (load.without .data).batch .pointer = second
          obtain ⟨answer, next⟩ := second
          cases answer <;> rfl

end Load

end Reclaim
