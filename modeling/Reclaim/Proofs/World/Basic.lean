import Reclaim.Proofs.Heap.Harvest

/-! A heap with everything that is on its way to it: pages that are still being filled and loads that
are still being swept. Every operation moves pages between these places and changes at most one of
them, so a sound world stays sound and no operation faults. -/

namespace Reclaim

structure World where
  heap : Heap
  loose : List Page
  loads : List Load

namespace World

def pages (world : World) : List Page :=
  world.heap.pages ++ (world.loose ++ world.loads.flatMap Load.pages)

structure Sound (world : World) : Prop where
  heap : world.heap.Sound
  loose : ∀ page ∈ world.loose, page.Sound ∧ page.swept = false
  loads : ∀ load ∈ world.loads, load.Sound
  distinct : (world.pages.map (·.id)).Nodup
  few : world.pages.length ≤ Word.halfLimit

namespace Sound

variable {world next : World} {heap : Heap} {loose early late : List Page}
  {loads before after : List Load}

theorem of_ids (sound : world.Sound)
    (ids : (next.pages.map (·.id)).Perm (world.pages.map (·.id))) (heapSound : next.heap.Sound)
    (looseSound : ∀ page ∈ next.loose, page.Sound ∧ page.swept = false)
    (loadsSound : ∀ load ∈ next.loads, load.Sound) : next.Sound where
  heap := heapSound
  loose := looseSound
  loads := loadsSound
  distinct := ids.nodup_iff.mpr sound.distinct
  few := by
    have same := ids.length_eq
    rw [List.length_map, List.length_map] at same
    rw [same]
    exact sound.few

theorem few_heap (sound : world.Sound) : world.heap.pages.length ≤ Word.halfLimit := by
  have few := sound.few
  simp only [pages, List.length_append] at few
  omega

theorem few_load (sound : world.Sound) (load : Load) (member : load ∈ world.loads) :
    load.pages.length + world.heap.pages.length ≤ Word.halfLimit := by
  have few := sound.few
  have part : load.pages.length ≤ (world.loads.flatMap Load.pages).length := by
    obtain ⟨before, after, split⟩ := List.append_of_mem member
    rw [split, List.flatMap_append, List.flatMap_cons, List.length_append, List.length_append]
    omega
  simp only [pages, List.length_append] at few
  omega

theorem page (sound : world.Sound) {page : Page} (member : page ∈ world.pages) : page.Sound := by
  rcases List.mem_append.mp member with inHeap | elsewhere
  · exact sound.heap.page inHeap
  · rcases List.mem_append.mp elsewhere with loose | loaded
    · exact (sound.loose page loose).1
    · obtain ⟨load, inside, carried⟩ := List.mem_flatMap.mp loaded
      exact (sound.loads load inside).page carried

theorem distinct_heap (sound : world.Sound) : (world.heap.pages.map (·.id)).Nodup :=
  sound.distinct.sublist ((List.sublist_append_left _ _).map _)

theorem moved (sound : world.Sound) (same : next.pages.Perm world.pages)
    (heapSound : next.heap.Sound)
    (looseSound : ∀ page ∈ next.loose, page.Sound ∧ page.swept = false)
    (loadsSound : ∀ load ∈ next.loads, load.Sound) : next.Sound :=
  sound.of_ids (same.map _) heapSound looseSound loadsSound

theorem create (sound : (World.mk heap loose loads).Sound) {page : Page} (pageSound : page.Sound)
    (unswept : page.swept = false) (other : Heap) (same : other.spaces = heap.spaces)
    (unused : page.id ∉ (World.mk heap loose loads).pages.map (·.id))
    (room : (World.mk heap loose loads).pages.length < Word.halfLimit) :
    (World.mk other (loose ++ [page]) loads).Sound ∧
      (World.mk other (loose ++ [page]) loads).pages.Perm
        (page :: (World.mk heap loose loads).pages) := by
  have space (kind : SpaceKind) : other.space kind = heap.space kind := by
    simp only [Heap.space, same]
  have grown : (World.mk other (loose ++ [page]) loads).pages.Perm
      (page :: (World.mk heap loose loads).pages) := by
    refine List.perm_iff_count.mpr fun page => ?_
    simp only [pages, Heap.pages, space, List.count_append, List.count_cons, List.count_nil]
    omega
  refine ⟨⟨?_, ?_, sound.loads, ?_, ?_⟩, grown⟩
  · constructor <;> intro kind <;> rw [space]
    · exact sound.heap.kind kind
    · exact sound.heap.space kind
  · intro other member
    rcases List.mem_append.mp member with old | new
    · exact sound.loose other old
    · obtain rfl := List.mem_singleton.mp new
      exact ⟨pageSound, unswept⟩
  · rw [(grown.map _).nodup_iff, List.map_cons, List.nodup_cons]
    exact ⟨unused, sound.distinct⟩
  · rw [grown.length_eq, List.length_cons]
    exact room

theorem addPage {page : Page} (sound : (World.mk heap (early ++ page :: late) loads).Sound) :
    ∃ added, heap.addPage page = .ok added ∧ added.nextPage = heap.nextPage ∧
      (World.mk added (early ++ late) loads).Sound ∧
      (World.mk added (early ++ late) loads).pages.Perm
        (World.mk heap (early ++ page :: late) loads).pages := by
  obtain ⟨pageSound, unswept⟩ := sound.loose page (by simp)
  obtain ⟨added, accepted, number⟩ : ∃ added, heap.addPage page = .ok added ∧
      added.nextPage = heap.nextPage := ⟨_, Heap.addPage_eq sound.heap page, rfl⟩
  obtain ⟨heapSound, grown⟩ := sound.heap.addPage pageSound unswept accepted
  have moved : (World.mk added (early ++ late) loads).pages.Perm
      (World.mk heap (early ++ page :: late) loads).pages := by
    refine List.perm_iff_count.mpr fun other => ?_
    have counted := List.perm_iff_count.mp grown other
    simp only [pages, List.count_append, List.count_cons] at counted ⊢
    omega
  refine ⟨added, accepted, number, sound.moved moved heapSound ?_ sound.loads, moved⟩
  intro other member
  refine sound.loose other ?_
  rcases List.mem_append.mp member with inEarly | inLate
  · simp [inEarly]
  · simp [inLate]

theorem editLoose {page edited : Page}
    (sound : (World.mk heap (early ++ page :: late) loads).Sound) (same : edited.id = page.id)
    (editedSound : edited.Sound) (unswept : edited.swept = page.swept) :
    (World.mk heap (early ++ edited :: late) loads).Sound ∧
      Turned page edited (World.mk heap (early ++ page :: late) loads).pages
        (World.mk heap (early ++ edited :: late) loads).pages := by
  have turned : Turned page edited (World.mk heap (early ++ page :: late) loads).pages
      (World.mk heap (early ++ edited :: late) loads).pages :=
    ((Turned.middle early late page edited).frame (heap.pages ++ loads.flatMap Load.pages)).perm
      (List.perm_iff_count.mpr fun other => by
        simp only [pages, List.count_append]
        omega)
      (List.perm_iff_count.mpr fun other => by
        simp only [pages, List.count_append]
        omega)
  refine ⟨sound.of_ids (turned.map (·.id) same) sound.heap ?_ sound.loads, turned⟩
  intro other member
  rcases List.mem_append.mp member with inEarly | inLate
  · exact sound.loose other (by simp [inEarly])
  · rcases List.mem_cons.mp inLate with rfl | inRest
    · exact ⟨editedSound, unswept.trans (sound.loose page (by simp)).2⟩
    · exact sound.loose other (by simp [inRest])

theorem editUnswept {kind : SpaceKind} {page edited : Page}
    (sound : (World.mk heap loose loads).Sound)
    (waiting : (heap.space kind).unswept = early ++ page :: late) (same : edited.id = page.id)
    (editedSound : edited.Sound) (space : edited.space = page.space)
    (unswept : edited.swept = page.swept) :
    let changed := heap.setSpace kind { heap.space kind with unswept := early ++ edited :: late }
    (World.mk changed loose loads).Sound ∧
      Turned page edited (World.mk heap loose loads).pages
        (World.mk changed loose loads).pages := by
  obtain ⟨heapSound, turned⟩ := sound.heap.editUnswept waiting editedSound space unswept
  have whole := turned.frame (loose ++ loads.flatMap Load.pages)
  exact ⟨sound.of_ids (whole.map (·.id) same) heapSound sound.loose sound.loads, whole⟩

theorem allocate (sound : (World.mk heap loose loads).Sound) (kind : SpaceKind) (request : Nat) :
    heap.allocate kind request = (.ok none, heap) ∨
      ∃ page objects object served,
        heap.allocate kind request = (.ok (some ⟨kind, page.id, object.offset⟩), served) ∧
        Word.roundUp? request = some object.size ∧ page.Gains object objects ∧
        served.nextPage = heap.nextPage ∧
        (∀ kind, (served.space kind).unswept = (heap.space kind).unswept) ∧
        (World.mk served loose loads).Sound ∧
        Turned page { page with objects } (World.mk heap loose loads).pages
          (World.mk served loose loads).pages := by
  rcases sound.heap.allocate sound.distinct_heap sound.few_heap kind request with
    refused | ⟨page, objects, object, served, found, rounded, _, gains, heapSound, number, waiting,
      turned⟩
  · exact Or.inl refused
  · have whole := turned.frame (loose ++ loads.flatMap Load.pages)
    exact Or.inr ⟨page, objects, object, served, found, rounded, gains, number, waiting,
      sound.of_ids (whole.map (·.id) rfl) heapSound sound.loose sound.loads, whole⟩

theorem take (sound : (World.mk heap loose loads).Sound) (more : List Load)
    (moreSound : ∀ load ∈ more, load.Sound)
    (parted : (more.flatMap Load.pages).Perm
      (heap.takeUnswept.1 ++ loads.flatMap Load.pages)) :
    (World.mk heap.takeUnswept.2 loose more).Sound ∧
      (World.mk heap.takeUnswept.2 loose more).pages.Perm (World.mk heap loose loads).pages := by
  obtain ⟨heapSound, split, _⟩ := sound.heap.takeUnswept
  have moved : (World.mk heap.takeUnswept.2 loose more).pages.Perm
      (World.mk heap loose loads).pages := by
    refine List.perm_iff_count.mpr fun page => ?_
    have taken := List.perm_iff_count.mp split page
    have loaded := List.perm_iff_count.mp parted page
    simp only [pages, List.count_append] at taken loaded ⊢
    omega
  exact ⟨sound.moved moved heapSound sound.loose moreSound, moved⟩

theorem restore {pages : List Page} (sound : (World.mk heap loose loads).Sound) (more : List Load)
    (waiting : ∀ page ∈ pages, page.Sound ∧ page.swept = false)
    (moreSound : ∀ load ∈ more, load.Sound)
    (parted : (loads.flatMap Load.pages).Perm (pages ++ more.flatMap Load.pages)) :
    (World.mk (heap.restoreUnswept pages) loose more).Sound ∧
      (World.mk (heap.restoreUnswept pages) loose more).pages.Perm
        (World.mk heap loose loads).pages := by
  obtain ⟨heapSound, joined⟩ := sound.heap.restoreUnswept waiting
  have moved : (World.mk (heap.restoreUnswept pages) loose more).pages.Perm
      (World.mk heap loose loads).pages := by
    refine List.perm_iff_count.mpr fun page => ?_
    have restored := List.perm_iff_count.mp joined page
    have loaded := List.perm_iff_count.mp parted page
    simp only [World.pages, List.count_append] at restored loaded ⊢
    omega
  exact ⟨sound.moved moved heapSound sound.loose moreSound, moved⟩

theorem replaceLoad {load other : Load} (sound : (World.mk heap loose (before ++ load :: after)).Sound)
    (otherSound : other.Sound) : ∀ member ∈ before ++ other :: after, member.Sound := by
  intro member inside
  rcases List.mem_append.mp inside with inBefore | inAfter
  · exact sound.loads member (by simp [inBefore])
  · rcases List.mem_cons.mp inAfter with rfl | inRest
    · exact otherSound
    · exact sound.loads member (by simp [inRest])

theorem sweep {load : Load} {page : Page} {left : List Page}
    (sound : (World.mk heap loose (before ++ load :: after)).Sound)
    (first : load.left = page :: left) (young : page.sweeps + 1 < Word.halfLimit) :
    let swept : Load := ⟨left, Load.gained load.batch heap.totals page⟩
    let counted : Heap := { heap with totals := heap.totals.record page.yielded }
    load.sweepNext heap = (.ok (), swept, counted) ∧ page.swept = false ∧
      (World.mk counted loose (before ++ swept :: after)).Sound ∧
      Turned page page.renewed (World.mk heap loose (before ++ load :: after)).pages
        (World.mk counted loose (before ++ swept :: after)).pages := by
  intro swept counted
  have loadSound := sound.loads load (by simp)
  have few := sound.few_load load (by simp)
  obtain ⟨done, sweptSound, turned⟩ := loadSound.sweepNext heap first young (by omega)
  have whole : Turned page page.renewed (World.mk heap loose (before ++ load :: after)).pages
      (World.mk counted loose (before ++ swept :: after)).pages :=
    (turned.frame (heap.pages ++ (loose ++ (before ++ after).flatMap Load.pages))).perm
      (List.perm_iff_count.mpr fun other => by
        simp only [pages, List.flatMap_append, List.flatMap_cons, List.count_append]
        omega)
      (List.perm_iff_count.mpr fun other => by
        have same : counted.pages = heap.pages := rfl
        simp only [pages, same, swept, List.flatMap_append, List.flatMap_cons, List.count_append]
        omega)
  exact ⟨done, (loadSound.waiting page (by simp [first])).2,
    sound.of_ids (whole.map (·.id) rfl) ⟨sound.heap.kind, sound.heap.space⟩ sound.loose
      (sound.replaceLoad sweptSound), whole⟩

theorem publish {load : Load} (sound : (World.mk heap loose (before ++ load :: after)).Sound)
    (done : load.left = []) (kind : SpaceKind) :
    ∃ published, load.publish heap kind = (.ok (), load.without kind, published) ∧
      published.nextPage = heap.nextPage ∧
      (∀ other, (published.space other).unswept = (heap.space other).unswept) ∧
      (World.mk published loose (before ++ load.without kind :: after)).Sound ∧
      (World.mk published loose (before ++ load.without kind :: after)).pages.Perm
        (World.mk heap loose (before ++ load :: after)).pages := by
  obtain ⟨published, joined, lighter, heapSound, number, waiting, grown⟩ :=
    (sound.loads load (by simp)).publish sound.heap done (sound.few_load load (by simp)) kind
  have moved : (World.mk published loose (before ++ load.without kind :: after)).pages.Perm
      (World.mk heap loose (before ++ load :: after)).pages := by
    refine List.perm_iff_count.mpr fun page => ?_
    have joined := List.perm_iff_count.mp grown page
    have left := List.perm_iff_count.mp (load.without_pages_perm kind) page
    simp only [pages, List.flatMap_append, List.flatMap_cons, List.count_append] at joined left ⊢
    omega
  exact ⟨published, joined, number, waiting,
    sound.moved moved heapSound sound.loose (sound.replaceLoad lighter), moved⟩

theorem sweepPages {pages : List Page}
    (sound : (World.mk heap loose (before ++ .ofPages pages :: after)).Sound)
    (young : ∀ page ∈ pages, page.sweeps + 1 < Word.halfLimit) :
    heap.sweepPages pages = (.ok (harvest pages), heap.reclaim pages) ∧
      (World.mk (heap.reclaim pages) loose (before ++ after)).Sound ∧
      ∃ others, (World.mk heap loose (before ++ .ofPages pages :: after)).pages.Perm
          (pages ++ others) ∧
        (World.mk (heap.reclaim pages) loose (before ++ after)).pages.Perm
          (pages.map Page.renewed ++ others) := by
  have whole := sound.loads (.ofPages pages) (by simp)
  have few := sound.few_load (.ofPages pages) (by simp)
  rw [Load.ofPages_pages] at few
  have waiting : ∀ page ∈ pages, page.Sound ∧ page.swept = false := whole.waiting
  obtain ⟨heapSound, grown⟩ := sound.heap.reclaim fun page member => (waiting page member).1
  have lists (kind : SpaceKind) :
      ((heap.space kind).free.join (mapOf (renewedIn kind pages))).Fits := by
    have mapped := (heapSound.space kind).mapped
    have inHeap := ((List.sublist_append_right _ _).trans
      ((heap.reclaim pages).pages_sublist kind)).length_le
    rw [grown.length_eq, List.length_append, List.length_map] at inHeap
    rw [Heap.space_reclaim] at mapped inHeap
    exact mapped.fits (Nat.le_trans inHeap few)
  have totals : (harvest pages).Fits := by
    apply (harvest_modest fun page member => (waiting page member).1).fits
    rw [harvest_pages]
    omega
  have swept := Heap.sweepPages_ok
    (fun page member => ⟨(waiting page member).2, young page member⟩) lists totals
  let others := heap.pages ++ (loose ++ (before ++ after).flatMap Load.pages)
  have old : (World.mk heap loose (before ++ .ofPages pages :: after)).pages.Perm
      (pages ++ others) := by
    refine List.perm_iff_count.mpr fun page => ?_
    simp only [World.pages, others, List.flatMap_append, List.flatMap_cons, Load.ofPages_pages,
      List.count_append]
    omega
  have new : (World.mk (heap.reclaim pages) loose (before ++ after)).pages.Perm
      (pages.map Page.renewed ++ others) := by
    refine List.perm_iff_count.mpr fun page => ?_
    have counted := List.perm_iff_count.mp grown page
    simp only [World.pages, others, List.count_append] at counted ⊢
    omega
  refine ⟨swept, sound.of_ids ?_ heapSound sound.loose ?_, others, old, new⟩
  · have names : (pages.map Page.renewed).map (·.id) = pages.map (·.id) := by
      rw [List.map_map]
      rfl
    refine (new.map _).trans (List.Perm.trans ?_ (old.map _).symm)
    rw [List.map_append, names, ← List.map_append]
  · intro load member
    refine sound.loads load ?_
    rcases List.mem_append.mp member with inBefore | inAfter
    · simp [inBefore]
    · simp [inAfter]

theorem prepare (sound : (World.mk heap loose loads).Sound) :
    (World.mk heap.prepare loose loads).Sound ∧
      ∃ waiting done, (World.mk heap loose loads).pages.Perm (waiting ++ done) ∧
        (World.mk heap.prepare loose loads).pages.Perm (waiting ++ done.map Page.markUnswept) := by
  obtain ⟨heapSound, waiting, done, old, new⟩ := sound.heap.prepare
  have parted : (World.mk heap loose loads).pages.Perm
      ((waiting ++ (loose ++ loads.flatMap Load.pages)) ++ done) := by
    refine List.perm_iff_count.mpr fun page => ?_
    have counted := List.perm_iff_count.mp old page
    simp only [pages, List.count_append] at counted ⊢
    omega
  have recycled : (World.mk heap.prepare loose loads).pages.Perm
      ((waiting ++ (loose ++ loads.flatMap Load.pages)) ++ done.map Page.markUnswept) := by
    refine List.perm_iff_count.mpr fun page => ?_
    have counted := List.perm_iff_count.mp new page
    simp only [pages, List.count_append] at counted ⊢
    omega
  have ids : ((World.mk heap.prepare loose loads).pages.map (·.id)).Perm
      ((World.mk heap loose loads).pages.map (·.id)) := by
    have names : (done.map Page.markUnswept).map (·.id) = done.map (·.id) := by
      rw [List.map_map]
      rfl
    refine (recycled.map _).trans (List.Perm.trans ?_ (parted.map _).symm)
    rw [List.map_append, names, ← List.map_append]
  exact ⟨sound.of_ids ids heapSound sound.loose sound.loads, _, _, parted, recycled⟩

end Sound

end World

end Reclaim
