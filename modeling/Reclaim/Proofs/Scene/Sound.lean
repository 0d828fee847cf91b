import Reclaim.Proofs.Coordinator.Team
import Reclaim.Proofs.Scene.Basic
import Reclaim.Proofs.World.Moves

/-! Sound scenes. The pages in the slots and in the hands of the sweepers are loads on their way to
the heap, so a scene has a world; as long as the world is sound and the sweepers keep their
handshakes, no act faults, unless it sweeps a page whose sweep count is full. -/

namespace Reclaim

def stowed (slots : List (List Page)) (hands : List Load) : List Load :=
  (List.zipWith (fun slot load => [Load.ofPages slot, load]) slots hands).flatten

theorem stowed_middle {before after : List (List Page)} {early late : List Load}
    (same : before.length = early.length) (slot : List Page) (load : Load) :
    stowed (before ++ slot :: after) (early ++ load :: late) =
      stowed before early ++ .ofPages slot :: load :: stowed after late := by
  rw [stowed, List.zipWith_append same, List.flatten_append]
  rfl

theorem mem_stowed {slots : List (List Page)} {hands : List Load} {load : Load}
    (member : load ∈ stowed slots hands) : load ∈ hands ∨ ∃ slot ∈ slots, load = .ofPages slot := by
  induction slots generalizing hands with
  | nil => cases member
  | cons slot slots ih =>
      cases hands with
      | nil => cases member
      | cons hand hands =>
          rcases List.mem_cons.mp member with rfl | inRest
          · exact Or.inr ⟨slot, by simp, rfl⟩
          · rcases List.mem_cons.mp inRest with rfl | later
            · exact Or.inl (by simp)
            · rcases ih later with held | ⟨other, inside, rfl⟩
              · exact Or.inl (by simp [held])
              · exact Or.inr ⟨other, by simp [inside], rfl⟩

theorem hand_mem_stowed {slots : List (List Page)} {hands : List Load} {load : Load}
    (same : slots.length = hands.length) (member : load ∈ hands) : load ∈ stowed slots hands := by
  obtain ⟨early, late, rfl⟩ := List.append_of_mem member
  rw [List.length_append, List.length_cons] at same
  obtain ⟨before, slot, after, rfl, length⟩ :=
    Coordinator.split_at (show early.length < slots.length by omega)
  rw [stowed_middle length]
  simp

theorem stowed_pages {slots : List (List Page)} {hands : List Load}
    (same : slots.length = hands.length) :
    ((stowed slots hands).flatMap Load.pages).Perm
      (slots.flatten ++ hands.flatMap Load.pages) := by
  induction slots generalizing hands with
  | nil =>
      obtain rfl := List.eq_nil_of_length_eq_zero same.symm
      exact List.Perm.refl _
  | cons slot slots ih =>
      cases hands with
      | nil => cases same
      | cons hand hands =>
          have later := ih (by simpa using same)
          refine List.perm_iff_count.mpr fun page => ?_
          have counted := List.perm_iff_count.mp later page
          have split : stowed (slot :: slots) (hand :: hands) =
              .ofPages slot :: hand :: stowed slots hands := rfl
          simp only [split, List.flatMap_cons, Load.ofPages_pages, List.flatten_cons,
            List.count_append] at counted ⊢
          omega

namespace Scene

def world (scene : Scene) : World :=
  ⟨scene.heap, [], stowed scene.coordinator.slots scene.hands⟩

def pages (scene : Scene) : List Page := scene.world.pages

structure Sound (scene : Scene) : Prop where
  staffed : scene.coordinator.Staffed scene.hands
  world : scene.world.Sound
  small : ∀ page ∈ scene.pages, page.id.number < Word.halfLimit
  halted : scene.client ≠ .free → scene.coordinator.stopped = true

structure Shift (scene : Scene) (act : Act) (next : Scene) : Prop where
  owners : (next.pages.map Page.owner).Perm ((act.added ++ scene.pages).map Page.owner)
  follows : act.isPrepare = false →
    ∀ page ∈ scene.pages, ∃ later ∈ next.pages, page.Followed later
  sweeps : (act.sweeps.map (·.id)).Nodup ∧ ∀ page ∈ act.sweeps,
    page ∈ scene.pages ∧ page.swept = false ∧ page.renewed ∈ next.pages
  arrives : ∀ page ∈ act.added, page ∈ (next.heap.space page.space).unswept
  waiting : act.isStart = false → ∀ kind,
    (scene.heap.space kind).unswept.map (·.id) ⊆ (next.heap.space kind).unswept.map (·.id)

namespace Shift

variable {scene next : Scene} {act : Act}

theorem of_advanced (none : act.added = []) (advanced : Advanced scene.pages next.pages)
    (sweeps : (act.sweeps.map (·.id)).Nodup ∧ ∀ page ∈ act.sweeps,
      page ∈ scene.pages ∧ page.swept = false ∧ page.renewed ∈ next.pages)
    (waiting : act.isStart = false → ∀ kind,
      (scene.heap.space kind).unswept.map (·.id) ⊆ (next.heap.space kind).unswept.map (·.id)) :
    Shift scene act next where
  owners := by
    rw [none]
    exact advanced.owners
  follows _ := advanced.follows
  sweeps := sweeps
  arrives := by simp [none]
  waiting := waiting

theorem of_idle (none : act.added = []) (idle : act.sweeps = [])
    (advanced : Advanced scene.pages next.pages)
    (waiting : act.isStart = false → ∀ kind,
      (scene.heap.space kind).unswept.map (·.id) ⊆ (next.heap.space kind).unswept.map (·.id)) :
    Shift scene act next := of_advanced none advanced (by simp [idle]) waiting

theorem of_world (same : next.world = scene.world) (none : act.added = [])
    (idle : act.sweeps = []) : Shift scene act next := by
  have heap : next.heap = scene.heap := congrArg World.heap same
  refine of_idle none idle (.of_perm ?_) fun _ kind => ?_
  · rw [pages, same]
    exact List.Perm.refl _
  · rw [heap]
    exact List.Subset.refl _

end Shift

namespace Sound

variable {scene next : Scene} {act : Act} {coordinator : Coordinator} {hands : List Load}
  {client : Client}

theorem hands_length (sound : scene.Sound) :
    scene.coordinator.slots.length = scene.hands.length := by
  rw [Coordinator.slots, List.length_map]
  exact sound.staffed.team.shakes.length_eq

theorem shifted (sound : scene.Sound) (shift : Shift scene act next)
    (added : ∀ page ∈ act.added, page.id.number < Word.halfLimit)
    (staffed : next.coordinator.Staffed next.hands) (world : next.world.Sound)
    (halted : next.client ≠ .free → next.coordinator.stopped = true) :
    next.Sound ∧ Shift scene act next := by
  refine ⟨⟨staffed, world, fun page member => ?_, halted⟩, shift⟩
  have owner := shift.owners.mem_iff.mp (List.mem_map_of_mem member)
  obtain ⟨old, inside, same⟩ := List.mem_map.mp owner
  rw [← show old.id = page.id from congrArg Prod.fst same]
  rcases List.mem_append.mp inside with new | before
  · exact added old new
  · exact sound.small old before

theorem withHeap (sound : (Scene.mk coordinator hands client).Sound) {heap : Heap}
    (world : (World.mk heap [] (stowed coordinator.slots hands)).Sound)
    (added : ∀ page ∈ act.added, page.id.number < Word.halfLimit)
    (shift : Shift ⟨coordinator, hands, client⟩ act ⟨coordinator.withHeap heap, hands, client⟩) :
    (Scene.mk (coordinator.withHeap heap) hands client).Sound ∧
      Shift ⟨coordinator, hands, client⟩ act ⟨coordinator.withHeap heap, hands, client⟩ :=
  sound.shifted shift added ⟨sound.staffed.team, sound.staffed.books⟩ world sound.halted

theorem keeps (sound : (Scene.mk coordinator hands client).Sound) {following : Coordinator}
    (keeps : coordinator.Keeps hands following) (none : act.added = []) (idle : act.sweeps = []) :
    (Scene.mk following hands client).Sound ∧
      Shift ⟨coordinator, hands, client⟩ act ⟨following, hands, client⟩ := by
  have same : (Scene.mk following hands client).world =
      (Scene.mk coordinator hands client).world := by
    simp only [Scene.world, Scene.heap, keeps.heap, keeps.slots]
  refine sound.shifted (.of_world same none idle) (by simp [none]) keeps.staffed ?_ fun busy => ?_
  · rw [same]
    exact sound.world
  · exact keeps.stopped.trans (sound.halted busy)

theorem still (sound : (Scene.mk coordinator hands client).Sound) {following : Coordinator}
    (keeps : coordinator.Keeps hands following) : (Scene.mk following hands client).Sound :=
  (sound.keeps keeps (show Act.stop.added = [] from rfl) rfl).1

end Sound

def places (scene : Scene) : List Place :=
  [.unswept .data, .swept .data, .unswept .pointer, .swept .pointer] ++
    ((List.range scene.coordinator.numThreads).map Place.slot ++
      (List.range scene.hands.length).map Place.hand)

theorem range_flatMap {α β : Type} (items : List α) (inside : α → List β) :
    ((List.range items.length).flatMap fun index => items[index]?.elim [] inside) =
      items.flatMap inside := by
  induction items with
  | nil => rfl
  | cons item rest ih =>
      rw [List.length_cons, List.range_succ_eq_map, List.flatMap_cons, List.flatMap_cons,
        List.flatMap_map, ← ih]
      rfl

theorem places_perm {scene : Scene}
    (same : scene.coordinator.slots.length = scene.hands.length) :
    (scene.places.flatMap scene.pagesAt).Perm scene.pages := by
  have slots : ((List.range scene.coordinator.numThreads).map Place.slot).flatMap scene.pagesAt =
      scene.coordinator.slots.flatten := by
    rw [List.flatMap_map, Coordinator.slots, ← List.flatMap_def]
    exact range_flatMap _ _
  have hands : ((List.range scene.hands.length).map Place.hand).flatMap scene.pagesAt =
      scene.hands.flatMap Load.pages := by
    rw [List.flatMap_map]
    exact range_flatMap _ _
  refine List.perm_iff_count.mpr fun page => ?_
  have stowed := List.perm_iff_count.mp (stowed_pages same) page
  simp only [places, pages, world, World.pages, Heap.pages, PagedSpace.pages, pagesAt, slots, hands,
    List.flatMap_append, List.flatMap_cons, List.flatMap_nil, List.count_append,
    List.count_nil] at stowed ⊢
  omega

theorem mem_places {scene : Scene} {place : Place} {page : Page}
    (member : page ∈ scene.pagesAt place) : place ∈ scene.places := by
  cases place with
  | unswept kind => cases kind <;> simp [places]
  | swept kind => cases kind <;> simp [places]
  | slot index =>
      have known : index < scene.coordinator.sweepers.length := by
        by_contra beyond
        simp [pagesAt, List.getElem?_eq_none (Nat.le_of_not_lt beyond)] at member
      simp [places, Coordinator.numThreads, known]
  | hand index =>
      have known : index < scene.hands.length := by
        by_contra beyond
        simp [pagesAt, List.getElem?_eq_none (Nat.le_of_not_lt beyond)] at member
      simp [places, known]

theorem mem_pages {scene : Scene} (same : scene.coordinator.slots.length = scene.hands.length)
    {page : Page} : page ∈ scene.pages ↔ ∃ place, page ∈ scene.pagesAt place := by
  rw [← (places_perm same).mem_iff, List.mem_flatMap]
  constructor
  · rintro ⟨place, _, member⟩
    exact ⟨place, member⟩
  · rintro ⟨place, member⟩
    exact ⟨place, mem_places member, member⟩

end Scene

theorem Page.Made.sound {page : Page} (made : page.Made) : page.Sound ∧ page.swept = false := by
  induction made with
  | fresh id kind => exact ⟨Page.fresh_sound id kind, rfl⟩
  | edit _ edit ih =>
      obtain ⟨edited, _, _, swept, _⟩ := edit.turn ih.1
      exact ⟨edited, swept.trans ih.2⟩

namespace Scene

namespace Sound

variable {coordinator : Coordinator} {hands early late : List Load} {client : Client}
  {before after : List Sweeper}

theorem world_middle {sweeper : Sweeper} {load : Load}
    (split : coordinator.sweepers = before ++ sweeper :: after)
    (same : before.length = early.length) :
    (Scene.mk coordinator (early ++ load :: late) client).world =
      ⟨coordinator.site.heap, [], stowed (before.map (·.assignment.pages)) early ++
        .ofPages sweeper.assignment.pages :: load ::
          stowed (after.map (·.assignment.pages)) late⟩ := by
  have length : (before.map (·.assignment.pages)).length = early.length := by simpa using same
  rw [Scene.world, Coordinator.slots, split, List.map_append, List.map_cons, stowed_middle length]
  rfl

theorem at_sweeper {sweeper : Sweeper} {load : Load}
    (sound : (Scene.mk coordinator (early ++ load :: late) client).Sound)
    (split : coordinator.sweepers = before ++ sweeper :: after)
    (same : before.length = early.length) :
    Handshake coordinator.stopped sweeper load ∧ load.Regular coordinator.site.heap := by
  have team := sound.staffed.team
  have whole := sound.world
  rw [split] at team
  rw [world_middle split same, ← List.singleton_append, ← List.append_assoc] at whole
  exact ⟨(team.middle same).2.1, World.Sound.regular whole⟩

theorem sweeper {sweeper next : Sweeper} {load taken : Load} {site : Site} {chore : Chore}
    (sound : (Scene.mk coordinator (early ++ load :: late) client).Sound)
    (split : coordinator.sweepers = before ++ sweeper :: after)
    (same : before.length = early.length)
    (move : Move coordinator.stopped sweeper load coordinator.site chore next taken site)
    (young : ∀ page ∈ chore.sweeps, page.sweeps + 1 < Word.halfLimit) :
    chore.fault? = none ∧
      (∀ kind, (site.heap.space kind).unswept = (coordinator.site.heap.space kind).unswept) ∧
      (Scene.mk { coordinator with site, sweepers := before ++ next :: after }
        (early ++ taken :: late) client).Sound ∧
      Shift ⟨coordinator, early ++ load :: late, client⟩ (.sweeper before.length chore)
        ⟨{ coordinator with site, sweepers := before ++ next :: after },
          early ++ taken :: late, client⟩ := by
  obtain ⟨shake, regular⟩ := sound.at_sweeper split same
  obtain ⟨team, books⟩ := sound.staffed
  rw [split] at team books
  obtain ⟨_, _, replace⟩ := team.middle same
  have new : (Scene.mk { coordinator with site, sweepers := before ++ next :: after }
      (early ++ taken :: late) client).world =
      ⟨site.heap, [], stowed (before.map (·.assignment.pages)) early ++
        .ofPages next.assignment.pages :: taken ::
          stowed (after.map (·.assignment.pages)) late⟩ := world_middle rfl same
  obtain ⟨calm, later, parts, nextSound, advanced, sweeps, waiting, _⟩ :=
    move.world young shake sound.world (world_middle split same)
  rw [← new] at parts
  subst parts
  refine ⟨calm, waiting, sound.shifted (.of_advanced rfl advanced sweeps fun _ kind => ?_)
    (by simp [Act.added]) ⟨?_, ?_⟩ nextSound sound.halted⟩
  · rw [show (Scene.mk { coordinator with site, sweepers := before ++ next :: after }
      (early ++ taken :: late) client).heap.space kind = site.heap.space kind from rfl, waiting]
    exact List.Subset.refl _
  · exact replace _ _ (move.index calm) (move.handshake calm shake)
  · rw [dues_middle same] at books
    dsimp only
    rw [dues_middle same, move.due calm young shake regular]
    exact books

theorem few_of_small {pages : List Page} (distinct : (pages.map (·.id)).Nodup)
    (small : ∀ page ∈ pages, page.id.number < Word.halfLimit) : pages.length ≤ Word.halfLimit := by
  have numbers : (pages.map (·.id.number)).Nodup := by
    have named := distinct.map (f := PageId.number) fun name other equal => by
      cases name
      cases other
      exact congrArg _ equal
    rwa [List.map_map] at named
  have inside : pages.map (·.id.number) ⊆ List.range Word.halfLimit := by
    intro number member
    obtain ⟨page, found, rfl⟩ := List.mem_map.mp member
    exact List.mem_range.mpr (small page found)
  simpa using (List.subperm_of_subset numbers inside).length_le

theorem add {page : Page} (sound : (Scene.mk coordinator hands client).Sound) (made : page.Made)
    (small : page.id.number < Word.halfLimit)
    (unused : ∀ place, ∀ other ∈ (Scene.mk coordinator hands client).pagesAt place,
      other.id ≠ page.id) :
    ∃ heap, coordinator.site.heap.addPage page = .ok heap ∧
      (Scene.mk (coordinator.withHeap heap) hands client).Sound ∧
      ∀ answer, Shift ⟨coordinator, hands, client⟩ (.add page answer)
        ⟨coordinator.withHeap heap, hands, client⟩ := by
  obtain ⟨pageSound, unswept⟩ := made.sound
  have whole := sound.world
  have free : page.id ∉ (Scene.mk coordinator hands client).pages.map (·.id) := by
    intro member
    obtain ⟨other, found, same⟩ := List.mem_map.mp member
    obtain ⟨place, here⟩ := (mem_pages sound.hands_length).mp found
    exact unused place other here same
  have room : (Scene.mk coordinator hands client).pages.length < Word.halfLimit := by
    have distinct : ((page :: (Scene.mk coordinator hands client).pages).map (·.id)).Nodup :=
      List.nodup_cons.mpr ⟨free, whole.distinct⟩
    have few := few_of_small distinct fun other member => by
      rcases List.mem_cons.mp member with rfl | old
      · exact small
      · exact sound.small other old
    exact few
  obtain ⟨created, grown⟩ :=
    World.Sound.create whole pageSound unswept coordinator.site.heap rfl free room
  have loose : (World.mk coordinator.site.heap ([] ++ page :: [])
      (stowed coordinator.slots hands)).Sound := created
  obtain ⟨heap, accepted, _, nextSound, moved⟩ := loose.addPage
  have added : (Scene.mk (coordinator.withHeap heap) hands client).pages.Perm
      (page :: (Scene.mk coordinator hands client).pages) := moved.trans grown
  obtain ⟨here, elsewhere⟩ := Heap.addPage_space whole.heap accepted
  have shift (answer : Except Fault Unit) : Shift ⟨coordinator, hands, client⟩ (.add page answer)
      ⟨coordinator.withHeap heap, hands, client⟩ := by
    refine ⟨added.map _, fun _ other member => ?_, by simp [Act.sweeps], fun other member => ?_,
      fun _ kind => ?_⟩
    · exact ⟨other, added.mem_iff.mpr (List.mem_cons_of_mem _ member), .refl other⟩
    · obtain rfl := List.mem_singleton.mp member
      simp only [Scene.heap, Coordinator.withHeap, here]
      simp
    · simp only [Scene.heap, Coordinator.withHeap]
      by_cases own : kind = page.space
      · rw [own, here, List.map_append]
        exact List.subset_append_left _ _
      · rw [elsewhere kind own]
        exact List.Subset.refl _
  refine ⟨heap, accepted, ?_, shift⟩
  refine (sound.withHeap nextSound (fun other member => ?_) (shift (.ok ()))).1
  obtain rfl := List.mem_singleton.mp member
  exact small

theorem edit {kind : SpaceKind} {front back : List Page} {page edited : Page} {deed : Deed}
    (sound : (Scene.mk coordinator hands client).Sound) (edit : Edit page deed edited)
    (waiting : (coordinator.site.heap.space kind).unswept = front ++ page :: back) :
    deed.fault? = none ∧
      let heap := coordinator.site.heap.setSpace kind
        { coordinator.site.heap.space kind with unswept := front ++ edited :: back }
      (Scene.mk (coordinator.withHeap heap) hands client).Sound ∧
        Shift ⟨coordinator, hands, client⟩ (.edit deed)
          ⟨coordinator.withHeap heap, hands, client⟩ := by
  have whole := sound.world
  have held : page ∈ (coordinator.site.heap.space kind).unswept := by simp [waiting]
  obtain ⟨editedSound, id, space, swept, sweeps, calm, _⟩ :=
    edit.turn ((whole.heap.space kind).waiting page held).1
  obtain ⟨nextSound, turned⟩ := World.Sound.editUnswept whole waiting id editedSound space swept
  refine ⟨calm, sound.withHeap nextSound (by simp [Act.added]) ?_⟩
  refine .of_idle rfl rfl (.of_turned turned ⟨?_, ?_, ?_⟩) fun _ other => ?_
  · simp only [Page.owner, id, space]
  · exact Nat.le_of_eq sweeps.symm
  · rw [swept, sweeps]
  · simp only [Scene.heap, Coordinator.withHeap]
    by_cases own : other = kind
    · subst own
      simp [waiting, id]
    · rw [Heap.space_setSpace_other _ _ own]
      exact List.Subset.refl _

theorem allocate (sound : (Scene.mk coordinator hands client).Sound) (kind : SpaceKind)
    (request : Nat) :
    ∃ answer heap, coordinator.site.heap.allocate kind request = (.ok answer, heap) ∧
      (Scene.mk (coordinator.withHeap heap) hands client).Sound ∧
      Shift ⟨coordinator, hands, client⟩ (.allocate kind request (.ok answer))
        ⟨coordinator.withHeap heap, hands, client⟩ := by
  rcases World.Sound.allocate sound.world kind request with
    refused | ⟨page, objects, object, heap, found, _, _, _, waiting, nextSound, turned⟩
  · refine ⟨_, _, refused, sound.withHeap sound.world (by simp [Act.added]) ?_⟩
    exact .of_world rfl rfl rfl
  · refine ⟨_, _, found, sound.withHeap nextSound (by simp [Act.added]) ?_⟩
    refine .of_idle rfl rfl (.of_turned turned ⟨rfl, Nat.le_refl _, rfl⟩) fun _ other => ?_
    simp only [Scene.heap, Coordinator.withHeap, waiting]
    exact List.Subset.refl _

theorem prepare (sound : (Scene.mk coordinator hands client).Sound) :
    (Scene.mk (coordinator.withHeap coordinator.site.heap.prepare) hands client).Sound ∧
      Shift ⟨coordinator, hands, client⟩ .prepare
        ⟨coordinator.withHeap coordinator.site.heap.prepare, hands, client⟩ := by
  obtain ⟨nextSound, waiting, done, old, new⟩ := World.Sound.prepare sound.world
  refine sound.withHeap nextSound (by simp [Act.added])
    ⟨?_, by simp [Act.isPrepare], by simp [Act.sweeps], ?_, ?_⟩
  · have names : (done.map Page.markUnswept).map Page.owner = done.map Page.owner := by
      rw [List.map_map]
      rfl
    refine (new.map _).trans (List.Perm.trans ?_ (old.map _).symm)
    rw [List.map_append, names, ← List.map_append]
  · simp [Act.added]
  · intro _ kind
    simp only [Scene.heap, Coordinator.withHeap, Heap.space_prepare, PagedSpace.prepare,
      PagedSpace.recycle, PagedSpace.restoreUnswept, PagedSpace.takeSwept, PagedSpace.dropBlocks,
      List.map_append]
    exact List.subset_append_left _ _

theorem taken {heap : Heap} {loads : List Load} (sound : (World.mk heap [] loads).Sound) :
    (∀ page ∈ heap.takeUnswept.1, page.Sound ∧ page.swept = false) ∧
      (harvest heap.takeUnswept.1).Fits := by
  obtain ⟨_, parted, waiting⟩ := sound.heap.takeUnswept
  have length : heap.pages.length = _ := parted.length_eq
  rw [List.length_append] at length
  have few : heap.pages.length ≤ Word.halfLimit := sound.few_heap
  refine ⟨waiting, ?_⟩
  apply (harvest_modest fun page member => (waiting page member).1).fits
  rw [harvest_pages]
  exact Nat.le_trans (Nat.le_add_right _ _) (length ▸ few)

theorem unstaffed (sound : (Scene.mk coordinator hands client).Sound)
    (alone : coordinator.numThreads = 0) :
    coordinator.sweepers = [] ∧ hands = [] ∧
      (Scene.mk coordinator hands client).world = ⟨coordinator.site.heap, [], []⟩ ∧
      (World.mk coordinator.site.heap.takeUnswept.2 []
        ([] ++ .ofPages coordinator.site.heap.takeUnswept.1 :: [])).Sound ∧
      (World.mk coordinator.site.heap.takeUnswept.2 []
        ([] ++ .ofPages coordinator.site.heap.takeUnswept.1 :: [])).pages.Perm
          (World.mk coordinator.site.heap [] []).pages := by
  have nobody : coordinator.sweepers = [] := List.eq_nil_of_length_eq_zero alone
  have empty : hands = [] := by
    have same := sound.hands_length
    rw [Coordinator.slots, List.length_map, nobody] at same
    exact List.eq_nil_of_length_eq_zero same.symm
  have before : (Scene.mk coordinator hands client).world = ⟨coordinator.site.heap, [], []⟩ := by
    rw [Scene.world, Coordinator.slots, nobody]
    rfl
  have whole : (World.mk coordinator.site.heap [] []).Sound := before ▸ sound.world
  refine ⟨nobody, empty, before, World.Sound.take whole _ ?_ (by simp [Load.ofPages_pages])⟩
  intro load member
  obtain rfl := List.mem_singleton.mp member
  exact Load.ofPages_sound (taken whole).1

theorem startHere (sound : (Scene.mk coordinator hands client).Sound)
    (running : coordinator.stopped = false) (alone : coordinator.numThreads = 0)
    (young : ∀ page ∈ coordinator.site.heap.takeUnswept.1, page.sweeps + 1 < Word.halfLimit) :
    coordinator.start.1 = .ok () ∧
      (Scene.mk coordinator.start.2 hands client).Sound ∧
      ∀ answer, Shift ⟨coordinator, hands, client⟩ (.start coordinator.sweptAtStart answer)
        ⟨coordinator.start.2, hands, client⟩ := by
  obtain ⟨nobody, rfl, before, loaded, moved⟩ := sound.unstaffed alone
  have whole : (World.mk coordinator.site.heap [] []).Sound := before ▸ sound.world
  obtain ⟨waiting, _⟩ := taken whole
  obtain ⟨swept, nextSound, others, old, new⟩ := loaded.sweepPages young
  obtain ⟨site, round, report, started, heap, _, _, entries, merged, _⟩ :=
    Coordinator.start_here running alone swept
  rw [started]
  have next : (Scene.mk { coordinator with site, round } [] client).world =
      ⟨coordinator.site.heap.takeUnswept.2.reclaim coordinator.site.heap.takeUnswept.1, [],
        []⟩ := by
    rw [Scene.world, Coordinator.slots, nobody, Scene.heap, heap]
    rfl
  have held := moved.symm.trans old
  have shift (answer : Except Fault Unit) : Shift ⟨coordinator, [], client⟩
      (.start coordinator.sweptAtStart answer) ⟨{ coordinator with site, round }, [], client⟩ := by
    refine .of_advanced rfl ?_ ⟨?_, fun page member => ?_⟩ (by simp [Act.isStart])
    · rw [pages, pages, next, before]
      exact .of_renewed (fun page member => (waiting page member).2) held new
    · rw [Act.sweeps, Coordinator.sweptAtStart, if_pos alone]
      have distinct := (held.map (·.id)).nodup_iff.mp whole.distinct
      exact distinct.sublist ((List.sublist_append_left _ _).map _)
    · rw [Act.sweeps, Coordinator.sweptAtStart, if_pos alone] at member
      rw [pages, pages, next, before]
      refine ⟨held.mem_iff.mpr (List.mem_append_left _ member), (waiting page member).2, ?_⟩
      exact new.mem_iff.mpr (List.mem_append_left _ (List.mem_map_of_mem member))
  refine ⟨rfl, (sound.shifted (shift (.ok ())) (by simp [Act.added]) ⟨?_, ?_⟩ ?_ ?_).1, shift⟩
  · exact sound.staffed.team
  · have none : dues coordinator.sweepers [] = .zero := by rw [nobody]; rfl
    constructor
    · rw [none, merged, BatchYield.plus_zero]
      exact (taken whole).2
    · simp [entries]
  · rw [next]
    exact nextSound
  · exact sound.halted

theorem startDealt (sound : (Scene.mk coordinator hands client).Sound)
    (running : coordinator.stopped = false) (rest : coordinator.inProgress = false)
    (some : 0 < coordinator.numThreads) :
    coordinator.start.1 = .ok () ∧
      (Scene.mk coordinator.start.2 hands client).Sound ∧
      ∀ answer, Shift ⟨coordinator, hands, client⟩ (.start coordinator.sweptAtStart answer)
        ⟨coordinator.start.2, hands, client⟩ := by
  obtain ⟨waiting, fits⟩ := taken sound.world
  obtain ⟨next, started, staffed, heap, stopped, flat, many⟩ :=
    sound.staffed.start running rest some fits
  rw [started]
  have idle := Coordinator.inProgress_false.mp rest
  have team := sound.staffed.team
  simp only [running] at team
  obtain ⟨noSlots, noHands, _⟩ := team.rest idle
  have empty : hands.flatMap Load.pages = [] := List.flatMap_eq_nil_iff.mpr noHands
  have cleared : coordinator.slots.flatten = [] := by
    rw [List.flatten_eq_nil_iff]
    intro slot member
    obtain ⟨sweeper, inside, rfl⟩ := List.mem_map.mp member
    exact noSlots sweeper inside
  have length : next.slots.length = hands.length := by
    rw [← sound.hands_length]
    simpa [Coordinator.slots, Coordinator.numThreads] using many
  have before := stowed_pages sound.hands_length
  have after := stowed_pages length
  simp only [cleared, empty, List.append_nil] at before
  rw [flat, empty, List.append_nil] at after
  obtain ⟨nextSound, moved⟩ := World.Sound.take sound.world (stowed next.slots hands)
    (fun load member => by
      rcases mem_stowed member with held | ⟨slot, inside, rfl⟩
      · exact sound.world.loads load (hand_mem_stowed sound.hands_length held)
      · refine Load.ofPages_sound fun page found => waiting page ?_
        have whole := List.mem_flatten_of_mem inside found
        rwa [flat] at whole)
    (by
      rw [before.eq_nil, List.append_nil]
      exact after)
  have world : (Scene.mk next hands client).world =
      ⟨coordinator.site.heap.takeUnswept.2, [], stowed next.slots hands⟩ := by
    rw [Scene.world, Scene.heap, heap]
  have shift (answer : Except Fault Unit) : Shift ⟨coordinator, hands, client⟩
      (.start coordinator.sweptAtStart answer) ⟨next, hands, client⟩ := by
    have idle : (Act.start coordinator.sweptAtStart answer).sweeps = [] := by
      rw [Act.sweeps, Coordinator.sweptAtStart, if_neg (by omega)]
    refine .of_idle rfl idle (.of_perm ?_) (by simp [Act.isStart])
    rw [pages, world]
    exact moved
  refine ⟨rfl, (sound.shifted (shift (.ok ())) (by simp [Act.added]) staffed ?_ ?_).1, shift⟩
  · rw [world]
    exact nextSound
  · intro busy
    have halted := sound.halted busy
    rw [running] at halted
    cases halted

theorem stop (sound : (Scene.mk coordinator hands .free).Sound) :
    (Scene.mk { coordinator with stopped := true } hands (.stopping 0 false)).Sound ∧
      Shift ⟨coordinator, hands, .free⟩ .stop
        ⟨{ coordinator with stopped := true }, hands, .stopping 0 false⟩ := by
  refine sound.shifted (.of_world rfl rfl rfl) (by simp [Act.added]) ⟨?_, ?_⟩ sound.world ?_
  · exact sound.staffed.team.stopped
  · exact sound.staffed.books
  · simp

theorem nudge {sweeper : Sweeper}
    (sound : (Scene.mk coordinator hands (.stopping before.length false)).Sound)
    (split : coordinator.sweepers = before ++ sweeper :: after) :
    (Scene.mk { coordinator with sweepers := before ++ sweeper.nudge :: after } hands
        (.stopping before.length true)).Sound ∧
      Shift ⟨coordinator, hands, .stopping before.length false⟩ (.nudge before.length)
        ⟨{ coordinator with sweepers := before ++ sweeper.nudge :: after }, hands,
          .stopping before.length true⟩ := by
  have halted : coordinator.stopped = true := sound.halted (by simp)
  obtain ⟨team, books⟩ := sound.staffed
  simp only [split, halted] at team books
  obtain ⟨early, load, late, rfl, same⟩ := team.find
  obtain ⟨_, shake, replace⟩ := team.middle same
  have world : (Scene.mk { coordinator with sweepers := before ++ sweeper.nudge :: after }
      (early ++ load :: late) (.stopping before.length true)).world =
      (Scene.mk coordinator (early ++ load :: late) (.stopping before.length false)).world := by
    simp [Scene.world, Scene.heap, Coordinator.slots, split, Sweeper.nudge]
  refine sound.shifted (.of_world world rfl rfl) (by simp [Act.added]) ⟨?_, ?_⟩ ?_ fun _ => halted
  · simp only [halted]
    exact replace _ _ rfl shake.nudge
  · dsimp only
    rw [dues_middle same] at books ⊢
    exact books
  · rw [world]
    exact sound.world

theorem join {sweeper joined : Sweeper} {left : Assignment}
    (sound : (Scene.mk coordinator hands (.stopping before.length true)).Sound)
    (split : coordinator.sweepers = before ++ sweeper :: after)
    (joins : sweeper.join? = some (left, joined)) :
    ∃ next, coordinator.settle before.length left joined = (.ok (), next) ∧
      (Scene.mk next hands (.stopping (before.length + 1) false)).Sound ∧
      Shift ⟨coordinator, hands, .stopping before.length true⟩ (.join before.length (.ok ()))
        ⟨next, hands, .stopping (before.length + 1) false⟩ := by
  have halted : coordinator.stopped = true := sound.halted (by simp)
  obtain ⟨next, settled, staffed, heap, stopped, sweepers, _⟩ :=
    sound.staffed.settle halted split joins
  obtain ⟨early, load, late, rfl, same⟩ := (split ▸ sound.staffed.team).find
  let front := stowed (before.map (·.assignment.pages)) early
  let back := stowed (after.map (·.assignment.pages)) late
  have old : (Scene.mk coordinator (early ++ load :: late) (.stopping before.length true)).world =
      ⟨coordinator.site.heap, [],
        front ++ .ofPages sweeper.assignment.pages :: load :: back⟩ := world_middle split same
  have new : (Scene.mk next (early ++ load :: late) (.stopping (before.length + 1) false)).world =
      ⟨coordinator.site.heap.restoreUnswept sweeper.assignment.pages, [],
        front ++ .ofPages [] :: load :: back⟩ := by
    rw [world_middle sweepers same, heap]
    rfl
  have whole := sound.world
  rw [old] at whole
  have waiting : ∀ page ∈ sweeper.assignment.pages, page.Sound ∧ page.swept = false :=
    (whole.loads (.ofPages sweeper.assignment.pages) (by simp)).waiting
  obtain ⟨nextSound, moved⟩ := World.Sound.restore whole (front ++ .ofPages [] :: load :: back)
    waiting
    (fun member inside => by
      simp only [List.mem_append, List.mem_cons] at inside
      rcases inside with inFront | rfl | rfl | inBack
      · exact whole.loads member (by simp [inFront])
      · exact Load.ofPages_sound (by simp)
      · exact whole.loads _ (by simp)
      · exact whole.loads member (by simp [inBack]))
    (by
      refine List.perm_iff_count.mpr fun page => ?_
      simp only [List.flatMap_append, List.flatMap_cons, Load.ofPages_pages, List.count_append,
        List.count_nil]
      omega)
  refine ⟨next, settled, sound.shifted (.of_idle rfl rfl (.of_perm ?_) fun _ kind => ?_)
    (by simp [Act.added]) staffed ?_ fun _ => stopped⟩
  · rw [pages, pages, new, old]
    exact moved
  · simp only [Scene.heap, heap, Heap.space_restoreUnswept, PagedSpace.restoreUnswept,
      List.map_append]
    exact List.subset_append_left _ _
  · rw [new]
    exact nextSound

theorem conclude {index : Nat} {nudged : Bool}
    (sound : (Scene.mk coordinator hands (.stopping index nudged)).Sound) :
    (Scene.mk coordinator.finalize.2 hands .free).Sound ∧
      Shift ⟨coordinator, hands, .stopping index nudged⟩ .conclude
        ⟨coordinator.finalize.2, hands, .free⟩ := by
  have keeps := sound.staffed.finalize
  have world : (Scene.mk coordinator.finalize.2 hands .free).world =
      (Scene.mk coordinator hands (.stopping index nudged)).world := by
    simp only [Scene.world, Scene.heap, keeps.heap, keeps.slots]
  refine sound.shifted (.of_world world rfl rfl) (by simp [Act.added]) keeps.staffed ?_ (by simp)
  rw [world]
  exact sound.world

end Sound

/-- An act in a sound scene does not fault, and the scene stays sound. -/
theorem Step.sound {scene next : Scene} {act : Act} (step : Step scene act next)
    (sound : scene.Sound) (young : ∀ page ∈ act.sweeps, page.sweeps + 1 < Word.halfLimit) :
    act.fault? = none ∧ next.Sound ∧ Shift scene act next := by
  cases step with
  | sweeper split same move =>
      obtain ⟨calm, _, kept⟩ := sound.sweeper split same move young
      exact ⟨calm, kept⟩
  | add page made small unused =>
      obtain ⟨heap, accepted, nextSound, shift⟩ := sound.add made small unused
      rw [accepted]
      exact ⟨rfl, nextSound, shift _⟩
  | edit edit waiting =>
      obtain ⟨calm, nextSound, shift⟩ := sound.edit edit waiting
      exact ⟨calm, nextSound, shift⟩
  | allocate kind request =>
      obtain ⟨answer, heap, answered, nextSound, shift⟩ := sound.allocate kind request
      rw [answered]
      exact ⟨rfl, nextSound, shift⟩
  | @start coordinator hands running rest =>
      by_cases alone : coordinator.numThreads = 0
      · rw [Act.sweeps, Coordinator.sweptAtStart, if_pos alone] at young
        obtain ⟨calm, nextSound, shift⟩ := sound.startHere running alone young
        rw [calm]
        exact ⟨rfl, nextSound, shift _⟩
      · obtain ⟨calm, nextSound, shift⟩ := sound.startDealt running rest (by omega)
        rw [calm]
        exact ⟨rfl, nextSound, shift _⟩
  | wait known waited =>
      obtain ⟨rfl, keeps⟩ := sound.staffed.await known waited
      exact ⟨rfl, sound.keeps keeps rfl rfl⟩
  | ensure waited =>
      obtain ⟨⟨report, rfl⟩, keeps⟩ := sound.staffed.ensure waited
      exact ⟨rfl, sound.keeps keeps rfl rfl⟩
  | prepare rest => exact ⟨rfl, sound.prepare⟩
  | stop running => exact ⟨rfl, sound.stop⟩
  | nudge split => exact ⟨rfl, sound.nudge split⟩
  | join split joins =>
      obtain ⟨next, settled, nextSound, shift⟩ := sound.join split joins
      rw [settled]
      exact ⟨rfl, nextSound, shift⟩
  | conclude => exact ⟨rfl, sound.conclude⟩

section Idle

variable (site : Site) (threads : Nat)

theorem idle_loads :
    ∀ load ∈ stowed (Coordinator.fresh site threads).slots (List.replicate threads (.ofPages [])),
      load = .ofPages [] := by
  intro load member
  rcases mem_stowed member with held | ⟨slot, inside, rfl⟩
  · exact (List.mem_replicate.mp held).2
  · obtain ⟨sweeper, known, rfl⟩ := List.mem_map.mp inside
    obtain ⟨index, _, rfl⟩ := List.mem_map.mp known
    rfl

theorem idle_pages :
    (Scene.mk (.fresh site threads) (List.replicate threads (.ofPages [])) .free).pages =
      site.heap.pages := by
  refine (congrArg _ (List.flatMap_eq_nil_iff.mpr fun load member => ?_)).trans (List.append_nil _)
  rw [idle_loads site threads load member]
  rfl

theorem idle_sound (whole : (World.mk site.heap [] []).Sound)
    (small : ∀ page ∈ site.heap.pages, page.id.number < Word.halfLimit) :
    (Scene.mk (.fresh site threads) (List.replicate threads (.ofPages [])) .free).Sound where
  staffed := by
    have team : Team false ((List.range threads).map Sweeper.fresh)
        (List.replicate threads (.ofPages [])) := Team.fresh threads
    have rest : ∀ sweeper ∈ (List.range threads).map Sweeper.fresh, sweeper.inFlight = false := by
      intro sweeper member
      obtain ⟨index, _, rfl⟩ := List.mem_map.mp member
      rfl
    refine ⟨team, ?_, by simp [Coordinator.fresh, RoundState.fresh]⟩
    have owed : dues (Coordinator.fresh site threads).sweepers
        (List.replicate threads (.ofPages [])) = .zero := (team.rest rest).2.2
    rw [owed]
    have room : 0 < Word.limit := by decide
    exact ⟨room, room, room⟩
  world := by
    have same : (Scene.mk (.fresh site threads) (List.replicate threads (.ofPages []))
        .free).world.pages.Perm (World.mk site.heap [] []).pages :=
      .of_eq ((idle_pages site threads).trans (List.append_nil _).symm)
    refine whole.moved same whole.heap (by simp [world]) fun load member => ?_
    rw [idle_loads site threads load member]
    exact Load.ofPages_sound (by simp)
  small := by
    rw [idle_pages]
    exact small
  halted := by simp

end Idle

end Scene

end Reclaim
