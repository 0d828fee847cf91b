import Mathlib.Data.List.Pairwise
import Reclaim.Proofs.Scene.Sound

/-! Custody of the pages: in every scene that a run reaches, each page that was added is in exactly
one place, with its own space, and no page is swept twice in one cycle. -/

namespace Reclaim

namespace Scene

theorem fresh_pages (id : HeapId) (threads : Nat) : (fresh id threads).pages = [] :=
  idle_pages (.fresh id) threads

theorem fresh_sound (id : HeapId) (threads : Nat) : (fresh id threads).Sound :=
  idle_sound (.fresh id) threads (History.fresh id).1 nofun

namespace Run

variable {first middle last scene : Scene} {acts early late : List Act} {act : Act}

theorem sound (run : Run first acts last) (firstSound : first.Sound)
    (young : ∀ act ∈ acts, act.Young) :
    (∀ act ∈ acts, act.fault? = none) ∧ last.Sound := by
  refine run.keeps_while Sound firstSound young fun step young sound => ?_
  obtain ⟨calm, nextSound, _⟩ := step.sound sound young
  exact ⟨calm, nextSound⟩

theorem owners (run : Run first acts last) (firstSound : first.Sound)
    (young : ∀ act ∈ acts, act.Young) :
    (last.pages.map Page.owner).Perm
      ((acts.flatMap Act.added ++ first.pages).map Page.owner) := by
  induction run with
  | nil => exact List.Perm.refl _
  | @snoc acts act scene next earlier step ih =>
      obtain ⟨before, here⟩ := List.forall_mem_append.mp young
      have owners := ih before
      have grown := (step.sound (sound earlier firstSound before).2 (here act (by simp))).2.2.owners
      refine List.perm_iff_count.mpr fun owner => ?_
      have counted := List.perm_iff_count.mp owners owner
      have more := List.perm_iff_count.mp grown owner
      simp only [List.flatMap_append, List.flatMap_cons, List.flatMap_nil, List.map_append,
        List.append_nil, List.count_append] at counted more ⊢
      omega

theorem follows (run : Run first acts last) (firstSound : first.Sound)
    (young : ∀ act ∈ acts, act.Young)
    (cycle : ∀ act ∈ acts, act.isPrepare = false) {page : Page} (member : page ∈ first.pages) :
    ∃ later ∈ last.pages, page.Followed later := by
  induction run with
  | nil => exact ⟨page, member, .refl page⟩
  | @snoc acts act scene next earlier step ih =>
      obtain ⟨before, here⟩ := List.forall_mem_append.mp young
      obtain ⟨same, still⟩ := List.forall_mem_append.mp cycle
      obtain ⟨later, inside, followed⟩ := ih before same
      have moved := (step.sound (sound earlier firstSound before).2 (here act (by simp))).2.2
      obtain ⟨last, found, again⟩ := moved.follows (still act (by simp)) later inside
      exact ⟨last, found, followed.trans again⟩

theorem waiting (run : Run first acts last) (firstSound : first.Sound)
    (young : ∀ act ∈ acts, act.Young)
    (quiet : ∀ act ∈ acts, act.isStart = false) (kind : SpaceKind) :
    (first.heap.space kind).unswept.map (·.id) ⊆ (last.heap.space kind).unswept.map (·.id) := by
  induction run with
  | nil => exact List.Subset.refl _
  | @snoc acts act scene next earlier step ih =>
      obtain ⟨before, here⟩ := List.forall_mem_append.mp young
      obtain ⟨same, still⟩ := List.forall_mem_append.mp quiet
      have moved := (step.sound (sound earlier firstSound before).2 (here act (by simp))).2.2
      exact List.Subset.trans (ih before same) (moved.waiting (still act (by simp)) kind)

end Run

namespace Sound

variable {scene : Scene}

theorem places_nodup (sound : scene.Sound) :
    ((scene.places.flatMap scene.pagesAt).map (·.id)).Nodup :=
  ((places_perm sound.hands_length).map _).nodup_iff.mpr sound.world.distinct

theorem alone (sound : scene.Sound) (place : Place) :
    ((scene.pagesAt place).map (·.id)).Nodup := by
  have distinct := sound.places_nodup
  rw [List.map_flatMap, List.nodup_flatMap] at distinct
  by_cases known : place ∈ scene.places
  · exact distinct.1 place known
  · have empty : scene.pagesAt place = [] :=
      List.eq_nil_iff_forall_not_mem.mpr fun page member => known (mem_places member)
    rw [empty]
    exact List.nodup_nil

theorem place_unique (sound : scene.Sound) {place other : Place} {page same : Page}
    (here : page ∈ scene.pagesAt place) (there : same ∈ scene.pagesAt other)
    (equal : same.id = page.id) : other = place := by
  have distinct := sound.places_nodup
  rw [List.map_flatMap, List.nodup_flatMap] at distinct
  by_contra apart
  have symmetric : Std.Symm (Function.onFun List.Disjoint fun place =>
      (scene.pagesAt place).map (·.id)) := ⟨fun _ _ away _ left right => away right left⟩
  have disjoint := distinct.2.forall (mem_places there) (mem_places here) apart
  refine disjoint (List.mem_map_of_mem there) ?_
  rw [equal]
  exact List.mem_map_of_mem here

theorem page_unique (sound : scene.Sound) {page same : Page} (member : page ∈ scene.pages)
    (other : same ∈ scene.pages) (equal : same.id = page.id) : same = page :=
  List.inj_on_of_nodup_map sound.world.distinct other member equal

theorem kinds (sound : scene.Sound) {kind : SpaceKind} {page : Page}
    (member : page ∈ scene.pagesAt (.unswept kind) ∨ page ∈ scene.pagesAt (.swept kind)) :
    page.space = kind := by
  have own := (sound.world.heap.space kind).own
  have same := sound.world.heap.kind kind
  rcases member with unswept | swept
  · exact (own page (List.mem_append_left _ unswept)).trans same
  · exact (own page (List.mem_append_right _ swept)).trans same

end Sound

structure Custody (acts : List Act) (scene : Scene) : Prop where
  calm : ∀ act ∈ acts, act.fault? = none
  names : ((acts.flatMap Act.added).map (·.id)).Nodup
  one : ∀ page ∈ acts.flatMap Act.added,
    ∃! place, ∃ held ∈ scene.pagesAt place, held.id = page.id
  alone : ∀ place, ((scene.pagesAt place).map (·.id)).Nodup
  owned : ∀ place, ∀ held ∈ scene.pagesAt place,
    ∃ page ∈ acts.flatMap Act.added, held.id = page.id ∧ held.space = page.space
  kinds : ∀ kind, ∀ held,
    held ∈ scene.pagesAt (.unswept kind) ∨ held ∈ scene.pagesAt (.swept kind) → held.space = kind
  waits : ∀ early page answer late, acts = early ++ .add page answer :: late →
    (∀ act ∈ late, act.isStart = false) →
    ∃ held ∈ scene.pagesAt (.unswept page.space), held.id = page.id
  once : ∀ early first middle second late, acts = early ++ first :: (middle ++ second :: late) →
    (∀ act ∈ middle, act.isPrepare = false) →
    ∀ page ∈ first.sweeps, ∀ other ∈ second.sweeps, other.id ≠ page.id
  single : ∀ act ∈ acts, (act.sweeps.map (·.id)).Nodup

namespace Run

variable {id : HeapId} {threads : Nat} {scene : Scene} {acts : List Act}

theorem waits {first : Scene} {early late : List Act} {page : Page} {answer : Except Fault Unit}
    (run : Run first (early ++ .add page answer :: late) scene) (firstSound : first.Sound)
    (young : ∀ act ∈ early ++ .add page answer :: late, act.Young)
    (quiet : ∀ act ∈ late, act.isStart = false) :
    ∃ held ∈ scene.pagesAt (.unswept page.space), held.id = page.id := by
  obtain ⟨before, after, start, step, rest⟩ := run.at_event
  obtain ⟨calm, later⟩ := List.forall_mem_append.mp young
  obtain ⟨here, calmLater⟩ := List.forall_mem_cons.mp later
  obtain ⟨_, afterSound, shift⟩ := step.sound (Run.sound start firstSound calm).2 here
  have arrived := shift.arrives page (by simp [Act.added])
  have kept := Run.waiting rest afterSound calmLater quiet page.space (List.mem_map_of_mem arrived)
  obtain ⟨held, member, same⟩ := List.mem_map.mp kept
  exact ⟨held, member, same⟩

theorem once {start : Scene} {early middle late : List Act} {first second : Act}
    (run : Run start (early ++ first :: (middle ++ second :: late)) scene)
    (startSound : start.Sound)
    (young : ∀ act ∈ early ++ first :: (middle ++ second :: late), act.Young)
    (cycle : ∀ act ∈ middle, act.isPrepare = false) {page other : Page}
    (swept : page ∈ first.sweeps) (again : other ∈ second.sweeps) : other.id ≠ page.id := by
  intro same
  obtain ⟨before, after, begun, step, rest⟩ := run.at_event
  obtain ⟨calm, later⟩ := List.forall_mem_append.mp young
  obtain ⟨here, calmLater⟩ := List.forall_mem_cons.mp later
  obtain ⟨calmMiddle, calmEnd⟩ := List.forall_mem_append.mp calmLater
  obtain ⟨_, afterSound, moved⟩ := step.sound (Run.sound begun startSound calm).2 here
  obtain ⟨_, _, renewed⟩ := moved.sweeps.2 page swept
  obtain ⟨last, final, between, second, _⟩ := rest.at_event
  obtain ⟨later, inside, followed⟩ := Run.follows between afterSound calmMiddle cycle renewed
  have lastSound := (Run.sound between afterSound calmMiddle).2
  obtain ⟨_, _, turned⟩ := second.sound lastSound (calmEnd _ (by simp))
  obtain ⟨found, unswept, _⟩ := turned.sweeps.2 other again
  have name : later.id = page.id := congrArg Prod.fst followed.owner
  have equal := lastSound.page_unique inside found (same.trans name.symm)
  -- The page of the second sweep is the one that the first sweep flagged.
  have done := followed.swept (Page.renewed_swept page)
  rw [← equal, unswept] at done
  cases done

/-- Each page that was added is in exactly one place at any time and in no wrong space, and between
two beginnings of a cycle it is swept once at most. No sweep count may run out of its word. -/
theorem custody (run : Run (.fresh id threads) acts scene) (young : ∀ act ∈ acts, act.Young) :
    Custody acts scene := by
  have firstSound := fresh_sound id threads
  obtain ⟨calm, sound⟩ := run.sound firstSound young
  have owners := run.owners firstSound young
  rw [fresh_pages, List.append_nil] at owners
  have length := sound.hands_length
  constructor
  · exact calm
  · have names := owners.map Prod.fst
    rw [List.map_map, List.map_map] at names
    exact names.nodup_iff.mp sound.world.distinct
  · intro page member
    obtain ⟨held, inside, same⟩ :=
      List.mem_map.mp (owners.mem_iff.mpr (List.mem_map_of_mem member))
    have name : held.id = page.id := congrArg Prod.fst same
    obtain ⟨place, here⟩ := (mem_pages length).mp inside
    refine ⟨place, ⟨held, here, name⟩, ?_⟩
    rintro other ⟨twin, there, equal⟩
    exact sound.place_unique here there (equal.trans name.symm)
  · exact sound.alone
  · intro place held here
    have inside := (mem_pages length).mpr ⟨place, here⟩
    obtain ⟨page, member, same⟩ :=
      List.mem_map.mp (owners.mem_iff.mp (List.mem_map_of_mem inside))
    exact ⟨page, member, (congrArg Prod.fst same).symm, (congrArg Prod.snd same).symm⟩
  · intro kind held member
    exact sound.kinds member
  · rintro early page answer late rfl quiet
    exact run.waits firstSound young quiet
  · rintro early first middle second late rfl cycle page swept other again
    exact run.once firstSound young cycle swept again
  · intro act member
    obtain ⟨early, late, rfl⟩ := List.append_of_mem member
    obtain ⟨before, after, start, step, _⟩ := run.at_event
    have calmBefore := (List.forall_mem_append.mp young).1
    exact (step.sound (Run.sound start firstSound calmBefore).2 (young act member)).2.2.sweeps.1

end Run

/-! A short run. -/

theorem unused_of_places {scene : Scene} {id : PageId}
    (unused : ∀ other ∈ scene.places.flatMap scene.pagesAt, other.id ≠ id) (place : Place) :
    ∀ other ∈ scene.pagesAt place, other.id ≠ id := fun other member =>
  unused other (List.mem_flatMap.mpr ⟨place, mem_places member, member⟩)

def samplePages : Page × Page := (.fresh ⟨0⟩ .data, .fresh ⟨1⟩ .pointer)

def sampleActs : List Act :=
  -- A page is added and dealt out; while it is swept another one is added.
  [.add samplePages.1 (.ok ()), .start [] (.ok ()), .sweeper 0 .wake, .sweeper 0 .heed,
    .sweeper 0 .take, .add samplePages.2 (.ok ()), .sweeper 0 (.sweep samplePages.1 (.ok ())),
    .sweeper 0 (.publish .data (.ok ())), .sweeper 0 .conclude, .sweeper 0 .leave,
    .sweeper 0 .signal, .wait 0 (.ok ()), .prepare]

theorem sample_run : ∃ scene, Run (fresh ⟨0⟩ 1) sampleActs scene := by
  have added : Run (fresh ⟨0⟩ 1) _ _ :=
    .snoc .nil (.add samplePages.1 (.fresh _ _) (by decide) (unused_of_places (by decide)))
  have started : Run (fresh ⟨0⟩ 1) _ _ := .snoc added (.start rfl rfl)
  have woken : Run (fresh ⟨0⟩ 1) _ _ := .snoc started (.alone rfl (.wake rfl))
  have heeded : Run (fresh ⟨0⟩ 1) _ _ := .snoc woken (.alone rfl (.heed rfl))
  have taken : Run (fresh ⟨0⟩ 1) _ _ := .snoc heeded (.alone rfl (.take rfl))
  have more : Run (fresh ⟨0⟩ 1) _ _ :=
    .snoc taken (.add samplePages.2 (.fresh _ _) (by decide) (unused_of_places (by decide)))
  have swept : Run (fresh ⟨0⟩ 1) _ _ := .snoc more (.alone rfl (.sweep rfl rfl))
  have published : Run (fresh ⟨0⟩ 1) _ _ :=
    .snoc swept (.alone rfl (.publish .data rfl rfl (by decide)))
  have concluded : Run (fresh ⟨0⟩ 1) _ _ := .snoc published (.alone rfl (.conclude rfl rfl))
  have left : Run (fresh ⟨0⟩ 1) _ _ := .snoc concluded (.alone rfl (.leave rfl))
  have signalled : Run (fresh ⟨0⟩ 1) _ _ := .snoc left (.alone rfl (.signal rfl))
  have waited : Run (fresh ⟨0⟩ 1) _ _ := .snoc signalled (@Step.wait _ _ _ 0 _ (by decide) rfl)
  have prepared : Run (fresh ⟨0⟩ 1) _ _ := .snoc waited (.prepare rfl)
  exact ⟨_, prepared⟩

theorem sampleActs_custody :
    ∃ scene, Run (fresh ⟨0⟩ 1) sampleActs scene ∧ (∀ act ∈ sampleActs, act.Young) ∧
      Custody sampleActs scene := by
  obtain ⟨scene, run⟩ := sample_run
  have young : ∀ act ∈ sampleActs, act.Young := by
    simp [sampleActs, samplePages, Act.Young, Act.sweeps, Chore.sweeps, Page.fresh, Word.halfLimit]
  exact ⟨scene, run, young, run.custody young⟩

end Scene

end Reclaim
