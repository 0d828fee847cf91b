import Reclaim.Proofs.Coordinator.Tally
import Reclaim.Proofs.Scene.Custody

/-! A round from its start on. What each sweeper was dealt is in its slot when the round opens; from
then on the pages that it has swept are those of its acts, until the client stops the sweepers. -/

namespace Reclaim

def Act.sweepsOf (index : Nat) : Act → List Page
  | .sweeper other chore => if other = index then chore.sweeps else []
  | _ => []

def sweptBy (acts : List Act) (index : Nat) : List Page := acts.flatMap (Act.sweepsOf index)

theorem sweptBy_append (acts more : List Act) :
    sweptBy (acts ++ more) = fun index => sweptBy acts index ++ sweptBy more index := by
  funext index
  exact List.flatMap_append

theorem sweptBy_snoc (acts : List Act) (act : Act) :
    sweptBy (acts ++ [act]) = fun index => sweptBy acts index ++ act.sweepsOf index := by
  funext index
  simp [sweptBy]

namespace Scene

inductive Opening (id : HeapId) (threads : Nat) : List Act → List Page → Scene → Prop
  | fresh : Opening id threads [] [] (.fresh id threads)
  | start {acts : List Act} {scene opening : Scene} {here : List Page} {answer : Except Fault Unit}
      (run : Run (.fresh id threads) acts scene) (young : ∀ act ∈ acts, act.Young)
      (step : Step scene (.start here answer) opening) (early : (Act.start here answer).Young) :
      Opening id threads [.start here answer] scene.heap.takeUnswept.1 opening

theorem Step.hands_length {scene next : Scene} {act : Act} (step : Step scene act next) :
    next.hands.length = scene.hands.length := by
  cases step with
  | sweeper _ _ _ => simp
  | _ => rfl

theorem Run.hands_length {first last : Scene} {acts : List Act} (run : Run first acts last) :
    last.hands.length = first.hands.length :=
  run.keeps (·.hands.length = first.hands.length) rfl fun step kept => step.hands_length.trans kept

theorem Sound.numThreads {scene : Scene} (sound : scene.Sound) :
    scene.coordinator.numThreads = scene.hands.length := by
  rw [← sound.hands_length, Coordinator.slots, List.length_map]
  rfl

structure Opened (threads : Nat) (opened : List Act) (whole : List Page) (opening : Scene) :
    Prop where
  sound : opening.Sound
  hands : opening.hands.length = threads
  tally : Tally whole opening.coordinator.slot (sweptBy opened) (fun _ => []) opening.coordinator
    opening.hands
  parts : whole =
    opened.flatMap Act.sweeps ++ (List.range threads).flatMap opening.coordinator.slot
  swept : ∀ page ∈ opened.flatMap Act.sweeps, page.renewed ∈ opening.pages
  nobody : sweptBy opened = fun _ => []
  cycle : ∀ act ∈ opened, act.isPrepare = false
  names : (whole.map (·.id)).Nodup
  owned : whole.map Page.owner ⊆ opening.pages.map Page.owner

theorem Sound.taken_names {scene : Scene} (sound : scene.Sound) :
    (scene.heap.takeUnswept.1.map (·.id)).Nodup ∧ scene.heap.takeUnswept.1 ⊆ scene.pages := by
  have parted := sound.world.heap.takeUnswept.2.1
  have distinct := sound.world.distinct
  rw [World.pages, List.map_append, List.nodup_append] at distinct
  have names := (parted.map (·.id)).nodup_iff.mp distinct.1
  rw [List.map_append, List.nodup_append] at names
  exact ⟨names.1, fun page member =>
    List.mem_append_left _ (parted.mem_iff.mpr (List.mem_append_left _ member))⟩

/-- Without sweepers the start has swept the pages, and with sweepers it has dealt them out. -/
theorem Sound.opening {coordinator : Coordinator} {hands : List Load}
    (sound : (Scene.mk coordinator hands .free).Sound) (running : coordinator.stopped = false)
    (rest : coordinator.inProgress = false)
    (young : ∀ page ∈ coordinator.sweptAtStart, page.sweeps + 1 < Word.halfLimit) :
    Tally coordinator.site.heap.takeUnswept.1 coordinator.start.2.slot (fun _ => []) (fun _ => [])
        coordinator.start.2 hands ∧
      coordinator.site.heap.takeUnswept.1 = coordinator.sweptAtStart ++
        (List.range coordinator.start.2.numThreads).flatMap coordinator.start.2.slot := by
  unfold Coordinator.sweptAtStart at young ⊢
  by_cases alone : coordinator.numThreads = 0
  · rw [if_pos alone] at young ⊢
    obtain ⟨nobody, rfl, _, loaded, _⟩ := sound.unstaffed alone
    obtain ⟨swept, _⟩ := loaded.sweepPages young
    obtain ⟨site, round, report, started, _, closed, _, _, merged, _⟩ :=
      Coordinator.start_here running alone swept
    rw [started]
    refine ⟨Coordinator.tally_opening nofun ?_ ?_, ?_⟩
    · rw [nobody, merged]
      exact BatchYield.plus_zero _
    · exact fun pending => nomatch closed.symm.trans pending
    · rw [show Coordinator.numThreads { coordinator with site, round } = 0 from alone]
      exact (List.append_nil _).symm
  · rw [if_neg alone]
    obtain ⟨tally, flat⟩ := sound.staffed.tally running rest (Nat.pos_of_ne_zero alone)
    refine ⟨tally, ?_⟩
    rw [← flat, List.nil_append, Coordinator.slots, ← List.flatMap_def]
    exact (range_flatMap _ _).symm

theorem Opening.opened {id : HeapId} {threads : Nat} {opened : List Act} {whole : List Page}
    {opening : Scene} (begun : Opening id threads opened whole opening) :
    Opened threads opened whole opening := by
  cases begun with
  | fresh =>
      refine ⟨fresh_sound id threads, List.length_replicate, Coordinator.tally_fresh _ threads, ?_,
        nofun, rfl, nofun, List.nodup_nil, List.nil_subset _⟩
      refine (List.flatMap_eq_nil_iff.mpr fun index member => ?_).symm
      have known := List.mem_range.mp member
      simp [Coordinator.slot, Scene.fresh, Coordinator.fresh, known, Sweeper.fresh, Assignment.none]
  | @start acts scene _ here answer run young step early =>
      have sound := (run.sound (fresh_sound id threads) young).2
      obtain ⟨_, openSound, shift⟩ := step.sound sound early
      have hands : opening.hands.length = threads := by
        rw [step.hands_length, run.hands_length]
        exact List.length_replicate
      have none : sweptBy [Act.start here answer] = fun _ => [] := rfl
      have all : [Act.start here answer].flatMap Act.sweeps = here := List.append_nil here
      have numbered := openSound.numThreads
      rw [hands] at numbered
      obtain ⟨names, held⟩ := sound.taken_names
      have owned := List.Subset.trans (List.map_subset Page.owner held) shift.owners.symm.subset
      cases step with
      | start running rest =>
          obtain ⟨tally, parts⟩ := sound.opening running rest early
          refine ⟨openSound, hands, ?_, ?_, ?_, none, by simp [Act.isPrepare], names, owned⟩
          · rw [none]
            exact tally
          · rw [all, ← numbered]
            exact parts
          · rw [all]
            exact fun page member => (shift.sweeps.2 page member).2.2

theorem Step.running {scene next : Scene} {act : Act} (step : Step scene act next)
    (sound : scene.Sound) (young : act.Young) (running : next.coordinator.stopped = false) :
    scene.coordinator.stopped = false := by
  have nextSound := (step.sound sound young).2.1
  cases step with
  | sweeper _ _ _ => exact running
  | add _ _ _ _ => exact running
  | edit _ _ => exact running
  | allocate _ _ => exact running
  | start begun _ => exact begun
  | wait known waited => exact (sound.staffed.await known waited).2.stopped.symm.trans running
  | ensure waited => exact (sound.staffed.ensure waited).2.stopped.symm.trans running
  | prepare _ => exact running
  | stop begun => exact begun
  | nudge _ => exact running
  | join _ _ => exact nomatch (nextSound.halted nofun).symm.trans running
  | conclude => exact sound.staffed.finalize.stopped.symm.trans running

variable {whole : List Page} {part done : Nat → List Page}

theorem Step.tally {scene next : Scene} {act : Act} (step : Step scene act next)
    (sound : scene.Sound) (young : act.Young) (running : next.coordinator.stopped = false)
    (quiet : act.isStart = false)
    (tally : Tally whole part done (fun _ => []) scene.coordinator scene.hands) :
    Tally whole part (fun index => done index ++ act.sweepsOf index) (fun _ => []) next.coordinator
      next.hands := by
  have begun := step.running sound young running
  obtain ⟨calm, _⟩ := step.sound sound young
  have none {other : Coordinator} {hands : List Load}
      (kept : Tally whole part done (fun _ => []) other hands) :
      Tally whole part (fun index => done index ++ []) (fun _ => []) other hands := by
    simpa only [List.append_nil] using kept
  cases step with
  | sweeper split same move =>
      obtain ⟨shake, regular⟩ := sound.at_sweeper split same
      exact tally.move split same move calm young shake regular
  | start _ _ => cases quiet
  | wait known waited => exact none (tally.await sound.staffed known waited)
  | ensure waited => exact none (tally.ensure sound.staffed waited)
  | stop _ => cases running
  | nudge _ => exact nomatch (sound.halted nofun).symm.trans begun
  | join _ _ => exact nomatch (sound.halted nofun).symm.trans begun
  | conclude => exact nomatch (sound.halted nofun).symm.trans begun
  | _ => exact none (tally.of_same rfl rfl)

/-- Until the client stops the sweepers, every page of the round is with the sweeper that it was dealt
to, or has been swept by it. -/
theorem Run.tally {first last : Scene} {opened acts : List Act} (run : Run first acts last)
    (firstSound : first.Sound) (young : ∀ act ∈ acts, act.Young)
    (quiet : ∀ act ∈ acts, act.isStart = false) (running : last.coordinator.stopped = false)
    (tally : Tally whole part (sweptBy opened) (fun _ => []) first.coordinator first.hands) :
    Tally whole part (sweptBy (opened ++ acts)) (fun _ => []) last.coordinator last.hands := by
  induction run with
  | nil =>
      rw [List.append_nil]
      exact tally
  | snoc earlier step ih =>
      obtain ⟨before, here⟩ := List.forall_mem_append.mp young
      obtain ⟨still, last⟩ := List.forall_mem_append.mp quiet
      have sound := (Run.sound earlier firstSound before).2
      have kept := ih before still (step.running sound (here _ (by simp)) running)
      rw [← List.append_assoc, sweptBy_snoc]
      exact step.tally sound (here _ (by simp)) running (last _ (by simp)) kept

theorem Step.sweeps_eq {scene next : Scene} {act : Act} (step : Step scene act next)
    (quiet : act.isStart = false) :
    act.sweeps = (List.range scene.hands.length).flatMap act.sweepsOf := by
  have none {hands : List Load} :
      (List.range hands.length).flatMap (fun _ => ([] : List Page)) = [] :=
    List.flatMap_eq_nil_iff.mpr fun _ _ => rfl
  cases step with
  | @sweeper _ before _ _ _ early late load _ _ _ chore split same move =>
      have known : before.length < (early ++ load :: late).length := by simp [same]
      have given := @Tally.flatMap_given (fun _ => []) _ _ known (fun _ _ => rfl) chore.sweeps
      rw [none, List.nil_append] at given
      simp only [Act.sweeps, Act.sweepsOf, @eq_comm _ before.length]
      exact given.symm
  | start _ _ => cases quiet
  | _ => exact none.symm

theorem Run.sweeps_perm {first last : Scene} {acts : List Act} (run : Run first acts last)
    (quiet : ∀ act ∈ acts, act.isStart = false) :
    (acts.flatMap Act.sweeps).Perm ((List.range first.hands.length).flatMap (sweptBy acts)) := by
  induction run with
  | nil => simp [sweptBy]
  | @snoc acts act scene next earlier step ih =>
      obtain ⟨before, here⟩ := List.forall_mem_append.mp quiet
      rw [List.flatMap_append, List.flatMap_singleton, sweptBy_snoc,
        step.sweeps_eq (here act (by simp)), Run.hands_length earlier]
      exact ((ih before).append_right _).trans (List.flatMap_append_perm _ _ _)

theorem Run.running {first last : Scene} {acts : List Act} (run : Run first acts last)
    (sound : first.Sound) (young : ∀ act ∈ acts, act.Young)
    (running : last.coordinator.stopped = false) : first.coordinator.stopped = false := by
  induction run with
  | nil => exact running
  | snoc earlier step ih =>
      obtain ⟨before, here⟩ := List.forall_mem_append.mp young
      exact ih before (step.running (Run.sound earlier sound before).2 (here _ (by simp)) running)

end Scene

end Reclaim
