import Reclaim.Proofs.Heap.Swept
import Reclaim.Proofs.Scene.Refinement

/-! A whole round over a heap in good order, by any number of threads, none included. From any point of
it the round can be brought to an end, and whoever has waited for it finds the heap as if all unswept
pages had been swept in one go, up to the order of pages and blocks. -/

namespace Reclaim

namespace Scene

structure Round (coordinator : Coordinator) (acts : List Act) (scene : Scene) : Prop where
  run : Run (started coordinator) acts scene
  only : ∀ act ∈ acts, act.ofRound = true

structure Reaches (property : Heap → Prop) (coordinator : Coordinator) (acts : List Act)
    (scene : Scene) : Prop where
  calm : ∀ act ∈ acts, act.fault? = none
  ends : ∃ more last answer done, Round coordinator (acts ++ more) last ∧
    last.coordinator.ensure? = some (answer, done)
  result : ∀ answer done, scene.coordinator.ensure? = some (answer, done) →
    (∃ report, answer = .ok report) ∧ property done.site.heap ∧ done.Quiet

end Scene

/-- Whoever shares a round over the heap, and in whatever order they act, it ends with a heap that has
the property. -/
def Heap.RoundsTo (heap : Heap) (property : Heap → Prop) : Prop :=
  ∀ coordinator : Coordinator, coordinator.Quiet → coordinator.site.heap = heap →
    coordinator.start.1 = .ok () ∧ ∀ acts scene, Scene.Round coordinator acts scene →
      Scene.Reaches property coordinator acts scene

namespace Scene

variable {coordinator : Coordinator} {acts : List Act} {scene : Scene}

theorem Step.somebody {next : Scene} {act : Act} (step : Step scene act next)
    (round : act.ofRound = true) : 0 < scene.coordinator.numThreads := by
  cases step with
  | sweeper split =>
      rw [Coordinator.numThreads, split, List.length_append, List.length_cons]
      omega
  | wait known => exact Nat.zero_lt_of_lt known
  | _ => cases round

theorem Round.nobody (round : Round coordinator acts scene)
    (none : coordinator.start.2.numThreads = 0) : acts = [] ∧ scene = started coordinator := by
  obtain ⟨run, only⟩ := round
  induction run with
  | nil => exact ⟨rfl, rfl⟩
  | snoc _ step ih =>
      obtain ⟨before, here⟩ := List.forall_mem_append.mp only
      obtain ⟨_, rfl⟩ := ih before
      have some := step.somebody (here _ (by simp))
      exact absurd none (Nat.ne_of_gt some)

theorem Round.opens (coordinator : Coordinator) : Round coordinator [] (started coordinator) :=
  ⟨.nil, List.forall_mem_nil _⟩

/-- Every chore brings the round nearer to its end, so it can be brought there. -/
theorem Round.ends {base : Heap} {whole : List Page} {shares : List Nat}
    (round : Round coordinator acts scene) (ready : base.Ready whole)
    (ledger : Ledger base whole shares scene.coordinator scene.hands) :
    ∃ more last answer done, Round coordinator (acts ++ more) last ∧
      last.coordinator.ensure? = some (answer, done) := by
  generalize left : ranks scene.coordinator.sweepers scene.hands = rank
  induction rank using Nat.strongRecOn generalizing acts scene with
  | ind rank ih =>
      obtain ⟨middle, hands, client⟩ := scene
      rcases (ledger.staffed ready).progress ledger.running with
        ⟨before, sweeper, after, early, load, late, split, parted, place, chore, next, taken, later,
          move⟩ | ⟨answer, done, ended⟩
      · dsimp only at split parted move
        subst parted
        have step : Step ⟨middle, early ++ load :: late, client⟩ _ _ := .sweeper split place move
        obtain ⟨_, kept, nearer⟩ := step.ledger rfl ledger ready
        have counted : [Act.sweeper before.length chore].countP Act.isChore = 1 := rfl
        have here : ∀ act ∈ [Act.sweeper before.length chore], act.ofRound = true := by
          simp [Act.ofRound]
        obtain ⟨more, last, answer, done, whole, ended⟩ :=
          ih _ (by omega) ⟨round.run.snoc step, List.forall_mem_append.mpr ⟨round.only, here⟩⟩ kept rfl
        rw [List.append_assoc] at whole
        exact ⟨_, last, answer, done, whole, ended⟩
      · exact ⟨[], _, answer, done, by rwa [List.append_nil], ended⟩

end Scene

namespace Heap

variable {heap : Heap} {property other : Heap → Prop}

theorem RoundsTo.imp (rounds : heap.RoundsTo property) (implies : ∀ after, property after → other after) :
    heap.RoundsTo other := by
  intro coordinator quiet same
  obtain ⟨calm, reaches⟩ := rounds coordinator quiet same
  refine ⟨calm, fun acts scene round => ?_⟩
  obtain ⟨still, ends, result⟩ := reaches acts scene round
  refine ⟨still, ends, fun answer done waited => ?_⟩
  obtain ⟨reported, reached, rest⟩ := result answer done waited
  exact ⟨reported, implies _ reached, rest⟩

theorem rounds_here (ready : heap.takeUnswept.2.Ready heap.takeUnswept.1) {coordinator : Coordinator}
    (quiet : coordinator.Quiet) (same : coordinator.site.heap = heap)
    (none : coordinator.numThreads = 0) :
    coordinator.start.1 = .ok () ∧ ∀ acts scene, Scene.Round coordinator acts scene →
      Scene.Reaches (·.Alike heap.swept) coordinator acts scene := by
  subst same
  have swept := sweepPages_ok ready.sweepable ready.lists ready.totals
  obtain ⟨site, books, _, begun, reclaimed, closed, _⟩ :=
    Coordinator.start_here quiet.running none swept
  have nobody : coordinator.start.2.numThreads = 0 := by
    rw [begun]
    exact none
  have ended : coordinator.start.2.ensure? = some (.ok Option.none, coordinator.start.2) := by
    rw [Coordinator.ensure?_eq, nobody]
    simp only [List.range_zero, Coordinator.awaitEach?]
    rw [Coordinator.finalize_closed (by rw [begun]; exact closed)]
  refine ⟨by rw [begun], fun acts scene round => ?_⟩
  obtain ⟨rfl, rfl⟩ := round.nobody nobody
  refine ⟨List.forall_mem_nil _, ⟨[], _, _, _, round, ended⟩, fun answer done waited => ?_⟩
  obtain ⟨rfl, rfl⟩ := Prod.mk.inj (Option.some.inj (ended.symm.trans waited))
  rw [begun]
  refine ⟨⟨_, rfl⟩, ?_, quiet.running, quiet.indices, quiet.rest⟩
  rw [reclaimed]
  exact .refl _

theorem rounds_shared (ready : heap.takeUnswept.2.Ready heap.takeUnswept.1)
    {coordinator : Coordinator} (quiet : coordinator.Quiet) (same : coordinator.site.heap = heap)
    (some : 0 < coordinator.numThreads) :
    coordinator.start.1 = .ok () ∧ ∀ acts scene, Scene.Round coordinator acts scene →
      Scene.Reaches (·.Alike heap.swept) coordinator acts scene := by
  subst same
  obtain ⟨calm, ledger, _, _⟩ := quiet.start some
  refine ⟨calm, fun acts scene round => ?_⟩
  obtain ⟨still, kept, _⟩ := round.run.ledger round.only ledger ready
  refine ⟨still, round.ends ready kept, fun answer done waited => ?_⟩
  obtain ⟨report, found, _, _, _, _, alike, team, runs, _, rest⟩ := kept.ensure ready waited
  exact ⟨⟨_, found⟩, alike, .of_team runs team rest⟩

/-- A round sweeps the heap as one party would, up to the order of pages and blocks. -/
theorem rounds_to_swept (ready : heap.takeUnswept.2.Ready heap.takeUnswept.1) :
    heap.RoundsTo (·.Alike heap.swept) := by
  intro coordinator quiet same
  rcases Nat.eq_zero_or_pos coordinator.numThreads with none | some
  · exact rounds_here ready quiet same none
  · exact rounds_shared ready quiet same some

end Heap

end Reclaim
