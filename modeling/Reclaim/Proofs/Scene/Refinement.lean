import Reclaim.Proofs.Coordinator.Ledger
import Reclaim.Proofs.Scene.Basic

/-! A round that sweepers share and the same round swept by one thread. Whatever the order in which
the sweepers take, sweep and publish their batches, and whenever somebody waits for them, the round
ends, with the same report and the same heap up to the order of pages and blocks. -/

namespace Reclaim

structure Sweeper.AtRest (sweeper : Sweeper) : Prop where
  phase : sweeper.phase = .idle
  begun : sweeper.begun.permits = 0
  ended : sweeper.ended.permits = 0
  stopped : sweeper.stopped.permits = 0
  slot : sweeper.assignment.pages = []
  outcome : sweeper.outcome = none
  flight : sweeper.inFlight = false

structure Coordinator.Quiet (coordinator : Coordinator) : Prop where
  running : coordinator.stopped = false
  indices : coordinator.sweepers.map (·.index) = List.range coordinator.numThreads
  rest : ∀ sweeper ∈ coordinator.sweepers, sweeper.AtRest

theorem Sweeper.AtRest.handshake {sweeper : Sweeper} (rest : sweeper.AtRest) :
    Handshake false sweeper (.ofPages []) := by
  obtain ⟨phase, begun, ended, stopped, slot, outcome, flight⟩ := rest
  constructor <;> simp_all [SweeperPhase.past, SweeperPhase.busy, SweeperPhase.token,
    Load.ofPages_pages]

namespace Coordinator

variable {coordinator : Coordinator}

theorem fresh_quiet (site : Site) (threads : Nat) : (fresh site threads).Quiet where
  running := rfl
  indices := by
    rw [fresh, numThreads, List.map_map, List.length_map, List.length_range]
    exact List.map_id _
  rest := by
    intro sweeper member
    obtain ⟨index, _, rfl⟩ := List.mem_map.mp member
    exact ⟨rfl, rfl, rfl, rfl, rfl, rfl, rfl⟩

theorem Quiet.team (quiet : coordinator.Quiet) :
    Team false coordinator.sweepers (List.replicate coordinator.numThreads (.ofPages [])) where
  indices := quiet.indices
  shakes := by
    have rest := quiet.rest
    clear quiet
    unfold numThreads
    generalize coordinator.sweepers = sweepers at rest
    induction sweepers with
    | nil => exact List.Forall₂.nil
    | cons sweeper sweepers ih =>
        exact List.Forall₂.cons (rest sweeper (by simp)).handshake
          (ih fun other member => rest other (by simp [member]))

theorem Quiet.of_team {hands : List Load} (running : coordinator.stopped = false)
    (team : Team false coordinator.sweepers hands)
    (rest : ∀ sweeper ∈ coordinator.sweepers, sweeper.inFlight = false) : coordinator.Quiet where
  running := running
  indices := team.indices
  rest := by
    intro sweeper member
    obtain ⟨before, after, split⟩ := List.append_of_mem member
    rw [split] at team
    obtain ⟨early, load, late, parted, same⟩ := team.find
    subst parted
    have shake := (team.middle same).2.1
    have idle := rest sweeper member
    obtain ⟨phase, begun, ended, outcome, slot⟩ := shake.rest idle
    refine ⟨phase, begun, ended, ?_, slot, outcome, idle⟩
    by_contra posted
    have exited := shake.acknowledged (by omega)
    rw [phase] at exited
    cases exited

end Coordinator

/-! The start of a round. -/

theorem zipWith_replicate_right {α β γ : Type} (combine : α → β → γ) (items : List α) (other : β) :
    List.zipWith combine items (List.replicate items.length other) = items.map (combine · other) := by
  induction items with
  | nil => rfl
  | cons item items ih =>
      rw [List.length_cons, List.replicate_succ, List.zipWith_cons_cons, List.map_cons, ih]

structure Sweeper.Fed (sweeper : Sweeper) : Prop where
  phase : sweeper.phase = .idle
  begun : sweeper.begun.permits = 1
  outcome : sweeper.outcome = none

namespace Sweeper.Fed

variable {sweeper : Sweeper}

theorem due (fed : sweeper.Fed) : sweeper.due (.ofPages []) = harvest sweeper.assignment.pages := by
  simp only [Sweeper.due, fed.phase, fed.outcome, Option.getD_none, BatchYield.plus_zero]

theorem rank (fed : sweeper.Fed) :
    sweeper.rank (.ofPages []) = 6 + 2 * sweeper.assignment.pages.length := by
  simp only [Sweeper.rank, fed.phase, fed.begun]
  rfl

end Sweeper.Fed

section Fed

variable {sweepers : List Sweeper} {parts : List (List Page)}

theorem aheads_fed (slots : sweepers.map (·.assignment.pages) = parts) :
    aheads sweepers (List.replicate sweepers.length (.ofPages [])) = parts.flatten := by
  rw [aheads_slots _ (by simp), slots]
  intro load member
  rw [(List.mem_replicate.mp member).2]
  rfl

theorem comings_fed (slots : sweepers.map (·.assignment.pages) = parts) (kind : SpaceKind) :
    comings kind sweepers (List.replicate sweepers.length (.ofPages [])) =
      renewedIn kind parts.flatten := by
  rw [comings, zipWith_replicate_right, ← slots]
  simp [Sweeper.coming, Load.ofPages_coming, renewedIn, List.map_flatten, List.filter_flatten,
    Function.comp_def]

theorem ranks_fed (fed : ∀ sweeper ∈ sweepers, sweeper.Fed)
    (slots : sweepers.map (·.assignment.pages) = parts) :
    ranks sweepers (List.replicate sweepers.length (.ofPages [])) =
      6 * sweepers.length + 2 * parts.flatten.length := by
  rw [ranks, zipWith_replicate_right, ← slots]
  clear slots
  induction sweepers with
  | nil => rfl
  | cons sweeper sweepers ih =>
      have later := ih fun other member => fed other (by simp [member])
      simp only [List.map_cons, List.sum_cons, List.length_cons, List.flatten_cons,
        List.length_append, (fed sweeper (by simp)).rank] at later ⊢
      omega

theorem settled_fed {round : RoundState} (fed : ∀ sweeper ∈ sweepers, sweeper.Fed)
    (slots : sweepers.map (·.assignment.pages) = parts)
    (none : round.perThread = List.replicate sweepers.length 0) :
    round.settled sweepers (List.replicate sweepers.length (.ofPages [])) =
      parts.map List.length := by
  rw [RoundState.settled, none, zipWith_replicate_right, ← slots]
  clear slots none
  induction sweepers with
  | nil => rfl
  | cons sweeper sweepers ih =>
      have later := ih fun other member => fed other (by simp [member])
      rw [List.length_cons, List.replicate_succ, List.map_cons, List.zipWith_cons_cons, later,
        (fed sweeper (by simp)).due, harvest_pages, Nat.zero_add]
      rfl

end Fed

theorem Coordinator.Quiet.start {coordinator : Coordinator} (quiet : coordinator.Quiet)
    (some : 0 < coordinator.numThreads) :
    coordinator.start.1 = .ok () ∧
      Ledger coordinator.site.heap.takeUnswept.2 coordinator.site.heap.takeUnswept.1
        ((List.range coordinator.numThreads).map
          (batchSize coordinator.site.heap.takeUnswept.1.length coordinator.numThreads))
        coordinator.start.2 (List.replicate coordinator.numThreads (.ofPages [])) ∧
      ranks coordinator.start.2.sweepers (List.replicate coordinator.numThreads (.ofPages [])) =
        6 * coordinator.numThreads + 2 * coordinator.site.heap.takeUnswept.1.length ∧
      coordinator.start.2.numThreads = coordinator.numThreads := by
  have idle : ∀ sweeper ∈ coordinator.sweepers, sweeper.inFlight = false :=
    fun sweeper member => (quiet.rest sweeper member).flight
  obtain ⟨parts, site, round, started, heap, flat, lengths, opened⟩ :=
    start_dealt quiet.running some
      fun sweeper member => ⟨idle sweeper member, (quiet.rest sweeper member).slot⟩
  have same : parts.length = coordinator.sweepers.length := by
    simpa [numThreads] using congrArg List.length lengths
  obtain ⟨team, owed, slots⟩ := quiet.team.dealt idle coordinator.site.nextRound same
  rw [started]
  dsimp only at team owed slots ⊢
  generalize dealt : List.zipWith
    (fun sweeper part => sweeper.dealt coordinator.site.nextRound part)
    coordinator.sweepers parts = sweepers at team owed slots ⊢
  have many : coordinator.numThreads = sweepers.length := by
    rw [← dealt, List.length_zipWith, same, Nat.min_self, numThreads]
  have fed : ∀ sweeper ∈ sweepers, sweeper.Fed := by
    intro sweeper member
    subst dealt
    obtain ⟨position, bound, rfl⟩ := List.getElem_of_mem member
    rw [List.getElem_zipWith]
    have rest := quiet.rest _ (List.getElem_mem (by simpa [same] using bound))
    exact ⟨rest.phase, congrArg (· + 1) rest.begun, rest.outcome⟩
  have entries := opened.perThread
  rw [many] at entries
  refine ⟨rfl, ?_, ?_, ?_⟩
  · constructor
    · exact team
    · exact quiet.running
    · exact opened.pending
    · intro pages member
      rw [entries] at member
      rw [(List.mem_replicate.mp member).2]
      exact Nat.zero_le _
    · rw [entries, List.length_replicate]
    · rw [owed, flat, opened.merged, BatchYield.zero_plus]
    · rw [many, settled_fed fed slots entries, lengths, many]
    · intro load member
      rw [(List.mem_replicate.mp member).2]
      exact Load.ofPages_exact []
    · refine ⟨[], ?_, congrArg Heap.totals heap⟩
      rw [List.nil_append, many, aheads_fed slots, flat]
    · intro kind
      refine ⟨[], ?_, ?_⟩
      · rw [PagedSpace.receive_nil, heap]
      · rw [List.nil_append, many, comings_fed slots, flat]
    · exact congrArg Heap.id heap
    · exact congrArg Heap.nextPage heap
  · rw [many, ranks_fed fed slots, flat]
  · exact many.symm

/-! Its run. -/

namespace Act

def isChore : Act → Bool
  | .sweeper _ _ => true
  | _ => false

def ofRound : Act → Bool
  | .sweeper _ _ => true
  | .wait _ _ => true
  | _ => false

end Act

namespace Scene

variable {base : Heap} {whole : List Page} {shares : List Nat} {first scene next last : Scene}
  {act : Act} {acts : List Act}

theorem Step.ledger (step : Step scene act next) (round : act.ofRound = true)
    (ledger : Ledger base whole shares scene.coordinator scene.hands) (ready : base.Ready whole) :
    act.fault? = none ∧ Ledger base whole shares next.coordinator next.hands ∧
      [act].countP Act.isChore + ranks next.coordinator.sweepers next.hands ≤
        ranks scene.coordinator.sweepers scene.hands := by
  cases step with
  | sweeper split same move =>
      obtain ⟨calm, kept, nearer⟩ := ledger.move ready split same move
      exact ⟨calm, kept, Nat.one_add_le_iff.mpr nearer⟩
  | wait known waited =>
      obtain ⟨rfl, kept, still⟩ := ledger.wait ready known waited
      refine ⟨rfl, kept, ?_⟩
      rw [still]
      exact Nat.le_of_eq (Nat.zero_add _)
  | _ => cases round

theorem Run.ledger (run : Run first acts last) (round : ∀ act ∈ acts, act.ofRound = true)
    (ledger : Ledger base whole shares first.coordinator first.hands) (ready : base.Ready whole) :
    (∀ act ∈ acts, act.fault? = none) ∧
      Ledger base whole shares last.coordinator last.hands ∧
      acts.countP Act.isChore + ranks last.coordinator.sweepers last.hands ≤
        ranks first.coordinator.sweepers first.hands := by
  induction run with
  | nil => exact ⟨by simp, ledger, by simp⟩
  | @snoc acts act scene next _ step ih =>
      obtain ⟨before, here⟩ := List.forall_mem_append.mp round
      obtain ⟨calm, kept, bound⟩ := ih before
      obtain ⟨still, later, nearer⟩ := step.ledger (here act (by simp)) kept ready
      refine ⟨List.forall_mem_append.mpr ⟨calm, by simpa using still⟩, later, ?_⟩
      rw [List.countP_append]
      omega

def started (coordinator : Coordinator) : Scene :=
  ⟨coordinator.start.2, List.replicate coordinator.numThreads (.ofPages []), .free⟩

structure Agreed (coordinator done alone : Coordinator) (report own : RoundReport) : Prop where
  heap : done.site.heap.Alike alone.site.heap
  last : done.round.last = some report
  pages : report.pages = own.pages
  freed : report.freed = own.freed
  perThread : report.perThread = (List.range coordinator.numThreads).map fun index =>
    own.pages / coordinator.numThreads + if index < own.pages % coordinator.numThreads then 1 else 0
  sum : report.perThread.sum = report.pages
  quiet : done.Quiet

structure Shared (coordinator alone : Coordinator) (own : RoundReport) (acts : List Act)
    (scene : Scene) : Prop where
  calm : ∀ act ∈ acts, act.fault? = none
  bound : acts.countP Act.isChore ≤ 6 * coordinator.numThreads + 2 * own.pages
  progress : (∃ index chore next, Step scene (.sweeper index chore) next) ∨
    ∃ answer done, scene.coordinator.ensure? = some (answer, done)
  result : ∀ answer done, scene.coordinator.ensure? = some (answer, done) →
    ∃ report, answer = .ok (some report) ∧ Agreed coordinator done alone report own

/-- A heap whose unswept pages can be swept is swept the same way by any number of sweepers. -/
theorem Run.shared {coordinator alone : Coordinator} (quiet : coordinator.Quiet)
    (some : 0 < coordinator.numThreads)
    (ready : coordinator.site.heap.takeUnswept.2.Ready coordinator.site.heap.takeUnswept.1)
    (none : alone.numThreads = 0) (running : alone.stopped = false)
    (same : alone.site.heap = coordinator.site.heap) :
    coordinator.start.1 = .ok () ∧ alone.start.1 = .ok () ∧
      alone.start.2.ensure? = .some (.ok .none, alone.start.2) ∧
      ∃ own, alone.start.2.round.last = .some own ∧
        own.pages = coordinator.site.heap.takeUnswept.1.length ∧
        ∀ acts scene, Run (started coordinator) acts scene →
          (∀ act ∈ acts, act.ofRound = true) →
          Shared coordinator alone.start.2 own acts scene := by
  obtain ⟨calm, ledger, rank, many⟩ := quiet.start some
  have swept := Heap.sweepPages_ok ready.sweepable ready.lists ready.totals
  obtain ⟨site, books, own, begun, heap, closed, last, _, _, pages, freed⟩ :=
    Coordinator.start_here running none (by rw [same]; exact swept)
  have length : own.pages = coordinator.site.heap.takeUnswept.1.length := by
    rw [pages, harvest_pages]
  rw [begun]
  refine ⟨calm, rfl, ?_, own, last, length, ?_⟩
  · have nobody : Coordinator.numThreads { alone with site, round := books } = 0 := none
    rw [Coordinator.ensure?_eq, nobody]
    simp only [List.range_zero, Coordinator.awaitEach?]
    rw [Coordinator.finalize_closed (by exact closed)]
  · intro acts scene run round
    obtain ⟨still, kept, bound⟩ := run.ledger round ledger ready
    refine ⟨still, ?_, ?_, ?_⟩
    · rw [length, ← rank]
      have start : ranks (started coordinator).coordinator.sweepers (started coordinator).hands =
          ranks coordinator.start.2.sweepers
            (List.replicate coordinator.numThreads (.ofPages [])) := rfl
      omega
    · obtain ⟨middle, hands, client⟩ := scene
      rcases (kept.staffed ready).progress kept.running with
        ⟨before, sweeper, after, early, load, late, split, parted, place, _, _, _, _, move⟩ | ended
      · left
        dsimp only at split parted move
        subst parted
        exact ⟨_, _, _, .sweeper split place move⟩
      · exact .inr ended
    · intro answer done waited
      obtain ⟨report, found, reported, whole, bytes, entries, alike, team, runs, size, rest⟩ :=
        kept.ensure ready waited
      refine ⟨report, found, ?_⟩
      constructor
      · rw [heap]
        exact alike
      · exact reported
      · rw [whole, length]
      · rw [bytes, freed]
      · rw [entries, length]
        rfl
      · rw [entries, whole, batchSize_sum _ some]
      · exact .of_team runs team rest

/-! A small round. -/

def sampleHeap : Heap :=
  { Heap.fresh ⟨0⟩ with
    spaces :=
      ⟨{ PagedSpace.fresh .data with unswept := [.fresh ⟨0⟩ .data, .fresh ⟨1⟩ .data] },
        { PagedSpace.fresh .pointer with unswept := [.fresh ⟨2⟩ .pointer] }⟩
    nextPage := 3 }

def sampleRound (threads : Nat) : Coordinator :=
  .fresh { Site.fresh ⟨0⟩ with heap := sampleHeap } threads

theorem sampleHeap_ready : sampleHeap.takeUnswept.2.Ready sampleHeap.takeUnswept.1 where
  sweepable := by
    intro page member
    simp only [sampleHeap, Heap.takeUnswept, PagedSpace.fresh, List.cons_append, List.nil_append,
      List.mem_cons, List.not_mem_nil, or_false] at member
    rcases member with rfl | rfl | rfl <;> exact ⟨rfl, by decide⟩
  lists := by
    intro kind
    cases kind <;> exact ⟨by decide, by decide⟩
  totals := ⟨by decide, by decide, by decide⟩

theorem sampleRound_shared :
    (sampleRound 2).Quiet ∧ sampleHeap.takeUnswept.2.Ready sampleHeap.takeUnswept.1 ∧
      ∃ own, own.pages = 3 ∧ ∀ acts scene, Run (started (sampleRound 2)) acts scene →
        (∀ act ∈ acts, act.ofRound = true) →
        Shared (sampleRound 2) (sampleRound 0).start.2 own acts scene := by
  have quiet := Coordinator.fresh_quiet { Site.fresh ⟨0⟩ with heap := sampleHeap } 2
  obtain ⟨_, _, _, own, _, pages, shared⟩ :=
    @Run.shared _ (sampleRound 0) quiet (by decide) sampleHeap_ready rfl rfl rfl
  exact ⟨quiet, sampleHeap_ready, own, pages, shared⟩

end Scene

end Reclaim
