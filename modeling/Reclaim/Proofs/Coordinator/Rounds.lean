import Reclaim.Proofs.Batches
import Reclaim.Proofs.Sweeper.Dues

/-! What the operations of a coordinator come to: starting a round deals the unswept pages out or
sweeps them at once, a wait hands the outcome of one sweeper to the books, and a report closes the
books and leaves everything else as it is. -/

namespace Reclaim

def RoundState.gain (round : RoundState) (index : Nat) (outcome : BatchYield) : RoundState :=
  { round with
    merged := round.merged.plus outcome
    perThread := round.perThread.modify index (· + outcome.pages) }

theorem RoundState.merge_eq {round : RoundState} {outcome : BatchYield} (index : Nat)
    (fits : (round.merged.plus outcome).Fits)
    (books : ∀ pages ∈ round.perThread, pages ≤ round.merged.pages) :
    round.merge index outcome = (.ok (), round.gain index outcome) := by
  have pagesFit : round.merged.pages + outcome.pages < Word.limit := fits.pages
  simp only [merge, BatchYield.merge_eq fits, gain]
  cases entry : round.perThread[index]? with
  | none =>
      have beyond := List.getElem?_eq_none_iff.mp entry
      rw [List.modify_eq_self beyond]
  | some pages =>
      have small := books pages (List.mem_of_getElem? entry)
      have room : pages + outcome.pages < Word.limit := by omega
      obtain ⟨bound, value⟩ := List.getElem?_eq_some_iff.mp entry
      simp only [Word.add, room, if_true]
      rw [List.modify_eq_set_getElem?, entry]
      rfl

namespace Coordinator

variable {coordinator : Coordinator}

def report (coordinator : Coordinator) : RoundReport :=
  { number := coordinator.round.number
    threads := coordinator.numThreads
    pages := coordinator.round.merged.pages
    freed := coordinator.round.merged.freed
    perThread := coordinator.round.perThread }

theorem finalize_pending (coordinator : Coordinator) (pending : coordinator.round.pending = true) :
    ∃ counters journal, coordinator.finalize =
      (some coordinator.report,
        { coordinator with
          site := { coordinator.site with counters, journal }
          round :=
            { coordinator.round with
              pending := false
              perThread := []
              last := some coordinator.report } }) := by
  refine ⟨coordinator.site.counters.recordRound coordinator.report.pages coordinator.report.freed,
    coordinator.site.journal.push (.main, .report (.roundComplete coordinator.round.id
      coordinator.report.number coordinator.report.pages coordinator.report.freed)), ?_⟩
  simp only [finalize, pending, if_true]
  rfl

theorem finalize_closed (closed : coordinator.round.pending = false) :
    coordinator.finalize = (none, coordinator) := by
  simp [finalize, closed]

theorem finalize_closes (coordinator : Coordinator) :
    coordinator.finalize.2.round.pending = false := by
  cases pending : coordinator.round.pending with
  | true =>
      obtain ⟨counters, journal, reported⟩ := coordinator.finalize_pending pending
      rw [reported]
  | false => rw [finalize_closed pending, pending]

theorem finalize_counters (coordinator : Coordinator) :
    coordinator.finalize.2.site.counters =
      if coordinator.round.pending then
        coordinator.site.counters.recordRound coordinator.report.pages coordinator.report.freed
      else coordinator.site.counters := by
  cases pending : coordinator.round.pending with
  | true =>
      simp only [finalize, pending, if_true]
      rfl
  | false => simp [finalize, pending]

theorem finalize_kept (coordinator : Coordinator) :
    ∃ counters journal round, coordinator.finalize.2 =
        { coordinator with site := { coordinator.site with counters, journal }, round } ∧
      round.merged = coordinator.round.merged ∧ round.number = coordinator.round.number ∧
      (round.perThread = coordinator.round.perThread ∨ round.perThread = []) := by
  cases pending : coordinator.round.pending with
  | true =>
      obtain ⟨counters, journal, reported⟩ := coordinator.finalize_pending pending
      rw [reported]
      exact ⟨counters, journal, _, rfl, rfl, rfl, Or.inr rfl⟩
  | false =>
      rw [finalize_closed pending]
      exact ⟨coordinator.site.counters, coordinator.site.journal, coordinator.round, rfl, rfl, rfl,
        Or.inl rfl⟩

theorem finalize_frame (coordinator : Coordinator) :
    coordinator.finalize.2.site.heap = coordinator.site.heap ∧
      coordinator.finalize.2.sweepers = coordinator.sweepers ∧
      coordinator.finalize.2.stopped = coordinator.stopped := by
  obtain ⟨_, _, _, finalized, _⟩ := coordinator.finalize_kept
  rw [finalized]
  exact ⟨rfl, rfl, rfl⟩

theorem setSweeper_middle {before after : List Sweeper} {sweeper : Sweeper}
    (split : coordinator.sweepers = before ++ sweeper :: after) (next : Sweeper)
    (index : next.index = before.length) :
    coordinator.setSweeper next = { coordinator with sweepers := before ++ next :: after } := by
  simp only [setSweeper, split, index]
  rw [List.set_append_right _ _ (Nat.le_refl _), Nat.sub_self, List.set_cons_zero]

theorem takeOutcome?_eq {before after : List Sweeper} {sweeper : Sweeper}
    {outcome : Option BatchYield} {next : Coordinator}
    (split : coordinator.sweepers = before ++ sweeper :: after)
    (index : sweeper.index = before.length)
    (taken : coordinator.takeOutcome? before.length = .ok (some (outcome, next))) :
    (sweeper.inFlight = false ∧ outcome = none ∧ next = coordinator) ∨
      (sweeper.inFlight = true ∧ 0 < sweeper.ended.permits ∧ outcome = sweeper.outcome ∧
        next = { coordinator with sweepers := before ++ sweeper.awaited :: after }) := by
  have found : coordinator.sweeper before.length = .ok sweeper := by
    simp [Coordinator.sweeper, split]
  unfold takeOutcome? at taken
  rw [found] at taken
  obtain ⟨⟨result, later⟩, waited, same⟩ := Option.map_eq_some_iff.mp (Except.ok.inj taken)
  cases same
  rcases Sweeper.await?_some waited with ⟨rest, rfl, rfl⟩ | ⟨flight, ended, rfl, rfl⟩
  · left
    refine ⟨rest, rfl, ?_⟩
    rw [setSweeper_middle split _ index, ← split]
  · right
    exact ⟨flight, ended, rfl, setSweeper_middle split _ index⟩

theorem await?_eq {before after : List Sweeper} {sweeper : Sweeper} {answer : Except Fault Unit}
    {next : Coordinator} (split : coordinator.sweepers = before ++ sweeper :: after)
    (index : sweeper.index = before.length)
    (waited : coordinator.await? before.length = some (answer, next)) :
    (sweeper.inFlight = false ∧ answer = .ok () ∧ next = coordinator) ∨
      (sweeper.inFlight = true ∧ 0 < sweeper.ended.permits ∧
        (answer, next) =
          { coordinator with sweepers := before ++ sweeper.awaited :: after }.merge before.length
            sweeper.outcome) := by
  unfold await? at waited
  split at waited
  · next failed =>
      simp [takeOutcome?, Coordinator.sweeper, split] at failed
  · cases waited
  · next outcome later taken =>
      rcases takeOutcome?_eq split index taken with ⟨rest, rfl, rfl⟩ | ⟨flight, ended, rfl, rfl⟩
      · cases waited
        exact Or.inl ⟨rest, rfl, rfl⟩
      · exact Or.inr ⟨flight, ended, (Option.some.inj waited).symm⟩

theorem deal_eq (round : Nat) {sweepers : List Sweeper} {parts : List (List Page)}
    (same : parts.length = sweepers.length)
    (rest : ∀ sweeper ∈ sweepers, sweeper.inFlight = false ∧ sweeper.assignment.pages = []) :
    deal round sweepers parts =
      (.ok (), List.zipWith (fun sweeper part => sweeper.dealt round part) sweepers parts) := by
  induction sweepers generalizing parts with
  | nil => cases parts <;> rfl
  | cons sweeper sweepers ih =>
      cases parts with
      | nil => cases same
      | cons part parts =>
          obtain ⟨idle, empty⟩ := rest sweeper (by simp)
          have later := ih (by simpa using same) fun other member => rest other (by simp [member])
          simp [deal, Sweeper.assign, Sweeper.launch, Sweeper.setCompleted, Sweeper.setInFlight,
            Sweeper.nudge, empty, idle, later, Sweeper.dealt]

structure Opened (coordinator : Coordinator) (round : RoundState) : Prop where
  number : round.number = coordinator.round.number + 1
  id : round.id = coordinator.site.nextRound
  pending : round.pending = true
  merged : round.merged = .zero
  perThread : round.perThread = List.replicate coordinator.numThreads 0

theorem start_eq (running : coordinator.stopped = false) (rest : coordinator.inProgress = false) :
    ∃ counters journal round span, coordinator.Opened round ∧
      let opened : Coordinator :=
        { coordinator with
          site :=
            { heap := coordinator.site.heap.takeUnswept.2
              counters
              nextRound := Word.wrappingAdd coordinator.site.nextRound 1
              journal }
          round }
      let pages := coordinator.site.heap.takeUnswept.1
      let started :=
        if coordinator.numThreads = 0 then opened.sweepHere pages else opened.dispatch pages
      coordinator.start = (started.1, started.2.note .main (.leave span)) := by
  obtain ⟨counters, journal, books, closed, _, number, _⟩ := coordinator.finalize_kept
  rcases reported : coordinator.finalize with ⟨report, after⟩
  rw [reported] at closed
  dsimp only at closed
  subst closed
  let round : RoundState :=
    { books with
      number := books.number + 1
      id := coordinator.site.nextRound
      pending := true
      merged := .zero
      perThread := List.replicate coordinator.numThreads 0 }
  let span := Span.sweepRound round.id coordinator.numThreads
    coordinator.site.heap.takeUnswept.1.length
  let noted := (journal.push (.main, .enter span)).push (.main, .report (.roundStart round.id
    round.number coordinator.numThreads coordinator.site.heap.takeUnswept.1.length))
  refine ⟨counters, noted, round, span, ⟨congrArg (· + 1) number, rfl, rfl, rfl, rfl⟩, ?_⟩
  unfold start
  simp only [running, rest, reported, Bool.false_eq_true, if_false]
  rfl

theorem sweepHere_eq (coordinator : Coordinator) {pages : List Page} {merged : BatchYield} {heap : Heap}
    (pending : coordinator.round.pending = true)
    (swept : coordinator.site.heap.sweepPages pages = (.ok merged, heap)) :
    ∃ site round report, coordinator.sweepHere pages = (.ok (), { coordinator with site, round }) ∧
      site.heap = heap ∧ round.pending = false ∧ round.last = some report ∧
      round.perThread = [] ∧ round.merged = merged ∧ report.pages = merged.pages ∧
      report.freed = merged.freed := by
  unfold sweepHere Site.sweepPages
  rw [swept]
  dsimp only
  obtain ⟨counters, journal, reported⟩ := finalize_pending
    { coordinator with
      site := { coordinator.site with heap }.note .main
        (.report (.batchSwept none merged.pages merged.freed))
      round := { coordinator.round with merged } } pending
  rw [reported]
  exact ⟨_, _, _, rfl, rfl, rfl, rfl, rfl, rfl, rfl, rfl⟩

theorem dispatch_eq (coordinator : Coordinator) {pages : List Page}
    (some : 0 < coordinator.numThreads)
    (rest : ∀ sweeper ∈ coordinator.sweepers,
      sweeper.inFlight = false ∧ sweeper.assignment.pages = []) :
    ∃ parts, coordinator.dispatch pages =
        (.ok (),
          { coordinator with
            sweepers := List.zipWith
              (fun sweeper part => sweeper.dealt coordinator.round.id part)
              coordinator.sweepers parts }) ∧
      parts.flatten = pages ∧
      parts.map List.length = (List.range coordinator.numThreads).map
        (batchSize pages.length coordinator.numThreads) := by
  obtain ⟨parts, divided, flat, lengths⟩ := batches_eq pages some
  have many : parts.length = coordinator.sweepers.length := by
    have same := congrArg List.length lengths
    rwa [List.length_map, List.length_map, List.length_range] at same
  refine ⟨parts, ?_, flat, lengths⟩
  simp only [dispatch, divided, deal_eq coordinator.round.id many rest]

theorem start_here {merged : BatchYield} {heap : Heap} (running : coordinator.stopped = false)
    (alone : coordinator.numThreads = 0)
    (swept : coordinator.site.heap.takeUnswept.2.sweepPages coordinator.site.heap.takeUnswept.1 =
      (.ok merged, heap)) :
    ∃ site round report, coordinator.start = (.ok (), { coordinator with site, round }) ∧
      site.heap = heap ∧ round.pending = false ∧ round.last = some report ∧
      round.perThread = [] ∧ round.merged = merged ∧ report.pages = merged.pages ∧
      report.freed = merged.freed := by
  have none : coordinator.sweepers = [] := List.eq_nil_of_length_eq_zero alone
  have rest : coordinator.inProgress = false := by
    rw [inProgress, none]
    rfl
  obtain ⟨counters, journal, round, span, opened, started⟩ := start_eq running rest
  dsimp only at started
  rw [if_pos alone] at started
  obtain ⟨site, books, report, here, same, facts⟩ := sweepHere_eq
    { coordinator with
      site :=
        { heap := coordinator.site.heap.takeUnswept.2
          counters
          nextRound := Word.wrappingAdd coordinator.site.nextRound 1
          journal }
      round } opened.pending swept
  rw [started, here]
  exact ⟨site.note .main (.leave span), books, report, rfl, same, facts⟩

theorem start_dealt (running : coordinator.stopped = false) (some : 0 < coordinator.numThreads)
    (rest : ∀ sweeper ∈ coordinator.sweepers,
      sweeper.inFlight = false ∧ sweeper.assignment.pages = []) :
    ∃ parts site round, coordinator.start =
        (.ok (),
          { coordinator with
            site
            sweepers := List.zipWith
              (fun sweeper part => sweeper.dealt coordinator.site.nextRound part)
              coordinator.sweepers parts
            round }) ∧
      site.heap = coordinator.site.heap.takeUnswept.2 ∧
      parts.flatten = coordinator.site.heap.takeUnswept.1 ∧
      parts.map List.length = (List.range coordinator.numThreads).map
        (batchSize coordinator.site.heap.takeUnswept.1.length coordinator.numThreads) ∧
      coordinator.Opened round := by
  have idle : coordinator.inProgress = false := by
    rw [inProgress, List.any_eq_false]
    intro sweeper member
    simp [(rest sweeper member).1]
  obtain ⟨counters, journal, round, span, opened, started⟩ := start_eq running idle
  dsimp only at started
  rw [if_neg (by omega)] at started
  obtain ⟨parts, dealt, flat, lengths⟩ := dispatch_eq
    { coordinator with
      site :=
        { heap := coordinator.site.heap.takeUnswept.2
          counters
          nextRound := Word.wrappingAdd coordinator.site.nextRound 1
          journal }
      round } some rest
  rw [started, dealt]
  dsimp only
  rw [opened.id]
  exact ⟨parts, _, round, rfl, rfl, flat, lengths, opened⟩

/-! Stopping. -/

def settle (coordinator : Coordinator) (index : Nat) (left : Assignment) (joined : Sweeper) :
    Except Fault Unit × Coordinator :=
  match (coordinator.setSweeper joined.takeOutcome.2).merge index joined.takeOutcome.1 with
  | (.error fault, coordinator) => (.error fault, coordinator)
  | (.ok (), coordinator) => (.ok (), coordinator.giveBack index left)

theorem stopSweeper_eq (coordinator : Coordinator) (index : Nat) :
    coordinator.stopSweeper index =
      match coordinator.sweepers[index]? with
      | none => (.ok (), coordinator)
      | some sweeper =>
          let coordinator := (coordinator.setSweeper sweeper.nudge).runOut index
          match coordinator.sweepers[index]?.bind Sweeper.join? with
          | none => (.ok (), coordinator)
          | some (left, joined) => coordinator.settle index left joined := rfl

theorem giveBack_eq (coordinator : Coordinator) (index : Nat) (left : Assignment) :
    ∃ journal, coordinator.giveBack index left =
      { coordinator with
        site :=
          { coordinator.site with
            heap := coordinator.site.heap.restoreUnswept left.pages
            journal } } := by
  unfold giveBack
  split
  · next none =>
      rw [List.isEmpty_iff.mp none, Heap.restoreUnswept_nil]
      exact ⟨coordinator.site.journal, rfl⟩
  · exact ⟨_, rfl⟩

end Coordinator

end Reclaim
