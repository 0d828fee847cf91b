import Mathlib.Data.List.Flatten
import Reclaim.Proofs.Scene.Clear
import Reclaim.Proofs.Scene.Drive
import Reclaim.Proofs.Scene.Halt

/-! What a stop leaves behind. Every page of the last round has been swept or waits again as it was
when the round took it, and the report of the round tells what has been swept. -/

namespace Reclaim

namespace Scene

def spared (opening : Scene) (acts : List Act) : List Page :=
  (List.range opening.hands.length).flatMap fun index =>
    if (sweptBy acts index).isEmpty then opening.coordinator.slot index else []

structure Stopping (halt : Scene) (late : List Act) (scene : Scene) : Prop where
  calm : ∀ act ∈ late, act.fault? = none
  progress : ∃ act next, Step scene act next
  bound : late.length + scene.toStop ≤ halt.toStop
  passed : ∀ index, sweptBy late index ++ scene.passed index = halt.passed index

structure Stopped (opening : Scene) (whole : List Page) (acts : List Act) (ready last : Scene) :
    Prop where
  exited : ∀ sweeper ∈ last.coordinator.sweepers, sweeper.Gone
  names : (whole.map (·.id)).Nodup
  all : (acts.flatMap Act.sweeps ++ spared opening acts).Perm whole
  batches : ∀ index < last.coordinator.numThreads,
    sweptBy acts index = [] ∨ sweptBy acts index = opening.coordinator.slot index
  order : (spared opening acts).Sublist whole
  returned : ∀ kind, (last.heap.space kind).unswept = (ready.heap.space kind).unswept ++
    (spared opening acts).filter fun page => decide (page.space = kind)
  swept : (∀ act ∈ acts, act.isPrepare = false) → ∀ page ∈ acts.flatMap Act.sweeps,
    ∃ held ∈ (last.heap.space page.space).swept,
      held.id = page.id ∧ held.sweeps = page.sweeps + 1
  recycled : (∃ act ∈ acts, act.isPrepare = true) → ∀ page ∈ acts.flatMap Act.sweeps,
    ∃ held ∈ (last.heap.space page.space).unswept, held.id = page.id
  report : ready.coordinator.round.pending = true → last.coordinator.round.last =
    some
      { number := ready.coordinator.round.number
        threads := last.coordinator.numThreads
        pages := (acts.flatMap Act.sweeps).length
        freed := (harvest (acts.flatMap Act.sweeps)).freed
        perThread := (List.range last.coordinator.numThreads).map fun index =>
          (sweptBy acts index).length }
  kept : ready.coordinator.round.pending = false →
    last.coordinator.round.last = ready.coordinator.round.last
  closed : last.coordinator.round.pending = false
  counters : last.coordinator.site.counters =
    if ready.coordinator.round.pending then
      ready.coordinator.site.counters.recordRound (acts.flatMap Act.sweeps).length
        (harvest (acts.flatMap Act.sweeps)).freed
    else ready.coordinator.site.counters
  idle : last.coordinator.inProgress = false
  again : last.coordinator.stop = (.ok (), last.coordinator)

namespace Halting

variable {whole : List Page} {part back : Nat → List Page} {acts late : List Act} {halt : Scene}
  {index : Nat} {nudged : Bool} {coordinator : Coordinator} {hands : List Load}
  (halting : Halting whole part acts late halt index nudged back
    ⟨coordinator, hands, .stopping coordinator.numThreads false⟩)

include halting

theorem joined {place : Nat} (known : place < coordinator.numThreads) :
    ∃ sweeper load, coordinator.sweepers[place]? = some sweeper ∧ hands[place]? = some load ∧
      sweeper.Gone ∧ load.pages = [] := by
  obtain ⟨rfl, _⟩ := Client.stopping.inj halting.client
  have many := halting.sound.numThreads
  dsimp only at many
  obtain ⟨sweeper, found⟩ : ∃ sweeper, coordinator.sweepers[place]? = some sweeper :=
    ⟨_, List.getElem?_eq_getElem known⟩
  obtain ⟨load, held⟩ : ∃ load, hands[place]? = some load :=
    ⟨_, List.getElem?_eq_getElem (many ▸ known)⟩
  have gone := (halting.leaving _ _ _ found held).gone known
  refine ⟨_, _, found, held, gone, ?_⟩
  exact (halting.sound.staffed.team.each _ _ _ found held).hand (by rw [gone.phase]; rfl)

theorem gone : (∀ sweeper ∈ coordinator.sweepers, sweeper.Gone) ∧ ∀ load ∈ hands, load.pages = [] := by
  have many := halting.sound.numThreads
  dsimp only at many
  constructor
  · intro sweeper member
    obtain ⟨place, known, rfl⟩ := List.mem_iff_getElem.mp member
    obtain ⟨_, _, found, _, gone, _⟩ := halting.joined known
    rw [List.getElem?_eq_getElem known] at found
    cases found
    exact gone
  · intro load member
    obtain ⟨place, known, rfl⟩ := List.mem_iff_getElem.mp member
    obtain ⟨_, _, _, held, _, empty⟩ := halting.joined (many ▸ known)
    rw [List.getElem?_eq_getElem known] at held
    cases held
    exact empty

/-- A sweeper has swept all that it was dealt, or it has given it all back. -/
theorem given {place : Nat} (known : place < coordinator.numThreads) :
    part place = sweptBy (acts ++ late) place ++ back place ∧
      back place = if (sweptBy (acts ++ late) place).isEmpty then part place else [] := by
  obtain ⟨sweeper, load, found, held, gone, empty⟩ := halting.joined known
  obtain ⟨parts, all, _⟩ := halting.tally.shares place sweeper load found held
  have left : load.left = [] := (List.append_eq_nil_iff.mp empty).1
  rw [gone.slot, left, List.nil_append, List.nil_append] at parts
  rw [gone.slot, left, List.nil_append, List.append_nil] at all
  refine ⟨parts, ?_⟩
  split
  · next none =>
      rw [List.isEmpty_iff.mp none] at parts
      exact parts.symm
  · next some =>
      by_contra returned
      exact some (List.isEmpty_iff.mpr (all returned))

theorem entries (pending : coordinator.round.pending = true) :
    coordinator.round.perThread = (List.range coordinator.numThreads).map fun place =>
      (sweptBy (acts ++ late) place).length := by
  have width := halting.tally.width pending
  refine List.ext_getElem (by simpa using width) fun place known _ => ?_
  dsimp only at width
  obtain ⟨sweeper, load, found, held, gone, _⟩ := halting.joined (width ▸ known)
  obtain ⟨entry, kept, counted⟩ := halting.tally.entries pending place sweeper load found held
  rw [List.getElem?_eq_getElem known] at kept
  cases kept
  rw [gone.due, (halting.given (width ▸ known)).1, List.length_append] at counted
  simpa [BatchYield.zero] using counted

end Halting

section Finished

variable {whole : List Page} {back : Nat → List Page} {opened middle late : List Act}
  {opening halt : Scene} {index : Nat} {nudged : Bool} {coordinator : Coordinator}
  {hands : List Load}
  (begun : Opened coordinator.numThreads opened whole opening)
  (halting : Halting whole opening.coordinator.slot (opened ++ middle) late halt index nudged back
    ⟨coordinator, hands, .stopping coordinator.numThreads false⟩)

include begun halting

theorem Halting.spared_eq :
    spared opening (opened ++ middle ++ late) =
      (List.range coordinator.numThreads).flatMap back := by
  rw [spared, begun.hands]
  exact List.flatMap_congr fun place member =>
    ((halting.given (List.mem_range.mp member)).2).symm

theorem Halting.waiting (many : halt.hands.length = coordinator.numThreads) (kind : SpaceKind) :
    (coordinator.site.heap.space kind).unswept = (halt.heap.space kind).unswept ++
      (spared opening (opened ++ middle ++ late)).filter
        fun page => decide (page.space = kind) := by
  have unswept := halting.unswept kind
  rw [many, ← halting.spared_eq begun] at unswept
  exact unswept

theorem Halting.whole_perm
    (swept : ((middle ++ late).flatMap Act.sweeps).Perm
      ((List.range coordinator.numThreads).flatMap (sweptBy (middle ++ late)))) :
    ((opened ++ middle ++ late).flatMap Act.sweeps ++
        spared opening (opened ++ middle ++ late)).Perm whole ∧
      (spared opening (opened ++ middle ++ late)).Sublist whole := by
  have own : sweptBy (opened ++ middle ++ late) = sweptBy (middle ++ late) := by
    rw [List.append_assoc, sweptBy_append, begun.nobody]
    rfl
  have dealt : (List.range coordinator.numThreads).flatMap opening.coordinator.slot =
      (List.range coordinator.numThreads).flatMap fun place =>
        sweptBy (middle ++ late) place ++ back place := by
    refine List.flatMap_congr fun place member => ?_
    rw [(halting.given (List.mem_range.mp member)).1, own]
  rw [halting.spared_eq begun, begun.parts, dealt, List.append_assoc opened, List.flatMap_append,
    List.append_assoc]
  constructor
  · exact ((swept.append_right _).trans (List.flatMap_append_perm _ _ _)).append_left _
  · refine List.Sublist.trans ?_ (List.sublist_append_right _ _)
    exact List.Sublist.flatMap_right _ fun place _ => List.sublist_append_right _ _

theorem Halting.merged
    (all : ((opened ++ middle ++ late).flatMap Act.sweeps ++
      spared opening (opened ++ middle ++ late)).Perm whole) :
    coordinator.round.merged.pages = ((opened ++ middle ++ late).flatMap Act.sweeps).length ∧
      coordinator.round.merged.freed =
        (harvest ((opened ++ middle ++ late).flatMap Act.sweeps)).freed := by
  have owed := halting.tally.owed
  dsimp only at owed
  rw [dues_gone halting.gone.1, BatchYield.zero_plus, ← halting.spared_eq begun,
    ← harvest_perm all, harvest_append] at owed
  have pages := congrArg BatchYield.pages owed
  have freed := congrArg BatchYield.freed owed
  simp only [BatchYield.plus, harvest_pages] at pages freed
  exact ⟨Nat.add_right_cancel pages, Nat.add_right_cancel freed⟩

theorem Halting.reported
    (all : ((opened ++ middle ++ late).flatMap Act.sweeps ++
      spared opening (opened ++ middle ++ late)).Perm whole) :
    (halt.coordinator.round.pending = true → coordinator.finalize.2.round.last =
      some
        { number := halt.coordinator.round.number
          threads := coordinator.numThreads
          pages := ((opened ++ middle ++ late).flatMap Act.sweeps).length
          freed := (harvest ((opened ++ middle ++ late).flatMap Act.sweeps)).freed
          perThread := (List.range coordinator.numThreads).map fun index =>
            (sweptBy (opened ++ middle ++ late) index).length }) ∧
      (halt.coordinator.round.pending = false →
        coordinator.finalize.2.round.last = halt.coordinator.round.last) ∧
      coordinator.finalize.2.round.pending = false ∧
      coordinator.finalize.2.site.counters =
        if halt.coordinator.round.pending then
          halt.coordinator.site.counters.recordRound
            ((opened ++ middle ++ late).flatMap Act.sweeps).length
            (harvest ((opened ++ middle ++ late).flatMap Act.sweeps)).freed
        else halt.coordinator.site.counters := by
  obtain ⟨pages, freed⟩ := halting.merged begun all
  -- A stop changes nothing in the books but what has been merged.
  obtain ⟨merged, entries, books⟩ := halting.books
  have counters := halting.counters
  dsimp only at books counters
  have pending : coordinator.round.pending = halt.coordinator.round.pending := by rw [books]
  have number : coordinator.round.number = halt.coordinator.round.number := by rw [books]
  have last : coordinator.round.last = halt.coordinator.round.last := by rw [books]
  have counted := coordinator.finalize_counters
  rw [counters, show coordinator.report.pages = _ from pages,
    show coordinator.report.freed = _ from freed, pending] at counted
  refine ⟨fun waits => ?_, fun closed => ?_, coordinator.finalize_closes, counted⟩
  · rw [← pending] at waits
    obtain ⟨_, _, reported⟩ := coordinator.finalize_pending waits
    rw [reported]
    simp only [Coordinator.report, pages, freed, number, halting.entries waits]
  · rw [← pending] at closed
    rw [Coordinator.finalize_closed closed]
    exact last

end Finished

theorem Opened.prepares {threads : Nat} {opened middle late : List Act} {whole : List Page}
    {opening : Scene} {act : Act} (begun : Opened threads opened whole opening)
    (calm : ∀ act ∈ late, act.isPrepare = false) (inside : act ∈ opened ++ middle ++ late)
    (prepares : act.isPrepare = true) : act ∈ middle := by
  rcases List.mem_append.mp inside with sooner | after
  · rcases List.mem_append.mp sooner with first | now
    · rw [begun.cycle act first] at prepares
      cases prepares
    · exact now
  · rw [calm act after] at prepares
    cases prepares

theorem Halting.stopped {whole : List Page} {back : Nat → List Page} {opened middle late : List Act}
    {opening : Scene} {index : Nat} {nudged : Bool} {start coordinator : Coordinator}
    {before hands : List Load}
    (halting : Halting whole opening.coordinator.slot (opened ++ middle) late
      ⟨{ start with stopped := true }, before, .stopping 0 false⟩ index nudged back
      ⟨coordinator, hands, .stopping coordinator.numThreads false⟩)
    (begun : Opened coordinator.numThreads opened whole opening)
    (round : Run opening middle ⟨start, before, .free⟩) (quiet : ∀ act ∈ middle, act.isStart = false)
    (running : start.stopped = false)
    (run : Run ⟨{ start with stopped := true }, before, .stopping 0 false⟩ late
      ⟨coordinator, hands, .stopping coordinator.numThreads false⟩)
    (calm : ∀ act ∈ late, act.isStart = false ∧ act.isPrepare = false)
    (young : ∀ act ∈ middle ++ late, act.Young) :
    Stopped opening whole (opened ++ middle ++ late) ⟨start, before, .free⟩
      ⟨coordinator.finalize.2, hands, .free⟩ := by
  obtain ⟨youngBefore, youngAfter⟩ := List.forall_mem_append.mp young
  have many : opening.hands.length = before.length := round.hands_length.symm
  have swept : ((middle ++ late).flatMap Act.sweeps).Perm
      ((List.range coordinator.numThreads).flatMap (sweptBy (middle ++ late))) := by
    have first := round.sweeps_perm quiet
    have second := run.sweeps_perm fun act member => (calm act member).1
    dsimp only at second
    rw [← many, begun.hands] at second
    rw [begun.hands] at first
    rw [List.flatMap_append, sweptBy_append]
    exact (first.append second).trans (List.flatMap_append_perm _ _ _)
  obtain ⟨all, order⟩ := halting.whole_perm begun swept
  obtain ⟨report, kept, closed, counters⟩ := halting.reported begun all
  obtain ⟨gone, empty⟩ := halting.gone
  obtain ⟨heap, sweepers, halted⟩ := coordinator.finalize_frame
  have width : coordinator.finalize.2.numThreads = coordinator.numThreads :=
    congrArg List.length sweepers
  have waiting := halting.waiting begun (many.symm.trans begun.hands)
  -- For what became of single pages, the acts since the opening are one run with the stop between them.
  have trail : Run opening (middle ++ .stop :: late) _ :=
    round.append ((Runs.nil.snoc (.stop running)).append run)
  have same : opened.flatMap Act.sweeps ++ (middle ++ .stop :: late).flatMap Act.sweeps =
      (opened ++ middle ++ late).flatMap Act.sweeps := by simp [Act.sweeps]
  have always {holds : Act → Prop} (first : ∀ act ∈ middle, holds act) (now : holds .stop)
      (second : ∀ act ∈ late, holds act) : ∀ act ∈ middle ++ .stop :: late, holds act :=
    List.forall_mem_append.mpr ⟨first, List.forall_mem_cons.mpr ⟨now, second⟩⟩
  constructor
  · rw [sweepers]
    exact gone
  · exact begun.names
  · exact all
  · intro place known
    rw [width] at known
    obtain ⟨parts, returned⟩ := halting.given known
    split at returned
    · next none => exact Or.inl (List.isEmpty_iff.mp none)
    · rw [returned, List.append_nil] at parts
      exact Or.inr parts.symm
  · exact order
  · intro kind
    simp only [Scene.heap, heap]
    exact waiting kind
  · intro cycle page member
    obtain ⟨steady, still⟩ := List.forall_mem_append.mp cycle
    rw [← same] at member
    simp only [Scene.heap, heap]
    exact trail.swept_pages begun (always youngBefore (by simp [Act.Young, Act.sweeps]) youngAfter)
      (always (List.forall_mem_append.mp steady).2 rfl still)
      (.of_all (fun sweeper member => (gone sweeper member).slot) empty) member
  · rintro ⟨act, inside, prepares⟩ page member
    have now := begun.prepares (fun act member => (calm act member).2) inside prepares
    have owned := begun.owned
      (List.mem_map_of_mem (all.subset (List.mem_append_left _ member)))
    have waits := round.recycled begun.sound youngBefore quiet running ⟨act, now, prepares⟩ owned
    simp only [Scene.heap, heap, waiting]
    obtain ⟨held, found, name⟩ := List.mem_map.mp waits
    exact ⟨held, List.mem_append_left _ found, name⟩
  · intro pending
    rw [width]
    exact report pending
  · exact kept
  · exact closed
  · exact counters
  · refine Coordinator.inProgress_false.mpr fun sweeper member => ?_
    rw [sweepers] at member
    exact (gone sweeper member).flight
  · have flag : coordinator.finalize.2.stopped = true :=
      halted.trans (halting.sound.halted (by simp))
    simp [Coordinator.stop, flag]

/-- A stop that begins at any point of a round comes to its end, in whatever order the sweepers and
the client go on. Each batch has then been swept as a whole, or it has been given back. -/
theorem Opening.stops {id : HeapId} {threads : Nat} {opened middle late : List Act}
    {whole : List Page} {opening ready halt scene : Scene}
    (begun : Opening id threads opened whole opening) (round : Run opening middle ready)
    (quiet : ∀ act ∈ middle, act.isStart = false) (stop : Step ready .stop halt)
    (run : Run halt late scene) (during : ∀ act ∈ late, act.isConclude = false)
    (young : ∀ act ∈ middle ++ late, act.Young) :
    Stopping halt late scene ∧ ∀ last, Step scene .conclude last →
      Stopped opening whole (opened ++ middle ++ late) ready last := by
  have known := begun.opened
  obtain ⟨youngBefore, youngAfter⟩ := List.forall_mem_append.mp young
  have readySound := (round.sound known.sound youngBefore).2
  cases stop with
  | @stop start before running =>
      have haltSound := readySound.stop.1
      obtain ⟨index, nudged, back, halting⟩ := Halting.run run (Halting.start readySound running
        (round.tally known.sound youngBefore quiet running known.tally)) during youngAfter
      refine ⟨⟨(run.sound haltSound youngAfter).1, halting.progress, halting.bound,
        halting.passed⟩, fun last conclude => ?_⟩
      cases conclude with
      | @conclude coordinator hands =>
          have width : coordinator.numThreads = threads := by
            have same := round.hands_length
            rw [known.hands] at same
            exact halting.sound.numThreads.trans (run.hands_length.trans same)
          rw [← width] at known
          exact halting.stopped known round quiet running run (run.busy nofun during).2 young

/-! A stop in the middle of a round. -/

def sampleRace : List Act := [.sweeper 0 .wake, .sweeper 0 .heed]

def sampleStop : List Act :=
  -- It sweeps its page, and the page of the other one comes back.
  [.nudge 0, .sweeper 0 .take, .sweeper 0 (.sweep samplePages.1 (.ok ())),
    .sweeper 0 (.publish .data (.ok ())), .sweeper 0 .conclude, .sweeper 1 .wake,
    .sweeper 0 .leave, .sweeper 0 .signal, .sweeper 0 .wake, .sweeper 0 .heed,
    .sweeper 0 .acknowledge, .join 0 (.ok ()), .nudge 1, .sweeper 1 .heed, .sweeper 1 .acknowledge,
    .join 1 (.ok ())]

theorem sampleStop_run : ∃ last, Run (fresh ⟨0⟩ 2)
    ([.add samplePages.1 (.ok ()), .add samplePages.2 (.ok ())] ++
      .start [] (.ok ()) :: (sampleRace ++ .stop :: (sampleStop ++ [.conclude]))) last := by
  have first : Run (fresh ⟨0⟩ 2) _ _ :=
    .snoc .nil (.add samplePages.1 (.fresh _ _) (by decide) (unused_of_places (by decide)))
  have added : Run (fresh ⟨0⟩ 2) _ _ :=
    .snoc first (.add samplePages.2 (.fresh _ _) (by decide) (unused_of_places (by decide)))
  have started : Run (fresh ⟨0⟩ 2) _ _ := .snoc added (.start rfl rfl)
  have woken : Run (fresh ⟨0⟩ 2) _ _ :=
    .snoc started (@Step.sweeper _ [] [_] _ _ [] [_] _ _ _ _ _ rfl rfl (.wake rfl))
  have heeded : Run (fresh ⟨0⟩ 2) _ _ :=
    .snoc woken (@Step.sweeper _ [] [_] _ _ [] [_] _ _ _ _ _ rfl rfl (.heed rfl))
  have stopped : Run (fresh ⟨0⟩ 2) _ _ := .snoc heeded (.stop rfl)
  have nudged : Run (fresh ⟨0⟩ 2) _ _ := .snoc stopped (@Step.nudge _ _ [] [_] _ rfl)
  have taken : Run (fresh ⟨0⟩ 2) _ _ :=
    .snoc nudged (@Step.sweeper _ [] [_] _ _ [] [_] _ _ _ _ _ rfl rfl (.take rfl))
  have swept : Run (fresh ⟨0⟩ 2) _ _ :=
    .snoc taken (@Step.sweeper _ [] [_] _ _ [] [_] _ _ _ _ _ rfl rfl (.sweep rfl rfl))
  have published : Run (fresh ⟨0⟩ 2) _ _ :=
    .snoc swept (@Step.sweeper _ [] [_] _ _ [] [_] _ _ _ _ _ rfl rfl
      (.publish .data rfl rfl (by decide)))
  have concluded : Run (fresh ⟨0⟩ 2) _ _ :=
    .snoc published (@Step.sweeper _ [] [_] _ _ [] [_] _ _ _ _ _ rfl rfl (.conclude rfl rfl))
  have other : Run (fresh ⟨0⟩ 2) _ _ :=
    .snoc concluded (@Step.sweeper _ [_] [] _ _ [_] [] _ _ _ _ _ rfl rfl (.wake rfl))
  have left : Run (fresh ⟨0⟩ 2) _ _ :=
    .snoc other (@Step.sweeper _ [] [_] _ _ [] [_] _ _ _ _ _ rfl rfl (.leave rfl))
  have signalled : Run (fresh ⟨0⟩ 2) _ _ :=
    .snoc left (@Step.sweeper _ [] [_] _ _ [] [_] _ _ _ _ _ rfl rfl (.signal rfl))
  have again : Run (fresh ⟨0⟩ 2) _ _ :=
    .snoc signalled (@Step.sweeper _ [] [_] _ _ [] [_] _ _ _ _ _ rfl rfl (.wake rfl))
  have leaves : Run (fresh ⟨0⟩ 2) _ _ :=
    .snoc again (@Step.sweeper _ [] [_] _ _ [] [_] _ _ _ _ _ rfl rfl (.heed rfl))
  have exits : Run (fresh ⟨0⟩ 2) _ _ :=
    .snoc leaves (@Step.sweeper _ [] [_] _ _ [] [_] _ _ _ _ _ rfl rfl (.acknowledge rfl))
  have joined : Run (fresh ⟨0⟩ 2) _ _ := .snoc exits (@Step.join _ _ [] [_] _ _ _ rfl rfl)
  have second : Run (fresh ⟨0⟩ 2) _ _ := .snoc joined (@Step.nudge _ _ [_] [] _ rfl)
  have heeds : Run (fresh ⟨0⟩ 2) _ _ :=
    .snoc second (@Step.sweeper _ [_] [] _ _ [_] [] _ _ _ _ _ rfl rfl (.heed rfl))
  have acknowledged : Run (fresh ⟨0⟩ 2) _ _ :=
    .snoc heeds (@Step.sweeper _ [_] [] _ _ [_] [] _ _ _ _ _ rfl rfl (.acknowledge rfl))
  have last : Run (fresh ⟨0⟩ 2) _ _ := .snoc acknowledged (@Step.join _ _ [_] [] _ _ _ rfl rfl)
  have ended : Run (fresh ⟨0⟩ 2) _ _ := .snoc last .conclude
  exact ⟨_, ended⟩

theorem sampleStop_stops : ∃ whole opening ready halt scene last,
    Opening ⟨0⟩ 2 [.start [] (.ok ())] whole opening ∧ Run opening sampleRace ready ∧
      Step ready .stop halt ∧ Run halt sampleStop scene ∧ Stopping halt sampleStop scene ∧
      Stopped opening whole ([.start [] (.ok ())] ++ sampleRace ++ sampleStop) ready last := by
  obtain ⟨last, run⟩ := sampleStop_run
  obtain ⟨before, opening, added, start, rest⟩ := run.at_event
  obtain ⟨ready, halt, race, stop, rest⟩ := rest.at_event
  obtain ⟨scene, late, ended⟩ := rest.split
  have begun : Opening ⟨0⟩ 2 _ _ opening :=
    .start added (by simp [Act.Young, Act.sweeps]) start nofun
  have young : ∀ act ∈ sampleRace ++ sampleStop, act.Young := by
    simp [sampleRace, sampleStop, samplePages, Act.Young, Act.sweeps, Chore.sweeps, Page.fresh,
      Word.halfLimit]
  obtain ⟨stopping, stopped⟩ :=
    begun.stops race (by decide) stop late (by decide) young
  exact ⟨_, opening, ready, halt, scene, last, begun, race, stop, late, stopping,
    stopped last ended.single⟩

end Scene

end Reclaim
