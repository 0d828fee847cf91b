import Reclaim.Proofs.Session.Steady

/-! The register of a coordinator: which round was started last and whether it has been reported, the
last report, and what the process and the journal have of it. Waits and polls, the chores of the
sweepers and a stop before its end leave the register as it is; a start opens a round in it, and a
report closes one. -/

namespace Reclaim

inductive Mark where
  | opened (id number : Nat)
  | closed (id number pages freed : Nat)
  deriving DecidableEq, Repr

def Entry.mark? : Entry → Option Mark
  | .report (.roundStart id number _ _) => some (.opened id number)
  | .report (.roundComplete id number pages freed) => some (.closed id number pages freed)
  | _ => none

def Site.marks (site : Site) : List Mark := site.journal.toList.filterMap fun line => line.2.mark?

theorem Site.marks_note (site : Site) (actor : Actor) (entry : Entry) :
    (site.note actor entry).marks = site.marks ++ entry.mark?.toList := by
  rw [marks, note, Array.toList_push, List.filterMap_append]
  cases mark : entry.mark? <;> simp [marks, mark]

structure Register where
  number : Nat
  id : Nat
  pending : Bool
  last : Option RoundReport
  counters : Counters
  nextRound : Nat
  marks : List Mark

def Coordinator.register (coordinator : Coordinator) : Register :=
  { number := coordinator.round.number
    id := coordinator.round.id
    pending := coordinator.round.pending
    last := coordinator.round.last
    counters := coordinator.site.counters
    nextRound := coordinator.site.nextRound
    marks := coordinator.site.marks }

theorem Call.closes_of_start (call : Call) (start : call.isStart = true) : call.closes = true := by
  cases call with
  | act act reports => cases act <;> first | rfl | cases start
  | _ => cases start

namespace Register

def opened (register : Register) : Register :=
  { register with
    number := register.number + 1
    id := register.nextRound
    pending := true
    nextRound := Word.wrappingAdd register.nextRound 1
    marks := register.marks ++ [.opened register.nextRound (register.number + 1)] }

def closed (register : Register) : Option RoundReport → Register
  | none => register
  | some report =>
      { register with
        pending := false
        last := some report
        counters := register.counters.recordRound report.pages report.freed
        marks := register.marks ++ [.closed register.id report.number report.pages report.freed] }

theorem closed_number (register : Register) (made : Option RoundReport) :
    (register.closed made).number = register.number := by
  cases made <;> rfl

structure Owes (register : Register) (made : Option RoundReport) : Prop where
  due : made.isSome = register.pending
  number : ∀ report ∈ made, report.number = register.number

inductive Turn (threads : Nat) : Register → Call → Register → Prop
  | still {register : Register} {call : Call} (goesOn : call.closes = false)
      (none : call.reports = []) : Turn threads register call register
  | close {register : Register} {call : Call} {made : Option RoundReport}
      (closes : call.closes = true) (late : call.isStart = false) (owes : register.Owes made)
      (reports : call.reports = made.toList) : Turn threads register call (register.closed made)
  | start {register : Register} {call : Call} {made : Option RoundReport} (some : 0 < threads)
      (start : call.isStart = true) (owes : register.Owes made)
      (reports : call.reports = made.toList) :
      Turn threads register call (register.closed made).opened
  | alone {register : Register} {call : Call} {made : Option RoundReport} {report : RoundReport}
      (nobody : threads = 0) (start : call.isStart = true) (owes : register.Owes made)
      (number : report.number = register.number + 1)
      (reports : call.reports = made.toList ++ [report]) :
      Turn threads register call ((register.closed made).opened.closed (some report))

namespace Turn

variable {threads : Nat} {register later : Register} {call : Call}

theorem open_reports (turn : Turn threads register call later) (goesOn : call.closes = false) :
    call.reports = [] := by
  cases turn with
  | still _ none => exact none
  | close closes _ _ _ => exact nomatch goesOn.symm.trans closes
  | start _ start _ _ => exact nomatch goesOn.symm.trans (call.closes_of_start start)
  | alone _ start _ _ _ => exact nomatch goesOn.symm.trans (call.closes_of_start start)

theorem alone_reports (turn : Turn threads register call later) (nobody : threads = 0)
    (starting : call.isStart = true) (rest : register.pending = false) :
    ∃ report, call.reports = [report] ∧ report.number = register.number + 1 := by
  cases turn with
  | still goesOn _ => exact nomatch goesOn.symm.trans (call.closes_of_start starting)
  | close _ other _ _ => exact nomatch other.symm.trans starting
  | start some _ _ _ => omega
  | @alone made report _ _ owes number reports =>
      have none : made = none := by simpa using owes.due.trans rest
      rw [none] at reports
      exact ⟨report, reports, number⟩

theorem close_reports (turn : Turn threads register call later) (some : 0 < threads)
    (closes : call.closes = true) (pending : register.pending = true) :
    ∃ report, call.reports = [report] ∧ report.number = register.number := by
  have one {made : Option RoundReport} (owes : register.Owes made)
      (reports : call.reports = made.toList) :
      ∃ report, call.reports = [report] ∧ report.number = register.number := by
    obtain ⟨report, rfl⟩ := Option.isSome_iff_exists.mp (owes.due.trans pending)
    exact ⟨report, reports, owes.number report rfl⟩
  cases turn with
  | still goesOn _ => exact nomatch goesOn.symm.trans closes
  | close _ _ owes reports => exact one owes reports
  | start _ _ owes reports => exact one owes reports
  | alone nobody _ _ _ _ => omega

end Turn

end Register

theorem RoundState.merge_frame (round : RoundState) (index : Nat) (outcome : BatchYield) :
    ∃ merged entries, (round.merge index outcome).2 =
      { round with merged := merged, perThread := entries } := by
  unfold merge
  split
  · exact ⟨_, _, rfl⟩
  · split
    · exact ⟨_, _, rfl⟩
    · split <;> exact ⟨_, _, rfl⟩

namespace Coordinator

variable {coordinator next : Coordinator} {index : Nat}

theorem note_register (coordinator : Coordinator) (actor : Actor) {entry : Entry}
    (none : entry.mark? = none) : (coordinator.note actor entry).register = coordinator.register := by
  simp only [register, note, Site.marks_note, none, Option.toList_none, List.append_nil]
  rfl

theorem finalize_register (coordinator : Coordinator) :
    coordinator.register.Owes coordinator.finalize.1 ∧
      coordinator.finalize.2.register = coordinator.register.closed coordinator.finalize.1 := by
  cases pending : coordinator.round.pending with
  | false =>
      rw [finalize_closed pending]
      exact ⟨⟨pending.symm, nofun⟩, rfl⟩
  | true =>
      simp only [finalize, pending, if_true]
      refine ⟨⟨pending.symm, fun report same => by cases same; rfl⟩, ?_⟩
      simp only [register, note, Site.marks_note, Register.closed]
      rfl

theorem merge_register (coordinator : Coordinator) (index : Nat) (outcome : Option BatchYield) :
    (coordinator.merge index outcome).2.register = coordinator.register := by
  cases outcome with
  | none => rfl
  | some outcome =>
      obtain ⟨merged, entries, same⟩ := coordinator.round.merge_frame index outcome
      simp only [merge, register, same]

theorem takeOutcome?_register {outcome : Option BatchYield}
    (taken : coordinator.takeOutcome? index = .ok (some (outcome, next))) :
    next.register = coordinator.register := by
  unfold takeOutcome? at taken
  split at taken
  · cases taken
  · obtain ⟨_, _, same⟩ := Option.map_eq_some_iff.mp (Except.ok.inj taken)
    cases same
    rfl

theorem await?_register {answer : Except Fault Unit}
    (waited : coordinator.await? index = some (answer, next)) :
    next.register = coordinator.register := by
  unfold await? at waited
  split at waited
  · cases waited
    rfl
  · cases waited
  · next outcome middle taken =>
      have merged := middle.merge_register index outcome
      rw [Option.some.inj waited] at merged
      exact merged.trans (takeOutcome?_register taken)

theorem awaitEach?_register {indices : List Nat} {answer : Except Fault Unit}
    (waited : coordinator.awaitEach? indices = some (answer, next)) :
    next.register = coordinator.register := by
  induction indices generalizing coordinator with
  | nil =>
      cases waited
      rfl
  | cons index rest ih =>
      rw [awaitEach?] at waited
      split at waited
      · cases waited
      · next failed =>
          cases waited
          exact await?_register failed
      · next first => exact (ih waited).trans (await?_register first)

theorem ensure_register {hands : List Load} {answer : Except Fault (Option RoundReport)}
    (staffed : coordinator.Staffed hands) (waited : coordinator.ensure? = some (answer, next)) :
    ∃ made, answer = .ok made ∧ coordinator.register.Owes made ∧
      next.register = coordinator.register.closed made := by
  obtain ⟨last, all, rfl, rfl⟩ := staffed.ensure_eq waited
  rw [← awaitEach?_register all]
  exact ⟨_, rfl, last.finalize_register⟩

theorem settle_register (coordinator : Coordinator) (index : Nat) (left : Assignment)
    (joined : Sweeper) :
    (coordinator.settle index left joined).2.register = coordinator.register := by
  have merged := (coordinator.setSweeper joined.takeOutcome.2).merge_register index
    joined.takeOutcome.1
  unfold settle
  split
  · next failed =>
      rw [failed] at merged
      exact merged
  · next last answered =>
      rw [answered] at merged
      refine Eq.trans ?_ merged
      unfold giveBack
      split
      · rfl
      · exact last.note_register .main rfl

theorem sweepHere_register {pages : List Page} (pending : coordinator.round.pending = true)
    (calm : (coordinator.sweepHere pages).1 = .ok ()) :
    ∃ report, report.number = coordinator.register.number ∧
      (coordinator.sweepHere pages).2.register = coordinator.register.closed (some report) := by
  unfold sweepHere at calm ⊢
  split at calm
  · cases calm
  · next merged site swept =>
      have kept : ({ coordinator with site, round := { coordinator.round with merged } } :
          Coordinator).register = coordinator.register := by
        unfold Site.sweepPages at swept
        split at swept
        · cases swept
        · cases swept
          exact note_register { coordinator with site := { coordinator.site with heap := _ } } .main rfl
      obtain ⟨⟨made, number⟩, closed⟩ := finalize_register
        { coordinator with site, round := { coordinator.round with merged } }
      rw [kept] at made number closed
      obtain ⟨report, same⟩ := Option.isSome_iff_exists.mp (made.trans pending)
      rw [same] at number closed
      exact ⟨report, number report rfl, closed⟩

theorem dispatch_register (coordinator : Coordinator) (pages : List Page) :
    (coordinator.dispatch pages).2.register = coordinator.register := by
  unfold dispatch
  split <;> rfl

def begun (coordinator : Coordinator) : Coordinator :=
  let heap := coordinator.site.heap.takeUnswept.2
  let opened := { coordinator with site := { coordinator.site with heap } }.openRound
  let pages := coordinator.site.heap.takeUnswept.1.length
  (opened.note .main (.enter (.sweepRound opened.round.id opened.numThreads pages))).note .main
    (.report (.roundStart opened.round.id opened.round.number opened.numThreads pages))

theorem begun_register (coordinator : Coordinator) :
    coordinator.begun.register = coordinator.register.opened := by
  simp only [begun, note, register, Site.marks_note, Entry.mark?, Option.toList_none,
    List.append_nil]
  rfl

theorem start_begun (running : coordinator.stopped = false)
    (rest : coordinator.inProgress = false) :
    ∃ span, coordinator.start =
      let after := coordinator.finalize.2
      let pages := after.site.heap.takeUnswept.1
      let started :=
        if after.numThreads = 0 then after.begun.sweepHere pages else after.begun.dispatch pages
      (started.1, started.2.note .main (.leave span)) := by
  unfold start
  simp only [running, rest, Bool.false_eq_true, if_false]
  exact ⟨_, rfl⟩

theorem start_register (running : coordinator.stopped = false)
    (rest : coordinator.inProgress = false) (calm : coordinator.start.1 = .ok ()) :
    (0 < coordinator.numThreads → coordinator.start.2.register =
      (coordinator.register.closed coordinator.finalize.1).opened) ∧
    (coordinator.numThreads = 0 → ∃ report, report.number = coordinator.register.number + 1 ∧
      coordinator.start.2.register =
        (coordinator.register.closed coordinator.finalize.1).opened.closed (some report)) := by
  obtain ⟨_, sweepers, _⟩ := coordinator.finalize_frame
  obtain ⟨_, closed⟩ := coordinator.finalize_register
  have many : coordinator.finalize.2.numThreads = coordinator.numThreads := congrArg List.length sweepers
  obtain ⟨span, started⟩ := start_begun running rest
  rw [started] at calm ⊢
  dsimp only at calm ⊢
  rw [note_register _ _ rfl, many, ← closed, ← begun_register]
  rw [many] at calm
  constructor
  · intro some
    rw [if_neg (Nat.ne_of_gt some), dispatch_register]
  · intro nobody
    rw [if_pos nobody] at calm ⊢
    obtain ⟨report, same, last⟩ := sweepHere_register rfl calm
    refine ⟨report, ?_, last⟩
    rw [same, begun_register, closed, Register.opened, Register.closed_number]

end Coordinator

theorem Move.register {stop : Bool} {sweeper next : Sweeper} {load taken : Load} {site : Site}
    {chore : Chore} {coordinator : Coordinator} {sweepers : List Sweeper}
    (move : Move stop sweeper load coordinator.site chore next taken site) :
    { coordinator with site, sweepers }.register = coordinator.register := by
  cases move <;> simp only [Coordinator.register, Site.marks_note, Entry.mark?, Option.toList_none,
    List.append_nil] <;> rfl

namespace Session

variable {scene next : Scene} {call : Call}

theorem Step.turn (step : Step scene call next) (sound : scene.Sound) (young : call.Young) :
    Register.Turn scene.coordinator.numThreads scene.coordinator.register call
      next.coordinator.register := by
  have calm := (step.sound sound young).1
  cases step with
  | act act =>
      cases act with
      | sweeper _ _ move =>
          rw [move.register]
          exact .still rfl rfl
      | @start coordinator hands running rest =>
          have answered : coordinator.start.1 = .ok () := by
            cases answer : coordinator.start.1 with
            | ok => rfl
            | error fault => simp [Call.fault?, Act.fault?, answer] at calm
          obtain ⟨owes, _⟩ := coordinator.finalize_register
          obtain ⟨staffed, alone⟩ := Coordinator.start_register running rest answered
          dsimp only
          rcases Nat.eq_zero_or_pos coordinator.numThreads with nobody | some
          · obtain ⟨report, number, closed⟩ := alone nobody
            have last : coordinator.start.2.round.last = Option.some report :=
              congrArg Register.last closed
            rw [closed]
            refine .alone nobody rfl owes number ?_
            simp [Call.reports, Act.reports, nobody, last]
          · rw [staffed some]
            refine .start some rfl owes ?_
            simp [Call.reports, Act.reports, Nat.ne_of_gt some]
      | wait _ waited =>
          rw [Coordinator.await?_register waited]
          exact .still rfl rfl
      | ensure waited =>
          obtain ⟨made, rfl, owes, closed⟩ := Coordinator.ensure_register sound.staffed waited
          rw [closed]
          exact .close rfl rfl owes rfl
      | @join coordinator hands before after sweeper joined left split joins =>
          rw [coordinator.settle_register]
          exact .still rfl rfl
      | @conclude coordinator hands =>
          obtain ⟨owes, closed⟩ := coordinator.finalize_register
          rw [closed]
          exact .close rfl rfl owes rfl
      | _ => exact .still rfl rfl
  | take taken =>
      rw [Coordinator.takeOutcome?_register taken]
      exact .still rfl rfl
  | stopAgain stopped =>
      rw [Coordinator.stop_again stopped]
      exact .still rfl rfl
  | _ => exact .still rfl rfl

end Session

end Reclaim
