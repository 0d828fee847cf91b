import Reclaim.Proofs.Callers.Account

/-! What a report of a round says when several callers are about. It falls short of the round by what
other callers have taken from sweepers and not merged yet, and by nothing else; in the end nothing is
lost, but a report is not given twice. -/

namespace Reclaim

open Caller (carrying carryingFor)

/-- Without sweepers the round has been swept and reported by its start. -/
theorem Coordinator.Quiet.account_here {coordinator : Coordinator} (quiet : coordinator.Quiet)
    (alone : coordinator.numThreads = 0)
    (ready : coordinator.site.heap.takeUnswept.2.Ready coordinator.site.heap.takeUnswept.1) :
    ∃ books, Account coordinator.site.heap.takeUnswept.2 coordinator.site.heap.takeUnswept.1 []
      books (.opened coordinator) := by
  have nobody : coordinator.sweepers = [] := List.eq_nil_of_length_eq_zero alone
  have swept := Heap.sweepPages_ok ready.sweepable ready.lists ready.totals
  obtain ⟨site, round, report, started, heap, closed, _, entries, merged, _⟩ :=
    start_here quiet.running alone swept
  refine ⟨{ round with pending := true }, ?_⟩
  rw [Lobby.opened, started, alone]
  constructor
  · constructor
    · have team := quiet.team
      rwa [alone] at team
    · exact quiet.running
    · rfl
    · simp [entries]
    · simp [entries, nobody]
    · simp only [merged, nobody]
      exact BatchYield.plus_zero _
    · simp [RoundState.settled, entries]
    · simp
    · refine ⟨coordinator.site.heap.takeUnswept.1, ?_, ?_⟩
      · simp [aheads, nobody]
      · simp only [heap]
        rfl
    · intro kind
      refine ⟨renewedIn kind coordinator.site.heap.takeUnswept.1, ?_, ?_⟩
      · simp only [heap]
        exact Heap.space_reclaim _ _ kind
      · simp [comings, nobody]
    · simp only [heap]
      rfl
    · simp only [heap]
      rfl
  · exact BatchYield.plus_zero _
  · intro pending
    simp [closed] at pending
  · simp [entries]
  · simp

theorem Coordinator.Quiet.account {coordinator : Coordinator} (quiet : coordinator.Quiet)
    (ready : coordinator.site.heap.takeUnswept.2.Ready coordinator.site.heap.takeUnswept.1) :
    ∃ books, Account coordinator.site.heap.takeUnswept.2 coordinator.site.heap.takeUnswept.1
      ((List.range coordinator.numThreads).map
        (batchSize coordinator.site.heap.takeUnswept.1.length coordinator.numThreads))
      books (.opened coordinator) := by
  rcases Nat.eq_zero_or_pos coordinator.numThreads with alone | some
  · obtain ⟨books, account⟩ := quiet.account_here alone ready
    refine ⟨books, ?_⟩
    rwa [alone]
  · obtain ⟨_, ledger, _, _⟩ := quiet.start some
    refine ⟨coordinator.start.2.round, ledger, BatchYield.plus_zero _, ?_, ledger.small, ?_⟩
    · intro _ index
      exact (Option.map_id_apply).symm
    · simp [Lobby.opened]

namespace Lobby

variable {lobby next : Lobby} {errand : Errand} {errands : List Errand}

theorem Step.reporting {answer : Option RoundReport} (step : Step lobby (.report answer) next) :
    ∃ first last, lobby.callers = first ++ ⟨[], none, true⟩ :: last ∧
      lobby.coordinator.finalize.1 = answer := by
  generalize kind : Errand.report answer = errand at step
  cases step with
  | report =>
      cases kind
      exact ⟨_, _, rfl, rfl⟩
  | _ => cases kind

structure Accounted (whole : List Page) (shares : List Nat) (errands : List Errand) (lobby : Lobby) :
    Prop where
  calm : ∀ errand ∈ errands, errand.fault? = none
  once : (errands.filterMap Errand.report?).length ≤ 1
  totals : lobby.coordinator.round.merged.plus
    ((carrying lobby.callers).plus (dues lobby.coordinator.sweepers lobby.hands)) = harvest whole
  missed : ∀ report next, Step lobby (.report (some report)) next →
    report.pages + (carrying lobby.callers).pages = whole.length ∧
      report.freed + (carrying lobby.callers).freed = (harvest whole).freed ∧
      ∀ index, report.perThread[index]?.map (· + carryingFor index lobby.callers) = shares[index]?
  exact : (∀ caller ∈ lobby.callers, caller.carried = none) →
    ∀ report next, Step lobby (.report (some report)) next →
      report.pages = whole.length ∧ report.freed = (harvest whole).freed ∧ report.perThread = shares
  settled : (∀ caller ∈ lobby.callers, caller.carried = none) →
    (∀ sweeper ∈ lobby.coordinator.sweepers, sweeper.inFlight = false) →
      lobby.coordinator.round.merged = harvest whole

theorem Run.account {base : Heap} {whole : List Page} {shares : List Nat} {books : RoundState}
    {first : Lobby} (run : Run first errands lobby) (ready : base.Ready whole)
    (account : Account base whole shares books first) :
    (∀ errand ∈ errands, errand.fault? = none) ∧
      (∃ later, Account base whole shares later lobby) ∧
      (errands.filterMap Errand.report?).length + lobby.coordinator.round.pending.toNat =
        first.coordinator.round.pending.toNat := by
  induction run with
  | nil => exact ⟨by simp, ⟨books, account⟩, Nat.zero_add _⟩
  | @snoc errands errand lobby next _ step ih =>
      obtain ⟨calm, ⟨between, kept⟩, counted⟩ := ih
      obtain ⟨still, later, more⟩ := kept.step ready step
      refine ⟨List.forall_mem_append.mpr ⟨calm, by simpa using still⟩, later, ?_⟩
      have one : ([errand].filterMap Errand.report?).length = errand.report?.toList.length := by
        cases answer : errand.report? <;> simp [answer]
      rw [List.filterMap_append, List.length_append, one]
      omega

/-- A round is reported once at most, and nothing is lost. The report tells the round but for what
other callers carry at that moment. -/
theorem Run.accounted {coordinator : Coordinator} (quiet : coordinator.Quiet)
    (ready : coordinator.site.heap.takeUnswept.2.Ready coordinator.site.heap.takeUnswept.1)
    (run : Run (opened coordinator) errands lobby) :
    Accounted coordinator.site.heap.takeUnswept.1
      ((List.range coordinator.numThreads).map
        (batchSize coordinator.site.heap.takeUnswept.1.length coordinator.numThreads))
      errands lobby := by
  obtain ⟨books, start⟩ := quiet.account ready
  obtain ⟨calm, ⟨later, account⟩, counted⟩ := run.account ready start
  have missed : ∀ report next, Step lobby (.report (some report)) next →
      report.pages + (carrying lobby.callers).pages = coordinator.site.heap.takeUnswept.1.length ∧
        report.freed + (carrying lobby.callers).freed =
          (harvest coordinator.site.heap.takeUnswept.1).freed ∧
        ∀ index, report.perThread[index]?.map (· + carryingFor index lobby.callers) =
          ((List.range coordinator.numThreads).map
            (batchSize coordinator.site.heap.takeUnswept.1.length coordinator.numThreads))[index]? := by
    intro report next step
    obtain ⟨first, last, waiting, told⟩ := step.reporting
    obtain ⟨middle, hands, callers⟩ := lobby
    dsimp only at waiting told ⊢
    subst waiting
    exact account.report rfl rfl told
  refine ⟨calm, ?_, account.total, missed, ?_, ?_⟩
  · have bound := (opened coordinator).coordinator.round.pending.toNat_le
    omega
  · intro empty report next step
    obtain ⟨pages, freed, entries⟩ := missed report next step
    obtain ⟨nothing, none⟩ := Caller.carrying_none empty
    rw [nothing] at pages freed
    refine ⟨pages, freed, List.ext_getElem? fun index => ?_⟩
    rw [← entries index, none]
    exact Option.map_id_apply.symm
  · intro empty rest
    obtain ⟨nothing, _⟩ := Caller.carrying_none empty
    obtain ⟨_, _, paid⟩ := account.ledger.team.rest rest
    rw [← account.total, nothing]
    dsimp only at paid
    rw [paid, BatchYield.zero_plus, BatchYield.plus_zero]

/-- One caller has the outcome of the only sweeper, and another one is about to report the round. It may
do so at once, or after the first one has merged. -/
theorem sampleRound_turns : ∃ lobby errands, Run (opened (Scene.sampleRound 1)) errands lobby ∧
    (carrying lobby.callers).pages = 3 ∧
    (∃ next report, Step lobby (.report (some report)) next ∧ report.pages = 0 ∧ report.freed = 0 ∧
      ∃ merged last, Step next (.merge 0 (.ok ())) merged ∧ Step merged .leave last ∧
        last.callers = [] ∧ last.coordinator.round.last = some report ∧
        last.coordinator.round.merged.pages = 3 ∧ last.coordinator.round.merged.freed = 12096) ∧
    ∃ merged, Step lobby (.merge 0 (.ok ())) merged ∧
      (∀ caller ∈ merged.callers, caller.carried = none) ∧
      ∃ next report, Step merged (.report (some report)) next ∧ report.pages = 3 ∧
        report.freed = 12096 ∧ report.perThread = [3] := by
  have called : Run (opened (Scene.sampleRound 1)) _ _ := .snoc .nil (@Step.wait _ _ _ 0 (by decide))
  have woken : Run (opened (Scene.sampleRound 1)) _ _ :=
    .snoc called (@Step.sweeper _ [] [] _ _ [] [] _ _ _ _ _ rfl rfl (.wake rfl))
  have heeded : Run (opened (Scene.sampleRound 1)) _ _ :=
    .snoc woken (@Step.sweeper _ [] [] _ _ [] [] _ _ _ _ _ rfl rfl (.heed rfl))
  have begun : Run (opened (Scene.sampleRound 1)) _ _ :=
    .snoc heeded (@Step.sweeper _ [] [] _ _ [] [] _ _ _ _ _ rfl rfl (.take rfl))
  have first : Run (opened (Scene.sampleRound 1)) _ _ :=
    .snoc begun (@Step.sweeper _ [] [] _ _ [] [] _ _ _ _ _ rfl rfl (.sweep rfl rfl))
  have second : Run (opened (Scene.sampleRound 1)) _ _ :=
    .snoc first (@Step.sweeper _ [] [] _ _ [] [] _ _ _ _ _ rfl rfl (.sweep rfl rfl))
  have third : Run (opened (Scene.sampleRound 1)) _ _ :=
    .snoc second (@Step.sweeper _ [] [] _ _ [] [] _ _ _ _ _ rfl rfl (.sweep rfl rfl))
  have data : Run (opened (Scene.sampleRound 1)) _ _ :=
    .snoc third (@Step.sweeper _ [] [] _ _ [] [] _ _ _ _ _ rfl rfl (.publish .data rfl rfl (by decide)))
  have pointer : Run (opened (Scene.sampleRound 1)) _ _ :=
    .snoc data (@Step.sweeper _ [] [] _ _ [] [] _ _ _ _ _ rfl rfl (.publish .pointer rfl rfl (by decide)))
  have concluded : Run (opened (Scene.sampleRound 1)) _ _ :=
    .snoc pointer (@Step.sweeper _ [] [] _ _ [] [] _ _ _ _ _ rfl rfl (.conclude rfl rfl))
  have left : Run (opened (Scene.sampleRound 1)) _ _ :=
    .snoc concluded (@Step.sweeper _ [] [] _ _ [] [] _ _ _ _ _ rfl rfl (.leave rfl))
  have signalled : Run (opened (Scene.sampleRound 1)) _ _ :=
    .snoc left (@Step.sweeper _ [] [] _ _ [] [] _ _ _ _ _ rfl rfl (.signal rfl))
  have taken : Run (opened (Scene.sampleRound 1)) _ _ :=
    .snoc signalled (@Step.take _ _ _ [] [] 0 _ _ _ rfl)
  have another : Run (opened (Scene.sampleRound 1)) _ _ := .snoc taken .ensure
  have waited : Run (opened (Scene.sampleRound 1)) _ _ :=
    .snoc another (@Step.take _ _ _ [_] [] 0 _ _ _ rfl)
  refine ⟨_, _, waited, rfl, ?_, _, @Step.merge _ _ [] [_] 0 [] _ _, ?_, _, _, @Step.report _ _ [_] [],
    rfl, rfl, rfl⟩
  · exact ⟨_, _, @Step.report _ _ [_] [], rfl, rfl, _, _, @Step.merge _ _ [] [] 0 [] _ _,
      @Step.leave _ _ [] [], rfl, rfl, rfl, rfl⟩
  · simp

/-- What holds in the run above, where the report misses what the first caller carries, and where it is
exact. -/
theorem sampleRound_accounted :
    (Scene.sampleRound 1).Quiet ∧ Scene.sampleHeap.takeUnswept.2.Ready Scene.sampleHeap.takeUnswept.1 ∧
      ∃ lobby errands, Run (opened (Scene.sampleRound 1)) errands lobby ∧
        (carrying lobby.callers).pages = 3 ∧ (∃ report next, Step lobby (.report (some report)) next) ∧
        Accounted Scene.sampleHeap.takeUnswept.1 [3] errands lobby ∧
        ∃ merged, Run (opened (Scene.sampleRound 1)) (errands ++ [.merge 0 (.ok ())]) merged ∧
          (∀ caller ∈ merged.callers, caller.carried = none) ∧
          (∃ report next, Step merged (.report (some report)) next ∧
            Accounted Scene.sampleHeap.takeUnswept.1 [3]
              (errands ++ [.merge 0 (.ok ())] ++ [.report (some report)]) next) ∧
          Accounted Scene.sampleHeap.takeUnswept.1 [3] (errands ++ [.merge 0 (.ok ())]) merged := by
  have quiet := Coordinator.fresh_quiet { Site.fresh ⟨0⟩ with heap := Scene.sampleHeap } 1
  obtain ⟨lobby, errands, run, carried, ⟨early, report, reporting, _⟩, merged, merging, empty, next, told,
    telling, _⟩ := sampleRound_turns
  have later : Run (opened (Scene.sampleRound 1)) _ _ := run.snoc merging
  have last : Run (opened (Scene.sampleRound 1)) _ _ := later.snoc telling
  exact ⟨quiet, Scene.sampleHeap_ready, lobby, errands, run, carried, ⟨report, early, reporting⟩,
    Run.accounted quiet Scene.sampleHeap_ready run, merged, later, empty,
    ⟨told, next, telling, Run.accounted quiet Scene.sampleHeap_ready last⟩,
    Run.accounted quiet Scene.sampleHeap_ready later⟩

/-- The first caller has the outcome of the only sweeper when another one reports the round. -/
theorem sampleRound_late : ∃ lobby errands, Run (opened (Scene.sampleRound 1)) errands lobby ∧
    ∃ next report, Step lobby (.report (some report)) next ∧ report.pages = 0 ∧ report.freed = 0 ∧
      ∃ merged last, Step next (.merge 0 (.ok ())) merged ∧ Step merged .leave last ∧
        last.callers = [] ∧ last.coordinator.round.last = some report ∧
        last.coordinator.round.merged.pages = 3 ∧ last.coordinator.round.merged.freed = 12096 := by
  obtain ⟨lobby, errands, run, _, early, _⟩ := sampleRound_turns
  exact ⟨lobby, errands, run, early⟩

end Lobby

end Reclaim
