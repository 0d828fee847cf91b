import Reclaim.Proofs.Session.Chronicle
import Reclaim.Proofs.Session.Measure

/-! The balance of a session. What the heap has counted is what the rounds have reported together with
what the client has taken for itself; the counters of the process have only the reports. -/

namespace Reclaim

theorem Heap.totals_addPage (heap : Heap) (page : Page) :
    ((heap.addPage page).toOption.getD heap).totals = heap.totals := by
  unfold addPage
  split <;> rfl

namespace Session

variable {site : Site} {threads : Nat} {first scene next : Scene} {calls : List Call} {call : Call}

def takings (calls : List Call) : List BatchYield := calls.flatMap Call.taken

def outlay (measure : Measure) (calls : List Call) : Nat :=
  ((reported calls).map measure.report).sum + ((takings calls).map measure.of).sum

theorem outlay_snoc (measure : Measure) (calls : List Call) (call : Call) :
    outlay measure (calls ++ [call]) = outlay measure calls + outlay measure [call] := by
  simp only [outlay, reported, takings, List.flatMap_append, List.map_append, List.sum_append]
  omega

theorem outlay_act (measure : Measure) (act : Act) (reports : List RoundReport) :
    outlay measure [.act act reports] = (reports.map measure.report).sum := by
  simp [outlay, reported, takings, Call.reports, Call.taken]

theorem outlay_take (measure : Measure) (index : Nat) (outcome : Option BatchYield) :
    outlay measure [.take index outcome] = (outcome.toList.map measure.of).sum := by
  simp [outlay, reported, takings, Call.reports, Call.taken]

theorem Step.paid (step : Step scene call next) (steady : Steady scene) (young : call.Young)
    (measure : Measure) : measure.Paid scene next (outlay measure [call]) := by
  have act {done : Act} {reports : List RoundReport} {amount : Nat}
      (paid : measure.Paid scene next amount) (same : (reports.map measure.report).sum = amount) :
      measure.Paid scene next (outlay measure [.act done reports]) := by
    rw [outlay_act, same]
    exact paid
  cases step with
  | act step =>
      cases step with
      | sweeper split same move => exact act (.move steady.sound split same move young) rfl
      | add page _ _ _ => exact act (.of_same (Heap.totals_addPage _ page) rfl rfl rfl) rfl
      | start running rest => exact act (.start steady running rest young) rfl
      | wait known waited => exact act (.await steady known waited) rfl
      | ensure waited =>
          obtain ⟨⟨made, rfl⟩, _⟩ := steady.sound.staffed.ensure waited
          exact act (.ensure steady waited) rfl
      | nudge split => exact act (.nudge steady split) rfl
      | join split joins => exact act (.settle steady split joins) rfl
      | conclude => exact act (.finalize _ _ _ _) rfl
      | _ => exact act (.of_same rfl rfl rfl rfl) rfl
  | take taken =>
      rw [outlay_take]
      exact .take steady taken
  | poll split => exact .poll steady split
  | @pollAll coordinator hands =>
      exact (@Coordinator.poll_keeps coordinator (fun middle => Steady ⟨middle, hands, .free⟩ ∧
        measure.Paid ⟨coordinator, hands, .free⟩ ⟨middle, hands, .free⟩ 0)
        ⟨steady, .of_same rfl rfl rfl rfl⟩ fun kept split =>
          ⟨kept.1.poll split, kept.2.trans (.poll kept.1 split)⟩).2
  | stopAgain stopped =>
      rw [Coordinator.stop_again stopped]
      exact .of_same rfl rfl rfl rfl

theorem Run.paid (run : Run first calls scene) (steady : Steady first)
    (young : ∀ call ∈ calls, call.Young) (measure : Measure) :
    measure.Paid first scene (outlay measure calls) := by
  induction run with
  | nil => exact .of_same rfl rfl rfl rfl
  | snoc earlier step ih =>
      obtain ⟨before, here⟩ := List.forall_mem_append.mp young
      rw [outlay_snoc]
      exact (ih before).trans (step.paid (Run.steady earlier steady before) (here _ (by simp)) measure)

structure Totalled (site : Site) (calls : List Call) (scene : Scene) : Prop where
  calm : ∀ call ∈ calls, call.fault? = none
  whole : ∀ measure : Measure, measure.held scene ≡
    measure.totals site.heap.totals + measure.owed scene + ((reported calls).map measure.report).sum +
      ((takings calls).map measure.of).sum [MOD Word.limit]
  heap : scene.coordinator.round.pending = false → ∀ measure : Measure,
    measure.totals scene.heap.totals ≡
      measure.totals site.heap.totals + ((reported calls).map measure.report).sum +
        ((takings calls).map measure.of).sum [MOD Word.limit]
  process : ∀ measure : Measure, measure.counters scene.coordinator.site.counters ≡
    measure.counters site.counters + ((reported calls).map measure.report).sum [MOD Word.limit]
  agreed : scene.coordinator.round.pending = false → takings calls = [] → ∀ measure : Measure,
    measure.totals scene.heap.totals ≡
      measure.totals site.heap.totals + ((reported calls).map measure.report).sum [MOD Word.limit]

/-- The heap has counted what has been reported or taken by the client, and the process what has
been reported. So the two agree as long as the client takes nothing for itself. -/
theorem Run.totalled {id : HeapId} {deeds : List Deed} {loose : List Page}
    (run : Run (opened site threads) calls scene) (history : History id deeds ⟨site.heap, loose, []⟩)
    (word : site.nextRound < Word.limit) (young : ∀ call ∈ calls, call.Young) :
    Totalled site calls scene := by
  have sound := opened_sound history threads
  obtain ⟨calm, steady, _, kept, _⟩ := run.recorded sound word young
  have whole (measure : Measure) : measure.held scene ≡
      measure.totals site.heap.totals + measure.owed scene + ((reported calls).map measure.report).sum +
        ((takings calls).map measure.of).sum [MOD Word.limit] := by
    have paid := run.paid (.opened sound) young measure
    obtain ⟨held, owed⟩ := measure.at_rest (.opened sound) rfl
    unfold Measure.Paid at paid
    rw [held, owed, outlay, Nat.add_zero, ← Nat.add_assoc, ← Nat.add_assoc] at paid
    exact paid
  have heap (closed : scene.coordinator.round.pending = false) (measure : Measure) :
      measure.totals scene.heap.totals ≡
        measure.totals site.heap.totals + ((reported calls).map measure.report).sum +
          ((takings calls).map measure.of).sum [MOD Word.limit] := by
    obtain ⟨held, owed⟩ := measure.at_rest steady closed
    have balance := whole measure
    rwa [held, owed, Nat.add_zero] at balance
  refine ⟨calm, whole, heap, fun measure => ?_, fun closed none measure => ?_⟩
  · obtain ⟨_, pages, freed⟩ := site.counters.recordReports_sums (reported calls)
    have counters : scene.coordinator.site.counters = _ := kept.counters
    rw [counters]
    cases measure with
    | pages => exact pages
    | freed => exact freed
  · have balance := heap closed measure
    rwa [none] at balance

theorem sampleCalls_totalled :
    History ⟨0⟩ (sampleDeeds.take 5) ⟨sampleSite.heap, [], []⟩ ∧
      sampleSite.nextRound < Word.limit ∧ (∀ call ∈ sampleCalls, call.Young) ∧
      ∃ scene, Run (opened sampleSite 1) sampleCalls scene ∧ Totalled sampleSite sampleCalls scene := by
  obtain ⟨scene, run, _⟩ := sampleCalls_run
  have word : sampleSite.nextRound < Word.limit := by decide
  exact ⟨waitingHeap_history, word, sampleCalls_young, scene, run,
    run.totalled waitingHeap_history word sampleCalls_young⟩

/-- The heap counts a page that no round has reported, and neither has the process: its outcome has
been taken by the client. -/
theorem sampleCalls_lost : sampleSite.heap.totals = .zero ∧ sampleSite.counters = .zero ∧ ∃ scene,
    Run (opened sampleSite 1) sampleCalls scene ∧ scene.coordinator.round.pending = false ∧
      ((reported sampleCalls).map (·.pages)).sum = 0 ∧
      ((reported sampleCalls).map (·.freed)).sum = 0 ∧
      scene.heap.totals = ⟨1, 3928, 0⟩ ∧ scene.coordinator.site.counters = ⟨2, 0, 0, 0⟩ := by
  obtain ⟨scene, run, closed, totals, counters⟩ := sampleCalls_run
  exact ⟨rfl, rfl, scene, run, closed, by decide, by decide, totals, counters⟩

end Session

end Reclaim
