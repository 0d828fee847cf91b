import Reclaim.Proofs.Heap.Remarking
import Reclaim.Proofs.Scene.Round

/-! Sweeping an unchanged live set again. Whatever the history of a heap, a cycle in which every object
is marked and a round by any number of threads leave it as it was, but for sweep counts, the order of
pages and blocks, and totals. -/

namespace Reclaim

theorem Heap.publishBatch_totals (heap : Heap) (batch : Heap.Batch) (kind : SpaceKind) :
    (heap.publishBatch batch kind).2.totals = heap.totals := by
  unfold Heap.publishBatch
  split <;> rfl

/-- A deed changes the totals only by sweeping a page, and then they wrap. -/
theorem Step.totals_within {world next : World} {deed : Deed} (step : Step world deed next)
    (sound : world.Sound) (within : world.heap.totals.Within) : next.heap.totals.Within := by
  cases step with
  | add page =>
      rw [Heap.addPage_eq sound.heap]
      exact within
  | sweep first young =>
      rw [(sound.sweep first young).1]
      exact SweepTotals.record_within _ _
  | @publish heap loose before after load kind done =>
      have same : (load.publish heap kind).2.2.totals = heap.totals :=
        heap.publishBatch_totals load.batch kind
      dsimp only
      rwa [same]
  | _ => exact within

namespace History

variable {id : HeapId} {deeds : List Deed} {world : World}

theorem totals_within (history : History id deeds world) : world.heap.totals.Within := by
  induction history with
  | nil => exact SweepTotals.zero_within
  | snoc earlier step ih => exact step.totals_within (invariant earlier).1 ih

/-- A cycle that finds every object of a heap alive changes only what a cycle counts and orders. -/
theorem resettled {offsets : PageId → List Nat} (history : History id deeds world)
    (settled : ∀ kind, (world.heap.space kind).unswept = [])
    (young : ∀ kind, ∀ page ∈ (world.heap.space kind).swept, page.sweeps + 1 < Word.halfLimit)
    (covers : ∀ kind, ∀ page ∈ (world.heap.space kind).swept, ∀ object ∈ page.objects,
      object.offset ∈ offsets page.id) :
    (world.heap.prepare.markEach offsets).RoundsTo world.heap.Resettled := by
  obtain ⟨sound, _⟩ := history.invariant
  have ready := sound.heap.remarked sound.few_heap settled young offsets
  refine (Heap.rounds_to_swept ready).imp fun after alike => ?_
  exact sound.heap.swept_remarked history.totals_within settled covers alike

end History

def sampleOffsets : PageId → List Nat := fun _ => [88, 64]

theorem sampleWorld_resettled :
    (∀ kind, (sampleWorld.heap.space kind).unswept = []) ∧
      (∀ kind, ∀ page ∈ (sampleWorld.heap.space kind).swept, page.sweeps + 1 < Word.halfLimit) ∧
      (∀ kind, ∀ page ∈ (sampleWorld.heap.space kind).swept, ∀ object ∈ page.objects,
        object.offset ∈ sampleOffsets page.id) ∧
      ∃ coordinator : Coordinator, coordinator.numThreads = 2 ∧ coordinator.Quiet ∧
        coordinator.site.heap = sampleWorld.heap.prepare.markEach sampleOffsets ∧
        ∃ acts scene answer done, Scene.Round coordinator acts scene ∧
          scene.coordinator.ensure? = some (answer, done) ∧
          sampleWorld.heap.Resettled done.site.heap := by
  have settled : ∀ kind, (sampleWorld.heap.space kind).unswept = [] := by
    intro kind
    cases kind <;> rfl
  have young : ∀ kind, ∀ page ∈ (sampleWorld.heap.space kind).swept,
      page.sweeps + 1 < Word.halfLimit := by
    intro kind
    cases kind <;> decide
  have covers : ∀ kind, ∀ page ∈ (sampleWorld.heap.space kind).swept, ∀ object ∈ page.objects,
      object.offset ∈ sampleOffsets page.id := by
    intro kind
    cases kind <;> decide
  let site : Site :=
    { Site.fresh ⟨0⟩ with heap := sampleWorld.heap.prepare.markEach sampleOffsets }
  have quiet := Coordinator.fresh_quiet site 2
  obtain ⟨_, reaches⟩ := sample_history.resettled settled young covers (.fresh site 2) quiet rfl
  obtain ⟨acts, scene, answer, done, round, waited⟩ := (reaches [] _ (.opens _)).ends
  have result := (reaches _ scene round).result answer done waited
  exact ⟨settled, young, covers, .fresh site 2, rfl, quiet, rfl, _, scene, answer, done, round, waited,
    result.2.1⟩

end Reclaim
