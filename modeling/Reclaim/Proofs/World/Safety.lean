import Mathlib.Data.List.Induction
import Reclaim.Proofs.World.History

/-! Memory safety of the clients: what an allocation hands out is theirs alone until a sweep drops
it, and a sweep drops nothing that is marked. -/

namespace Reclaim

namespace History

variable {id : HeapId} {deeds : List Deed} {world : World}

theorem turn {deed : Deed} (history : History id (deeds ++ [deed]) world) :
    ∃ before : World, before.Sound ∧ Turn before.pages deed world.pages := by
  obtain ⟨before, earlier, step⟩ := history.last
  obtain ⟨sound, numbered⟩ := invariant earlier
  exact ⟨before, sound, (step.sound sound numbered).2.2.2⟩

/-- What a deed hands out stays recorded, and apart from all that is handed out later, as long as no
deed drops it. -/
theorem lasting {early late : List Deed} {deed : Deed} {extent : Extent}
    (history : History id (early ++ deed :: late) world) (obtained : deed.obtained? = some extent)
    (kept : ∀ later ∈ late, ¬ later.Drops extent) :
    Recorded world.pages extent ∧
      ∀ later ∈ late, ∀ other, later.obtained? = some other → extent.Apart other := by
  induction late using List.reverseRecOn generalizing world with
  | nil =>
      obtain ⟨before, _, turn⟩ := history.turn
      exact ⟨turn.hands obtained, by simp⟩
  | append_singleton late final ih =>
      rw [← List.cons_append, ← List.append_assoc] at history
      obtain ⟨before, earlier, step⟩ := history.last
      obtain ⟨recorded, apart⟩ := ih earlier fun later member => kept later (by simp [member])
      obtain ⟨sound, numbered⟩ := invariant earlier
      have turn := (step.sound sound numbered).2.2.2
      refine ⟨turn.keeps recorded (kept final (by simp)), fun later member other handed => ?_⟩
      rcases List.mem_append.mp member with old | new
      · exact apart later old other handed
      · obtain rfl := List.mem_singleton.mp new
        exact turn.apart sound.distinct recorded handed

end History

structure Safe (deeds : List Deed) (world : World) : Prop where
  calm : ∀ deed ∈ deeds, deed.fault? = none
  distinct : (world.pages.map (·.id)).Nodup
  lasting : ∀ early deed late extent, deeds = early ++ deed :: late →
    deed.obtained? = some extent → (∀ later ∈ late, ¬ later.Drops extent) →
    Recorded world.pages extent ∧
      ∀ later ∈ late, ∀ other, later.obtained? = some other → extent.Apart other
  dropped : ∀ early deed extent, deeds = early ++ [deed] → deed.Drops extent →
    ∀ page ∈ world.pages, page.id = extent.page →
      ∀ object ∈ page.objects, object.offset ≠ extent.offset
  survives : ∀ early deed page object, deeds = early ++ [deed] → deed.swept? = some page →
    object ∈ page.objects → object.marked = true →
    ∃ kept ∈ world.pages, kept.id = page.id ∧ { object with marked := false } ∈ kept.objects

/-- Whatever has been done, nothing has faulted, and what was handed out is recorded and apart from
everything handed out since, unless a sweep has dropped it. -/
theorem History.safe {id : HeapId} {deeds : List Deed} {world : World}
    (history : History id deeds world) : Safe deeds world where
  calm := history.sure.1
  distinct := history.invariant.1.distinct
  lasting early deed late extent split obtained kept := by
    subst split
    exact history.lasting obtained kept
  dropped early deed extent split drops := by
    subst split
    obtain ⟨before, sound, turn⟩ := history.turn
    exact turn.drops sound.distinct (fun page member => sound.page member) drops
  survives early deed page object split swept inside marked := by
    subst split
    obtain ⟨before, _, turn⟩ := history.turn
    exact turn.survives swept inside marked

theorem sampleWorld_safe :
    History ⟨0⟩ sampleDeeds sampleWorld ∧ Safe sampleDeeds sampleWorld :=
  ⟨sample_history, sample_history.safe⟩

end Reclaim
