import Reclaim.Proofs.Scene.Sound
import Reclaim.Proofs.Session.Basic

/-! A session stays sound. A poll changes nothing but a latch, and an outcome that the client takes for
itself is one that the books will not get: both leave the pages where they are, and the sweepers their
handshakes. -/

namespace Reclaim

namespace Coordinator

variable {coordinator next : Coordinator} {hands : List Load} {index : Nat}
  {outcome : Option BatchYield}

theorem takeOutcome?_known
    (taken : coordinator.takeOutcome? index = .ok (some (outcome, next))) :
    index < coordinator.numThreads := by
  by_contra beyond
  have none := List.getElem?_eq_none (Nat.le_of_not_lt beyond)
  simp [takeOutcome?, sweeper, none] at taken

theorem poll_keeps {kept : Coordinator → Prop} (start : kept coordinator)
    (step : ∀ {coordinator : Coordinator} {before after : List Sweeper} {sweeper : Sweeper},
      kept coordinator → coordinator.sweepers = before ++ sweeper :: after →
      kept { coordinator with sweepers := before ++ sweeper.poll.2 :: after }) :
    kept coordinator.poll.2 := by
  have each (rest : List Sweeper) : ∀ {coordinator : Coordinator} {before : List Sweeper},
      kept coordinator → coordinator.sweepers = before ++ rest →
      kept { coordinator with sweepers := before ++ (pollEach rest).2 } := by
    induction rest with
    | nil =>
        intro coordinator before start split
        rw [show before ++ (pollEach []).2 = coordinator.sweepers from split.symm]
        exact start
    | cons sweeper rest ih =>
        intro coordinator before start split
        have polled := step start split
        rw [pollEach]
        split
        next answered =>
          rw [answered] at polled
          exact polled
        next latched answered =>
          rw [answered] at polled
          have later := @ih _ (before ++ [latched]) polled (by simp)
          simpa using later
  exact @each coordinator.sweepers coordinator [] start rfl

namespace Staffed

theorem take (staffed : coordinator.Staffed hands)
    (taken : coordinator.takeOutcome? index = .ok (some (outcome, next))) :
    coordinator.Keeps hands next := by
  obtain ⟨before, sweeper, after, split, rfl⟩ := split_at (takeOutcome?_known taken)
  obtain ⟨team, books⟩ := staffed
  rw [split] at team books
  obtain ⟨early, load, late, rfl, same⟩ := team.find
  obtain ⟨place, shake, replace⟩ := team.middle same
  rcases takeOutcome?_eq split place taken with ⟨_, _, rfl⟩ | ⟨flight, ended, _, rfl⟩
  · exact ⟨⟨by rwa [split], by rwa [split]⟩, rfl, rfl, rfl⟩
  · rw [dues_middle same] at books
    refine ⟨⟨replace _ _ rfl (shake.awaited flight ended), ?_⟩, rfl, rfl, ?_⟩
    · dsimp only
      rw [dues_middle same, shake.due_awaited ended, BatchYield.zero_plus]
      exact books.less
    · simp [slots, split, Sweeper.awaited]

theorem poll {before after : List Sweeper} {sweeper : Sweeper} (staffed : coordinator.Staffed hands)
    (split : coordinator.sweepers = before ++ sweeper :: after) :
    coordinator.Keeps hands { coordinator with sweepers := before ++ sweeper.poll.2 :: after } := by
  obtain ⟨team, books⟩ := staffed
  rw [split] at team books
  obtain ⟨early, load, late, rfl, same⟩ := team.find
  obtain ⟨_, shake, replace⟩ := team.middle same
  rw [sweeper.poll_eq]
  refine ⟨⟨replace _ _ rfl (shake.relatch _), ?_⟩, rfl, rfl, ?_⟩
  · dsimp only
    rw [dues_middle same] at books ⊢
    exact books
  · simp [slots, split]

theorem pollAll (staffed : coordinator.Staffed hands) :
    coordinator.Keeps hands coordinator.poll.2 :=
  poll_keeps ⟨staffed, rfl, rfl, rfl⟩ fun keeps split => keeps.trans (keeps.staffed.poll split)

end Staffed

theorem stop_again (stopped : coordinator.stopped = true) :
    coordinator.stop = (.ok (), coordinator) := by
  simp [stop, stopped]

end Coordinator

namespace Session

variable {scene next first : Scene} {call : Call} {calls : List Call}

theorem Step.sound (step : Step scene call next) (sound : scene.Sound) (young : call.Young) :
    call.fault? = none ∧ next.Sound := by
  cases step with
  | act step =>
      obtain ⟨calm, kept, _⟩ := step.sound sound young
      exact ⟨calm, kept⟩
  | take taken => exact ⟨rfl, sound.still (sound.staffed.take taken)⟩
  | poll split => exact ⟨rfl, sound.still (sound.staffed.poll split)⟩
  | pollAll => exact ⟨rfl, sound.still sound.staffed.pollAll⟩
  | stopAgain stopped =>
      rw [Coordinator.stop_again stopped]
      exact ⟨rfl, sound⟩

theorem opened_sound {id : HeapId} {deeds : List Deed} {site : Site} {loose : List Page}
    (history : History id deeds ⟨site.heap, loose, []⟩) (threads : Nat) :
    (opened site threads).Sound := by
  obtain ⟨whole, numbered⟩ := history.invariant
  have parted : (World.mk site.heap loose []).pages.Perm
      (loose ++ (World.mk site.heap [] []).pages) := by
    simp only [World.pages, List.flatMap_nil, List.append_nil]
    exact List.perm_append_comm
  refine Scene.idle_sound site threads ⟨whole.heap, by simp, by simp, ?_, ?_⟩ fun page member => ?_
  · have distinct := (parted.map (·.id)).nodup_iff.mp whole.distinct
    exact distinct.sublist ((List.sublist_append_right _ _).map _)
  · have few := whole.few
    rw [parted.length_eq, List.length_append] at few
    omega
  · have known := List.mem_map_of_mem (f := Page.id)
      (show page ∈ (World.mk site.heap loose []).pages by simp [World.pages, member])
    obtain ⟨number, bound, same⟩ := List.mem_map.mp (numbered.numbers.mem_iff.mp known)
    rw [← same]
    exact Nat.lt_trans (List.mem_range.mp bound) numbered.bounded

end Session

end Reclaim
