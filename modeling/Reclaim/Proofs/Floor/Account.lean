import Reclaim.Proofs.Floor.Basic
import Mathlib.Data.List.Count
import Mathlib.Logic.Function.Iterate

/-! The accounts of a floor. Every task that was taken in waits, is run by one thread, or has been run to its
end by one; the counter of the process counts the tasks that workers have completed. The accounts are
kept for any selection of threads: for all, for a group, for one thread, for the workers. -/

namespace Reclaim

abbrev Selection := Nat → Station → Nat → Bool

namespace Selection

def all : Selection := fun _ _ _ => true

def ofSquad (number : Nat) : Selection := fun other _ _ => other == number

def ofHand (number place : Nat) : Selection := fun other _ position =>
  other == number && position == place

def workers : Selection := fun _ station _ => station.runner == .worker

end Selection

def Squad.handsOf (squad : Squad) (chosen : Nat → Bool) : List Hand :=
  squad.hands.zipIdx.flatMap fun entry => if chosen entry.2 then [entry.1] else []

def Floor.handsOf (floor : Floor) (chosen : Selection) : List Hand :=
  floor.squads.zipIdx.flatMap fun entry => entry.1.handsOf (chosen entry.2 entry.1.station)

@[simp] theorem Squad.start_station (station : Station) (threads : Nat) :
    (Squad.start station threads).station = station := rfl

theorem Squad.start_handsOf (station : Station) (threads : Nat) (chosen : Nat → Bool) :
    ∃ hired, (Squad.start station threads).handsOf chosen = List.replicate hired .free := by
  refine ⟨_, List.eq_replicate_of_mem fun hand member => ?_⟩
  obtain ⟨entry, inside, picked⟩ := List.mem_flatMap.mp member
  have free := List.eq_of_mem_replicate (List.fst_mem_of_mem_zipIdx inside)
  split at picked
  · rw [List.mem_singleton.mp picked, free]
  · cases picked

def Stint.labors (chosen : Nat → Bool) : Stint → List Labor
  | .labor place work => if chosen place then [work] else []
  | _ => []

def Episode.labors (chosen : Selection) : Episode → List Labor
  | .squad number station stint => stint.labors (chosen number station)
  | _ => []

inductive Change (desk : Desk) (deal : Option (Deal Task)) (next : Desk) :
    List Hand → List Labor → List Hand → Prop
  | labor {runner : Runner} {early late : List Hand} {hand changed : Hand} {labor : Labor}
      (step : hand.Step runner desk labor deal next changed) :
      Change desk deal next (early ++ hand :: late) [labor] (early ++ changed :: late)
  | rest {hands : List Hand} : Change desk deal next hands [] hands

namespace Change

variable {desk next : Desk} {deal : Option (Deal Task)} {hands changed : List Hand} {labors : List Labor}

theorem within (change : Change desk deal next hands labors changed) (early late : List Hand) :
    Change desk deal next (early ++ hands ++ late) labors (early ++ changed ++ late) := by
  cases change with
  | labor step =>
      simp only [List.append_assoc, List.cons_append]
      rw [← List.append_assoc, ← List.append_assoc early]
      exact .labor step
  | rest => exact .rest

end Change

/-- A thread has in hand what it takes until it ends it. -/
theorem Hand.Step.balance {runner : Runner} {desk next : Desk} {hand changed : Hand} {labor : Labor}
    {deal : Option (Deal Task)} (step : hand.Step runner desk labor deal next changed) :
    (labor.taken ++ hand.tasks).Perm (labor.completed ++ (labor.failed ++ changed.tasks)) := by
  cases step <;> exact .refl _

structure Desk.Frame (desk : Desk) (deal : Option (Deal Task)) (next : Desk) : Prop where
  host : next.host = desk.host
  passes : desk.queue.Passes deal next.queue

theorem Desk.join_keeps (desk : Desk) (crew : Crew) :
    desk.Keeps (desk.join crew) ∧ (desk.join crew).queue = desk.queue := by
  unfold join
  induction List.replicate crew.dead () generalizing desk with
  | nil => exact ⟨⟨rfl, rfl⟩, rfl⟩
  | cons _ rest ih =>
      obtain ⟨keeps, queue⟩ := ih (desk.report .main (.workerPanicked Runner.worker.label))
      exact ⟨⟨keeps.host, keeps.counters⟩, queue⟩

theorem Hand.Step.frame {runner : Runner} {desk next : Desk} {hand changed : Hand} {labor : Labor}
    {deal : Option (Deal Task)} (step : hand.Step runner desk labor deal next changed) :
    desk.Frame deal next := by
  cases step with
  | take handed => exact ⟨rfl, .hand handed⟩
  | perform =>
      obtain ⟨keeps, passes⟩ := Desk.perform_spec desk runner _
      exact ⟨keeps.host, passes⟩
  | finish =>
      unfold Desk.count
      split <;> exact ⟨rfl, rfl⟩
  | fail | quit => exact ⟨rfl, rfl⟩
  | leave finished => exact ⟨rfl, .finish finished⟩

theorem Squad.Step.frame {desk next : Desk} {squad changed : Squad} {stint : Stint}
    {deal : Option (Deal Task)} (step : squad.Step desk stint deal next changed) :
    desk.Frame deal next := by
  cases step with
  | labor step => exact step.frame
  | dropPool => exact ⟨rfl, .terminate⟩
  | dropSingle | release => exact ⟨rfl, rfl⟩
  | join =>
      obtain ⟨keeps, same⟩ := Desk.join_keeps desk _
      exact ⟨keeps.host, same⟩

theorem Floor.Step.frame {floor next : Floor} {beat : Beat} (step : Floor.Step floor beat next) :
    floor.desk.Frame beat.deal next.desk := by
  cases step with
  | @append desk squads task =>
      obtain ⟨keeps, step⟩ := Desk.append_spec desk task
      exact ⟨keeps.host, step⟩
  | terminate => exact ⟨rfl, .terminate⟩
  | note keeps same => exact ⟨keeps.host, same⟩
  | hire => exact ⟨rfl, rfl⟩
  | squad step => exact step.frame

theorem Hand.Step.counted {runner : Runner} {desk next : Desk} {hand changed : Hand} {labor : Labor}
    {deal : Option (Deal Task)} (step : hand.Step runner desk labor deal next changed) :
    next.counters = Counters.recordTask^[if runner = .worker then labor.completed.length else 0]
      desk.counters := by
  cases step with
  | perform =>
      rw [(Desk.perform_spec desk runner _).1.counters]
      simp [Labor.completed]
  | finish =>
      unfold Desk.count
      split <;> rfl
  | take | fail | leave | quit => simp [Labor.completed, Desk.note]

theorem Floor.Step.counted {floor next : Floor} {beat : Beat} (step : Floor.Step floor beat next) :
    next.desk.counters = Counters.recordTask^[
      ((beat.episode.labors .workers).flatMap Labor.completed).length] floor.desk.counters := by
  cases step with
  | @append desk squads task => exact (Desk.append_spec desk task).1.counters
  | terminate => rfl
  | note keeps => exact keeps.counters
  | hire => rfl
  | squad step =>
      cases step with
      | labor step =>
          rw [step.counted]
          simp only [Episode.labors, Stint.labors, Selection.workers, beq_iff_eq]
          split <;> simp
      | dropPool | dropSingle | release => rfl
      | join => exact (Desk.join_keeps _ _).1.counters

theorem Hand.Step.handed {runner : Runner} {desk next : Desk} {hand changed : Hand} {labor : Labor}
    {deal : Option (Deal Task)} (step : hand.Step runner desk labor deal next changed) :
    deal.toList.flatMap Deal.handed = labor.taken := by
  cases step with
  | @perform task duty left => cases duty <;> rfl
  | take | finish | fail | leave | quit => rfl

theorem Floor.Step.handed {floor next : Floor} {beat : Beat} (step : Floor.Step floor beat next) :
    beat.deal.toList.flatMap Deal.handed = (beat.episode.labors .all).flatMap Labor.taken := by
  cases step with
  | append | terminate | note | hire => rfl
  | squad step =>
      cases step with
      | labor step =>
          rw [step.handed]
          exact (List.append_nil _).symm
      | dropPool | dropSingle | join | release => rfl

theorem Hand.Step.death {runner : Runner} {desk next : Desk} {hand changed : Hand} {labor : Labor}
    {deal : Option (Deal Task)} (step : hand.Step runner desk labor deal next changed) :
    labor.failed.length + Crew.dead [hand.state] = Crew.dead [changed.state] := by
  cases step <;> rfl

theorem Crew.dead_append (left right : Crew) :
    Crew.dead (left ++ right) = Crew.dead left + Crew.dead right := List.count_append

theorem Squad.Step.hands {desk next : Desk} {squad changed : Squad} {stint : Stint}
    {deal : Option (Deal Task)} (step : squad.Step desk stint deal next changed) (chosen : Nat → Bool) :
    Change desk deal next (squad.handsOf chosen) (stint.labors chosen) (changed.handsOf chosen) := by
  cases step with
  | @labor station early late hand changed tenure labor deal next step =>
      simp only [Squad.handsOf, Stint.labors, List.zipIdx_append, List.zipIdx_cons,
        List.flatMap_append, List.flatMap_cons, Nat.zero_add]
      split
      · exact .labor step
      · exact .rest
  | dropPool | dropSingle | join | release => exact .rest

namespace Floor

variable {desk : Desk} {first floor next : Floor} {beats : List Beat} {beat : Beat}

def deals (beats : List Beat) : List (Deal Task) := beats.filterMap Beat.deal

def accepted (beats : List Beat) : List Task := (deals beats).flatMap Deal.accepted

def handed (beats : List Beat) : List Task := (deals beats).flatMap Deal.handed

def laborsOf (chosen : Selection) (beats : List Beat) : List Labor :=
  beats.flatMap fun beat => beat.episode.labors chosen

def taken (chosen : Selection) (beats : List Beat) : List Task :=
  (laborsOf chosen beats).flatMap Labor.taken

def completed (chosen : Selection) (beats : List Beat) : List Task :=
  (laborsOf chosen beats).flatMap Labor.completed

def failed (chosen : Selection) (beats : List Beat) : List Task :=
  (laborsOf chosen beats).flatMap Labor.failed

def busy (floor : Floor) (chosen : Selection) : List Task :=
  (floor.handsOf chosen).flatMap Hand.tasks

theorem Step.hands (step : Step floor beat next) (chosen : Selection) :
    ∃ hired, Change floor.desk beat.deal next.desk
      (floor.handsOf chosen ++ List.replicate hired .free) (beat.episode.labors chosen)
      (next.handsOf chosen) := by
  cases step with
  | append | terminate | note => exact ⟨0, (List.append_nil _).symm ▸ .rest⟩
  | @hire desk squads station threads =>
      have none : Episode.labors chosen (.hire station threads) = [] := rfl
      obtain ⟨hired, same⟩ := Squad.start_handsOf station threads (chosen squads.length station)
      refine ⟨hired, ?_⟩
      have hires : handsOf ⟨desk, squads ++ [.start station threads]⟩ chosen =
          handsOf ⟨desk, squads⟩ chosen ++ List.replicate hired .free := by
        simp [handsOf, List.zipIdx_append, same]
      rw [hires, none]
      exact .rest
  | @squad desk next before after squad changed stint deal step =>
      refine ⟨0, ?_⟩
      have station : changed.station = squad.station := by cases step <;> rfl
      have change := step.hands (chosen before.length squad.station)
      simp only [handsOf, List.zipIdx_append, List.zipIdx_cons, List.flatMap_append,
        List.flatMap_cons, Nat.zero_add, List.replicate_zero, List.append_nil, station,
        Episode.labors]
      rw [← List.append_assoc, ← List.append_assoc]
      exact change.within _ _

theorem Run.host (run : Run (opened desk) beats floor) : floor.desk.host = desk.host :=
  run.keeps (·.desk.host = desk.host) rfl fun step kept => step.frame.host.trans kept

/-- What is kept by labors, and by hiring more threads, holds after every run. -/
theorem Run.of_change {chosen : Selection} (run : Run (opened desk) beats floor)
    (kept : List Labor → List Hand → Prop) (start : kept [] [])
    (hire : ∀ {labors hands} (hired : Nat), kept labors hands →
      kept labors (hands ++ List.replicate hired .free))
    (labor : ∀ {now next deal labors runner early late hand changed labor}, now.host = desk.host →
      kept labors (early ++ hand :: late) → hand.Step runner now labor deal next changed →
        kept (labors ++ [labor]) (early ++ changed :: late)) :
    kept (laborsOf chosen beats) (floor.handsOf chosen) := by
  induction run with
  | nil => exact start
  | @snoc beats beat floor next earlier step ih =>
      obtain ⟨hired, change⟩ := step.hands chosen
      have grown := hire hired ih
      have more : laborsOf chosen (beats ++ [beat]) =
          laborsOf chosen beats ++ beat.episode.labors chosen := by
        simp [laborsOf]
      rw [more]
      revert grown
      generalize floor.handsOf chosen ++ List.replicate hired .free = hands at change
      generalize beat.episode.labors chosen = labors at change ⊢
      generalize next.handsOf chosen = changed at change ⊢
      intro grown
      cases change with
      | labor step => exact labor (Run.host earlier) grown step
      | rest => exact (List.append_nil _).symm ▸ grown

/-- Each task that the selected threads have taken has been completed, has failed, or is being run. -/
theorem Run.balanced (run : Run (opened desk) beats floor) (chosen : Selection) :
    (taken chosen beats).Perm
      (completed chosen beats ++ (failed chosen beats ++ floor.busy chosen)) := by
  classical
  refine run.of_change (fun labors hands => (labors.flatMap Labor.taken).Perm
    (labors.flatMap Labor.completed ++ (labors.flatMap Labor.failed ++ hands.flatMap Hand.tasks)))
    .nil ?_ ?_
  · intro labors hands hired before
    have none : (List.replicate hired Hand.free).flatMap Hand.tasks = [] :=
      List.flatMap_eq_nil_iff.mpr fun hand member => by rw [List.eq_of_mem_replicate member]; rfl
    rwa [List.flatMap_append, none, List.append_nil]
  · intro now next deal labors runner early late hand changed labor _ before step
    rw [List.perm_iff_count] at before ⊢
    intro task
    have earlier := before task
    have here := step.balance.count_eq task
    simp only [List.flatMap_append, List.flatMap_cons, List.flatMap_nil, List.append_nil,
      List.count_append] at earlier here ⊢
    omega

theorem Run.deaths (run : Run (opened desk) beats floor) (chosen : Selection) :
    (failed chosen beats).length = Crew.dead ((floor.handsOf chosen).map Hand.state) := by
  refine run.of_change (fun labors hands => (labors.flatMap Labor.failed).length =
    Crew.dead (hands.map Hand.state)) rfl ?_ ?_
  · intro labors hands hired before
    have none : Crew.dead ((List.replicate hired Hand.free).map Hand.state) = 0 := by
      simp [Crew.dead, Hand.state, List.count_replicate]
    rw [List.map_append, Crew.dead_append, none]
    exact before
  · intro now next deal labors runner early late hand changed labor _ before step
    have middle (hand : Hand) : Crew.dead ((early ++ hand :: late).map Hand.state) =
        Crew.dead (early.map Hand.state) +
          (Crew.dead [hand.state] + Crew.dead (late.map Hand.state)) := by
      rw [List.map_append, List.map_cons, Crew.dead_append, ← List.singleton_append, Crew.dead_append]
    have here := step.death
    rw [middle] at before ⊢
    rw [List.flatMap_append, List.flatMap_singleton, List.length_append]
    omega

/-- To the queue, a run of the floor is a run of deals. -/
theorem Run.queue (run : Run (opened desk) beats floor) :
    desk.queue.Run (deals beats) floor.desk.queue := by
  induction run with
  | nil => exact .nil
  | @snoc beats beat floor next _ step ih =>
      have more : deals (beats ++ [beat]) = deals beats ++ beat.deal.toList := by
        cases made : beat.deal <;> simp [deals, made]
      rw [more]
      exact ih.pass step.frame.passes

theorem Run.counted (run : Run (opened desk) beats floor) : floor.desk.counters =
    Counters.recordTask^[(completed .workers beats).length] desk.counters := by
  induction run with
  | nil => rfl
  | @snoc beats beat floor next _ step ih =>
      have more : completed .workers (beats ++ [beat]) = completed .workers beats ++
          (beat.episode.labors .workers).flatMap Labor.completed := by
        simp [completed, laborsOf]
      rw [more, List.length_append, Nat.add_comm, Function.iterate_add_apply, ← ih]
      exact step.counted

theorem Run.handed_eq (run : Run (opened desk) beats floor) : handed beats = taken .all beats := by
  induction run with
  | nil => rfl
  | @snoc beats beat floor next _ step ih =>
      have more : handed (beats ++ [beat]) = handed beats ++ beat.deal.toList.flatMap Deal.handed := by
        cases made : beat.deal <;> simp [handed, deals, made]
      have more' : taken .all (beats ++ [beat]) = taken .all beats ++
          (beat.episode.labors .all).flatMap Labor.taken := by
        simp [taken, laborsOf]
      rw [more, more', ih, step.handed]

end Floor

end Reclaim
