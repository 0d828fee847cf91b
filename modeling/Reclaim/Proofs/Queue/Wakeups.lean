import Reclaim.Proofs.Queue.Hall

/-! Wakeups in the hall of a task queue. A call goes out after the queue has been given back, it reaches one
thread only, and a thread that was not called may take the task first. Even so, as long as a thread is
parked there is a called thread or a call to come for each task that waits. -/

namespace Reclaim

/-- The tasks that a thread answers for: a called thread looks for one, and a call to come will send one
thread to look. -/
def Guest.cover : Guest → Nat
  | .called | .callsOne => 1
  | _ => 0

namespace Hall

variable {α : Type} {queue after : TaskQueue α} {guests : List Guest} {who whom : Nat} {old new : Guest}
  {first hall next : Hall α} {visits : List (Visit α)} {visit : Visit α}

def number (hall : Hall α) (guest : Guest) : Nat := hall.guests.count guest

theorem number_set (queue after : TaskQueue α) (here : guests[who]? = some old)
    (new guest : Guest) :
    number ⟨after, guests.set who new⟩ guest + (if old = guest then 1 else 0) =
      number ⟨queue, guests⟩ guest + (if new = guest then 1 else 0) := by
  obtain ⟨bound, rfl⟩ := List.getElem?_eq_some_iff.mp here
  have positive : guests[who] = guest → 0 < guests.count guest := by
    rintro rfl
    exact List.count_pos_iff.mpr (List.getElem_mem bound)
  simp only [number, List.count_set bound, beq_iff_eq]
  split <;> split <;> simp_all

theorem number_pos {guest : Guest} (positive : 0 < hall.number guest) :
    ∃ who : Nat, hall.guests[who]? = some guest :=
  List.mem_iff_getElem?.mp (List.count_pos_iff.mp positive)

structure Covered (hall : Hall α) : Prop where
  tasks : 0 < hall.number .parked →
    hall.queue.pending.length ≤ hall.number .called + hall.number .callsOne
  ending : 0 < hall.number .parked → hall.queue.terminated = true → 0 < hall.number .callsAll

namespace Covered

theorem of_awake (awake : .parked ∉ hall.guests) : Covered hall := by
  have none : hall.number .parked = 0 := List.count_eq_zero.mpr awake
  exact ⟨fun some => absurd none (Nat.ne_of_gt some), fun some => absurd none (Nat.ne_of_gt some)⟩

theorem of_idle (empty : hall.queue.pending = []) (live : hall.queue.terminated = false) :
    Covered hall :=
  ⟨fun _ => by simp [empty], fun _ closed => Bool.noConfusion (live.symm.trans closed)⟩

theorem opened (threads : Nat) : Covered (Hall.opened threads : Hall α) := of_idle rfl rfl

/-- One thread moves, and not to park. What it no longer answers for has been done. -/
theorem move (covered : Covered ⟨queue, guests⟩) (here : guests[who]? = some old)
    (awake : new ≠ .parked) (called : old ≠ .callsAll)
    (done : after.pending = [] ∨
      after.pending.length + old.cover ≤ queue.pending.length + new.cover)
    (ends : after.terminated = true → queue.terminated = true ∨ new = .callsAll) :
    Covered ⟨after, guests.set who new⟩ := by
  have moved (guest : Guest) := number_set queue after here new guest
  have parked := moved .parked
  have covers : number ⟨after, guests.set who new⟩ .called +
      number ⟨after, guests.set who new⟩ .callsOne + old.cover =
      number ⟨queue, guests⟩ .called + number ⟨queue, guests⟩ .callsOne + new.cover := by
    have calls := moved .called
    have callsOne := moved .callsOne
    cases old <;> cases new <;> simp [Guest.cover] at calls callsOne ⊢ <;> omega
  have callsAll := moved .callsAll
  rw [if_neg awake] at parked
  rw [if_neg called] at callsAll
  constructor
  · intro some
    rcases done with empty | less
    · simp [empty]
    · have before := covered.tasks (by omega)
      dsimp only at before ⊢
      omega
  · intro some closed
    rcases ends closed with before | rfl
    · have calls := covered.ending (by omega) before
      omega
    · rw [if_pos rfl] at callsAll
      omega

theorem deal {deal : Deal α} (covered : Covered ⟨queue, guests⟩) (here : guests[who]? = some old)
    (ready : old = .free ∨ old = .called ∧ deal.asks = true) (step : queue.Step deal after) :
    Covered ⟨after, guests.set who deal.leaves⟩ := by
  have called : old ≠ .callsAll := by rcases ready with rfl | ⟨rfl, _⟩ <;> decide
  have free (brings : deal.asks = false) : old = .free :=
    ready.resolve_right fun asks => Bool.noConfusion (brings.symm.trans asks.2)
  have cover : old.cover ≤ 1 := by cases old <;> decide
  cases step with
  | accept _ accepted =>
      obtain ⟨live, rfl⟩ := TaskQueue.append_eq_ok.mp accepted
      obtain rfl := free rfl
      exact covered.move here nofun called (.inr (by simp [Deal.leaves, Guest.cover])) .inl
  | refuse _ refused =>
      obtain rfl := free rfl
      exact covered.move here nofun called (.inr (Nat.le_refl _)) .inl
  | @hand task rest handed =>
      obtain ⟨pending, same⟩ := TaskQueue.next_eq_task handed
      refine covered.move here nofun called (.inr ?_) fun closed => .inl (same ▸ closed)
      rw [pending, List.length_cons]
      omega
  | finish finished =>
      exact covered.move here nofun called
        (.inl (TaskQueue.next_eq_finished.mp finished).1) .inl
  | wait waiting =>
      obtain ⟨empty, live⟩ := TaskQueue.next_eq_waiting.mp waiting
      exact of_idle empty live
  | terminate =>
      obtain rfl := free rfl
      exact covered.move here nofun called (.inr (Nat.le_refl _)) fun _ => .inr rfl

/-- A call passes from who owed it to the thread that it reaches. -/
theorem callOne (covered : Covered ⟨queue, guests⟩) (calls : guests[who]? = some .callsOne)
    (parked : guests[whom]? = some .parked) :
    Covered ⟨queue, (guests.set who .free).set whom .called⟩ := by
  have apart : who ≠ whom := by
    rintro rfl
    rw [calls] at parked
    cases parked
  have there : (guests.set who .free)[whom]? = some .parked := by
    rw [List.getElem?_set_ne apart, parked]
  have freed (guest : Guest) := number_set queue queue calls .free guest
  have reached (guest : Guest) := number_set queue queue there .called guest
  have fewer := freed .parked
  have fewer' := reached .parked
  have callsOne := freed .callsOne
  have callsOne' := reached .callsOne
  have called := freed .called
  have called' := reached .called
  have callsAll := freed .callsAll
  have callsAll' := reached .callsAll
  simp only [reduceCtorEq, if_true, if_false] at *
  refine ⟨fun some => ?_, fun some closed => ?_⟩
  · have before := covered.tasks (by omega)
    dsimp only at before ⊢
    omega
  · have before := covered.ending (by omega) closed
    omega

theorem step (covered : Covered hall) (step : Step hall visit next) : Covered next := by
  cases step with
  | deal _ free step => exact covered.deal free (.inl rfl) step
  | resume _ called asks step => exact covered.deal called (.inr ⟨rfl, asks⟩) step
  | callOne _ _ calls parked => exact covered.callOne calls parked
  | callNobody _ calls nobody =>
      exact of_awake fun member => (List.mem_or_eq_of_mem_set member).elim nobody nofun
  | callAll _ calls =>
      refine of_awake fun member => ?_
      obtain ⟨guest, _, heeds⟩ := List.mem_map.mp member
      cases guest <;> cases heeds
  | stir _ parked =>
      exact covered.move parked (by decide) (by decide) (.inr (by simp [Guest.cover])) .inl
  | @enter queue guests =>
      have same (guest : Guest) (other : guest ≠ .free) :
          number ⟨queue, guests ++ [.free]⟩ guest = number ⟨queue, guests⟩ guest := by
        simp [number, List.count_append, other.symm]
      constructor
      · rw [same .parked nofun, same .called nofun, same .callsOne nofun]
        exact covered.tasks
      · rw [same .parked nofun, same .callsAll nofun]
        exact covered.ending

theorem run (run : Run first visits hall) (covered : Covered first) : Covered hall :=
  run.keeps Covered covered fun step kept => kept.step step

/-- What a parked thread needs is under way: a called thread comes back to the queue, or a call goes out.
-/
theorem goes (covered : Covered hall) (parked : 0 < hall.number .parked)
    (due : hall.queue.pending ≠ [] ∨ hall.queue.terminated = true) :
    ∃ visit next, visit.goesOn = true ∧ Step hall visit next := by
  obtain ⟨queue, guests⟩ := hall
  rcases due with some | closed
  · have waiting : 0 < queue.pending.length := List.length_pos_iff.mpr some
    have before := covered.tasks parked
    dsimp only at before
    by_cases called : 0 < number ⟨queue, guests⟩ .called
    · obtain ⟨who, here⟩ := number_pos called
      obtain ⟨task, rest, pending⟩ := List.exists_cons_of_ne_nil some
      exact ⟨_, _, rfl, .resume who here rfl (.hand (TaskQueue.next_of_pending pending))⟩
    · obtain ⟨who, calls⟩ := @number_pos _ ⟨queue, guests⟩ .callsOne (by omega)
      obtain ⟨whom, there⟩ := number_pos parked
      exact ⟨_, _, rfl, .callOne who whom calls there⟩
  · obtain ⟨who, calls⟩ := number_pos (covered.ending parked closed)
    exact ⟨_, _, rfl, .callAll who calls⟩

end Covered

structure Wakeful (hall : Hall α) : Prop where
  tasks : 0 < hall.number .parked →
    hall.queue.pending.length ≤ hall.number .called + hall.number .callsOne
  ending : 0 < hall.number .parked → hall.queue.terminated = true → 0 < hall.number .callsAll
  still : (∀ visit next, Step hall visit next → visit.goesOn = false) →
    0 < hall.number .parked → hall.queue.pending = [] ∧ hall.queue.terminated = false

/-- While a consumer is parked, each task that waits has a called thread or a call to come. So a
hall that is still has no parked consumer with something to come for. -/
theorem Run.wakeful {threads : Nat} (run : Run (opened threads) visits hall) : Wakeful hall := by
  have covered : Covered hall := .run run (.opened threads)
  refine ⟨covered.tasks, covered.ending, fun stuck parked => ?_⟩
  by_contra due
  have due : hall.queue.pending ≠ [] ∨ hall.queue.terminated = true := by
    by_cases empty : hall.queue.pending = []
    · exact .inr (eq_true_of_ne_false fun live => due ⟨empty, live⟩)
    · exact .inl empty
  obtain ⟨visit, next, goesOn, step⟩ := covered.goes parked due
  exact Bool.noConfusion (goesOn.symm.trans (stuck visit next step))

theorem sampleVisits_wakeful : ∃ hall, Run (opened 4) (sampleVisits.take 8) hall ∧
    hall.number .parked = 2 ∧ hall.queue = ⟨[6], true⟩ ∧ Wakeful hall :=
  ⟨_, sampleVisits_parked, rfl, rfl, sampleVisits_parked.wakeful⟩

end Hall

end Reclaim
