import Reclaim.Proofs.Queue.Deals
import Mathlib.Data.List.Basic

/-! The hall of a task queue. Any number of threads come to the queue, one deal at a time. A consumer
that finds no task parks until it is called; who has brought a task calls one of the parked threads, and
who has terminated the queue calls them all, both in a step of their own when the queue is no longer
held. A thread that has been handed a task is free: whatever the task does to the queue while it runs is
a deal of that thread. -/

namespace Reclaim

variable {α : Type}

inductive Guest where
  | free
  | parked
  | called
  | callsOne
  | callsAll
  deriving DecidableEq, Repr

def Guest.heed : Guest → Guest
  | .parked => .called
  | guest => guest

namespace Deal

def leaves : Deal α → Guest
  | .append _ (.ok _) => .callsOne
  | .append _ (.error _) => .free
  | .next _ => .free
  | .wait => .parked
  | .terminate => .callsAll

def asks : Deal α → Bool
  | .next _ | .wait => true
  | _ => false

end Deal

structure Hall (α : Type) where
  queue : TaskQueue α
  guests : List Guest

/-- A step with the thread that takes it: a deal of a free thread or of one that comes back to the queue,
a call to one parked thread or to nobody, a call to all, or a parked thread that stirs uncalled. -/
inductive Visit (α : Type) where
  | deal (who : Nat) (deal : Deal α)
  | resume (who : Nat) (deal : Deal α)
  | callOne (who : Nat) (whom : Option Nat)
  | callAll (who : Nat)
  | stir (whom : Nat)
  | enter

namespace Visit

def deal? : Visit α → Option (Deal α)
  | .deal _ made | .resume _ made => some made
  | _ => none

def goesOn : Visit α → Bool
  | .resume _ _ | .callOne _ _ | .callAll _ => true
  | _ => false

end Visit

namespace Hall

inductive Step : Hall α → Visit α → Hall α → Prop
  | deal {queue next : TaskQueue α} {guests : List Guest} {deal : Deal α} (who : Nat)
      (free : guests[who]? = some .free) (step : queue.Step deal next) :
      Step ⟨queue, guests⟩ (.deal who deal) ⟨next, guests.set who deal.leaves⟩
  | resume {queue next : TaskQueue α} {guests : List Guest} {deal : Deal α} (who : Nat)
      (called : guests[who]? = some .called) (asks : deal.asks = true)
      (step : queue.Step deal next) :
      Step ⟨queue, guests⟩ (.resume who deal) ⟨next, guests.set who deal.leaves⟩
  | callOne {queue : TaskQueue α} {guests : List Guest} (who whom : Nat)
      (calls : guests[who]? = some .callsOne) (parked : guests[whom]? = some .parked) :
      Step ⟨queue, guests⟩ (.callOne who (some whom))
        ⟨queue, (guests.set who .free).set whom .called⟩
  | callNobody {queue : TaskQueue α} {guests : List Guest} (who : Nat)
      (calls : guests[who]? = some .callsOne) (nobody : .parked ∉ guests) :
      Step ⟨queue, guests⟩ (.callOne who none) ⟨queue, guests.set who .free⟩
  | callAll {queue : TaskQueue α} {guests : List Guest} (who : Nat)
      (calls : guests[who]? = some .callsAll) :
      Step ⟨queue, guests⟩ (.callAll who) ⟨queue, (guests.set who .free).map Guest.heed⟩
  | stir {queue : TaskQueue α} {guests : List Guest} (whom : Nat)
      (parked : guests[whom]? = some .parked) :
      Step ⟨queue, guests⟩ (.stir whom) ⟨queue, guests.set whom .called⟩
  | enter {queue : TaskQueue α} {guests : List Guest} :
      Step ⟨queue, guests⟩ .enter ⟨queue, guests ++ [.free]⟩

abbrev Run (first : Hall α) (visits : List (Visit α)) (last : Hall α) : Prop :=
  Runs Step first visits last

def opened (threads : Nat) : Hall α := ⟨.fresh, List.replicate threads .free⟩

def deals (visits : List (Visit α)) : List (Deal α) := visits.filterMap Visit.deal?

def accepted (visits : List (Visit α)) : List α := (deals visits).flatMap Deal.accepted

def handed (visits : List (Visit α)) : List α := (deals visits).flatMap Deal.handed

variable {first hall next : Hall α} {visits : List (Visit α)} {visit : Visit α} {deal : Deal α}

theorem Step.queue (step : Step hall visit next) : hall.queue.Passes visit.deal? next.queue := by
  cases step with
  | deal _ _ step | resume _ _ _ step => exact step
  | callOne | callNobody | callAll | stir | enter => rfl

theorem Step.makes (step : Step hall visit next) (made : visit.deal? = some deal) :
    hall.queue.Step deal next.queue := by
  have passes := step.queue
  rwa [made] at passes

/-- To the queue, a run of the hall is a run of deals. -/
theorem Run.queue (run : Run first visits hall) : first.queue.Run (deals visits) hall.queue := by
  induction run with
  | nil => exact .nil
  | @snoc visits visit hall next _ step ih =>
      have more : deals (visits ++ [visit]) = deals visits ++ visit.deal?.toList := by
        cases made : visit.deal? <;> simp [deals, made]
      rw [more]
      exact ih.pass step.queue

structure Delivered (visits : List (Visit α)) (hall : Hall α) : Prop where
  fifo : handed visits ++ hall.queue.pending = accepted visits
  lasting : hall.queue.terminated = true ↔ .terminate ∈ deals visits
  taken : hall.queue.terminated = false → ∀ visit next task answer, Step hall visit next →
    visit.deal? = some (.append task answer) →
      answer = .ok () ∧ next.queue = ⟨hall.queue.pending ++ [task], false⟩
  refused : hall.queue.terminated = true → ∀ visit next task answer, Step hall visit next →
    visit.deal? = some (.append task answer) → answer = .error task ∧ next.queue = hall.queue
  told : ∀ visit next, Step hall visit next → visit.deal? = some (.next none) →
    hall.queue.terminated = true ∧ handed visits = accepted visits
  after : .next none ∈ deals visits → ∀ visit next deal, Step hall visit next →
    visit.deal? = some deal → deal.asks = true → deal = .next none
  kept : ∀ visit next, Step hall visit next → visit.deal? = some .terminate →
    next.queue = ⟨hall.queue.pending, true⟩
  prompt : hall.queue.terminated = true → ∀ who : Nat,
    (hall.guests[who]? = some .free →
      ∃ next, Step hall (.deal who (.next hall.queue.pending.head?)) next) ∧
    (hall.guests[who]? = some .called →
      ∃ next, Step hall (.resume who (.next hall.queue.pending.head?)) next)

/-- Tasks are handed out in the order in which they were taken in, none twice and none never. A task
comes back exactly when the queue has been terminated, and nobody is told to leave before every task
has been handed out. -/
theorem Run.delivered {threads : Nat} (run : Run (opened threads) visits hall) :
    Delivered visits hall := by
  have fifo : handed visits ++ hall.queue.pending = accepted visits := run.queue.fifo
  constructor
  · exact fifo
  · rw [run.queue.terminated]
    exact or_iff_right Bool.false_ne_true
  · intro live visit next task answer step made
    obtain ⟨rfl, same⟩ := (step.makes made).append_open live
    exact ⟨rfl, by rw [same, live]⟩
  · intro closed visit next task answer step made
    exact (step.makes made).append_closed closed
  · intro visit next step made
    obtain ⟨empty, closed⟩ := (step.makes made).sentinel
    rw [empty, List.append_nil] at fifo
    exact ⟨closed, fifo⟩
  · intro told visit next deal step made asks
    obtain ⟨nowait, nothing⟩ := (step.makes made).exhausted (run.queue.spent told)
    cases deal with
    | next answer => rw [nothing answer rfl]
    | wait => exact absurd rfl nowait
    | append | terminate => cases asks
  · intro visit next step made
    exact (step.makes made).terminate_eq
  · intro closed who
    obtain ⟨next, step⟩ := TaskQueue.step_next closed
    exact ⟨fun free => ⟨_, .deal who free step⟩, fun called => ⟨_, .resume who called rfl step⟩⟩

def sampleVisits : List (Visit Nat) :=
  -- Two consumers park. The first task is gone before the consumer that was called for it is
  -- back. The second one waits when the queue is terminated, and a consumer that runs it brings
  -- a third one too late.
  [.deal 0 .wait, .deal 1 .wait, .deal 2 (.append 5 (.ok ())), .deal 3 (.next (some 5)),
    .callOne 2 (some 0), .resume 0 .wait, .deal 2 (.append 6 (.ok ())), .deal 3 .terminate,
    .callAll 3, .callOne 2 none, .resume 0 (.next (some 6)), .deal 0 (.append 7 (.error 7)),
    .resume 1 (.next none)]

theorem sampleVisits_parked : Run (opened 4) (sampleVisits.take 8)
    ⟨⟨[6], true⟩, [.parked, .parked, .callsOne, .callsAll]⟩ := by
  have parked : Run (opened 4 : Hall Nat) _ _ := .snoc .nil (.deal 0 rfl (.wait rfl))
  have both : Run (opened 4) _ _ := .snoc parked (.deal 1 rfl (.wait rfl))
  have brought : Run (opened 4) _ _ := .snoc both (.deal 2 rfl (.accept 5 rfl))
  have stolen : Run (opened 4) _ _ := .snoc brought (.deal 3 rfl (.hand rfl))
  have called : Run (opened 4) _ _ := .snoc stolen (.callOne 2 0 rfl rfl)
  have again : Run (opened 4) _ _ := .snoc called (.resume 0 rfl rfl (.wait rfl))
  have more : Run (opened 4) _ _ := .snoc again (.deal 2 rfl (.accept 6 rfl))
  exact .snoc more (.deal 3 rfl .terminate)

theorem sampleVisits_delivered : ∃ hall, Run (opened 4) sampleVisits hall ∧
    Delivered sampleVisits hall := by
  have released : Run (opened 4) _ _ := .snoc sampleVisits_parked (.callAll 3 rfl)
  have calm : Run (opened 4) _ _ := .snoc released (.callNobody 2 rfl (by decide))
  have handed : Run (opened 4) _ _ := .snoc calm (.resume 0 rfl rfl (.hand rfl))
  have late : Run (opened 4) _ _ := .snoc handed (.deal 0 rfl (.refuse 7 rfl))
  have told : Run (opened 4) sampleVisits _ := .snoc late (.resume 1 rfl rfl (.finish rfl))
  exact ⟨_, told, told.delivered⟩

end Hall

end Reclaim
