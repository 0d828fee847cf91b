import Reclaim.Proofs.Runs
import Reclaim.Task.Queue

/-! Deals with a task queue. Whoever comes to a queue has it for one deal at a time: a task is taken in
or comes back, a task is handed out, a consumer hears that none will follow or that there is none yet,
or the queue is terminated. All that many parties do to a queue is one sequence of deals. -/

namespace Reclaim

variable {α : Type}

inductive Deal (α : Type) where
  | append (task : α) (answer : Except α Unit)
  | next (answer : Option α)
  | wait
  | terminate

namespace Deal

def accepted : Deal α → List α
  | .append task (.ok _) => [task]
  | _ => []

def handed : Deal α → List α
  | .next (some task) => [task]
  | _ => []

end Deal

namespace TaskQueue

variable {first queue next : TaskQueue α} {deals : List (Deal α)} {deal : Deal α} {task : α}

def Spent (queue : TaskQueue α) : Prop := queue.pending = [] ∧ queue.terminated = true

inductive Step (queue : TaskQueue α) : Deal α → TaskQueue α → Prop
  | accept (task : α) {next : TaskQueue α} (accepted : queue.append task = .ok next) :
      Step queue (.append task (.ok ())) next
  | refuse (task : α) {back : α} (refused : queue.append task = .error back) :
      Step queue (.append task (.error back)) queue
  | hand {task : α} {rest : TaskQueue α} (handed : queue.next = .task task rest) :
      Step queue (.next (some task)) rest
  | finish (finished : queue.next = .finished) : Step queue (.next none) queue
  | wait (waiting : queue.next = .waiting) : Step queue .wait queue
  | terminate : Step queue .terminate queue.terminate

def Passes (queue : TaskQueue α) : Option (Deal α) → TaskQueue α → Prop
  | some deal, next => queue.Step deal next
  | none, next => next = queue

abbrev Run (first : TaskQueue α) (deals : List (Deal α)) (last : TaskQueue α) : Prop :=
  Runs Step first deals last

namespace Step

theorem pending (step : Step queue deal next) :
    deal.handed ++ next.pending = queue.pending ++ deal.accepted := by
  cases step with
  | accept _ accepted =>
      obtain ⟨_, rfl⟩ := append_eq_ok.mp accepted
      rfl
  | hand handed =>
      rw [(next_eq_task handed).1]
      exact (List.append_nil _).symm
  | refuse | finish | wait | terminate => exact (List.append_nil _).symm

theorem terminated (step : Step queue deal next) :
    next.terminated = true ↔ queue.terminated = true ∨ deal = .terminate := by
  cases step with
  | accept _ accepted =>
      obtain ⟨_, rfl⟩ := append_eq_ok.mp accepted
      simp
  | hand handed => simp [(next_eq_task handed).2]
  | refuse | finish | wait => simp
  | terminate => simp [TaskQueue.terminate]

theorem append_open {answer : Except α Unit} (step : Step queue (.append task answer) next)
    (live : queue.terminated = false) :
    answer = .ok () ∧ next = { queue with pending := queue.pending ++ [task] } := by
  cases step with
  | accept _ accepted => exact ⟨rfl, (append_eq_ok.mp accepted).2⟩
  | refuse _ refused => simp [(append_eq_error.mp refused).1] at live

theorem append_closed {answer : Except α Unit} (step : Step queue (.append task answer) next)
    (closed : queue.terminated = true) : answer = .error task ∧ next = queue := by
  cases step with
  | accept _ accepted => simp [(append_eq_ok.mp accepted).1] at closed
  | refuse _ refused => exact ⟨(append_eq_error.mp refused).2 ▸ rfl, rfl⟩

theorem live (step : Step queue deal next) (some : deal.accepted ≠ []) : queue.terminated = false := by
  cases step with
  | accept _ accepted => exact (append_eq_ok.mp accepted).1
  | refuse | hand | finish | wait | terminate => exact absurd rfl some

theorem terminate_eq (step : Step queue .terminate next) : next = ⟨queue.pending, true⟩ := by
  cases step
  rfl

theorem sentinel (step : Step queue (.next none) next) : queue.Spent := by
  cases step with
  | finish finished => exact next_eq_finished.mp finished

theorem spent (step : Step queue deal next) (spent : queue.Spent) : next = queue := by
  obtain ⟨empty, closed⟩ := spent
  cases step with
  | accept _ accepted => simp [(append_eq_ok.mp accepted).1] at closed
  | hand handed => simp [(next_eq_task handed).1] at empty
  | refuse | finish | wait => rfl
  | terminate => simp [TaskQueue.terminate, ← closed]

/-- A queue that has told one consumer to leave tells every other the same. -/
theorem exhausted (step : Step queue deal next) (spent : queue.Spent) :
    deal ≠ .wait ∧ ∀ answer, deal = .next answer → answer = none := by
  obtain ⟨empty, closed⟩ := spent
  cases step with
  | hand handed => simp [(next_eq_task handed).1] at empty
  | wait waiting => simp [(next_eq_waiting.mp waiting).2] at closed
  | accept | refuse | finish | terminate => simp

end Step

theorem Passes.terminated {deal : Option (Deal α)} (passes : queue.Passes deal next)
    (closed : queue.terminated = true) : next.terminated = true := by
  cases deal with
  | none => exact (congrArg TaskQueue.terminated passes).trans closed
  | some deal => exact (Step.terminated passes).mpr (.inl closed)

theorem Passes.spent {deal : Option (Deal α)} (passes : queue.Passes deal next)
    (spent : queue.Spent) : next = queue := by
  cases deal with
  | none => exact passes
  | some deal => exact Step.spent passes spent

theorem step_next (closed : queue.terminated = true) :
    ∃ next, Step queue (.next queue.pending.head?) next := by
  cases pending : queue.pending with
  | nil => exact ⟨queue, .finish (next_eq_finished.mpr ⟨pending, closed⟩)⟩
  | cons task rest => exact ⟨_, .hand (next_of_pending pending)⟩

namespace Run

theorem pass {deal : Option (Deal α)} (run : Run first deals queue) (passes : queue.Passes deal next) :
    Run first (deals ++ deal.toList) next := by
  cases deal with
  | none =>
      cases passes
      exact (List.append_nil deals).symm ▸ run
  | some deal => exact run.snoc passes

theorem fifo (run : Run first deals queue) :
    deals.flatMap Deal.handed ++ queue.pending = first.pending ++ deals.flatMap Deal.accepted := by
  induction run with
  | nil => exact (List.append_nil _).symm
  | @snoc deals deal queue next _ step ih =>
      calc (deals ++ [deal]).flatMap Deal.handed ++ next.pending
          = deals.flatMap Deal.handed ++ (deal.handed ++ next.pending) := by simp
        _ = deals.flatMap Deal.handed ++ queue.pending ++ deal.accepted := by
            rw [step.pending, List.append_assoc]
        _ = first.pending ++ (deals ++ [deal]).flatMap Deal.accepted := by simp [ih]

theorem terminated (run : Run first deals queue) :
    queue.terminated = true ↔ first.terminated = true ∨ .terminate ∈ deals := by
  induction run with
  | nil => simp
  | @snoc deals deal queue next _ step ih =>
      rw [step.terminated, ih, List.mem_append, List.mem_singleton, or_assoc, eq_comm (a := deal)]

theorem spent (run : Run first deals queue) (told : .next none ∈ deals) : queue.Spent := by
  induction run with
  | nil => cases told
  | snoc _ step ih =>
      rcases List.mem_append.mp told with before | now
      · rw [step.spent (ih before)]
        exact ih before
      · cases List.mem_singleton.mp now
        rw [step.spent step.sentinel]
        exact step.sentinel

end Run

end TaskQueue

end Reclaim
