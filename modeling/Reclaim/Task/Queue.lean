import Reclaim.Text.Record

/-! Task queues: first in, first out, until they are terminated. A terminated queue takes no more
tasks, but hands out those it still holds before it tells its consumers to leave. -/

namespace Reclaim

structure TaskQueue (α : Type) where
  pending : List α
  terminated : Bool
  deriving DecidableEq, Repr

inductive Handout (α : Type) where
  | task (task : α) (rest : TaskQueue α)
  | finished
  | waiting

namespace TaskQueue

variable {α : Type}

def fresh : TaskQueue α := ⟨[], false⟩

def append (queue : TaskQueue α) (task : α) : Except α (TaskQueue α) :=
  if queue.terminated then .error task
  else .ok { queue with pending := queue.pending ++ [task] }

def next (queue : TaskQueue α) : Handout α :=
  match queue.pending with
  | task :: rest => .task task { queue with pending := rest }
  | [] => if queue.terminated then .finished else .waiting

def terminate (queue : TaskQueue α) : TaskQueue α := { queue with terminated := true }

def length (queue : TaskQueue α) : Nat := queue.pending.length

def isEmpty (queue : TaskQueue α) : Bool := queue.length == 0

def describe (queue : TaskQueue α) : String :=
  Text.describeRecord "TaskQueue"
    [("pending", Text.describeNat queue.length),
      ("terminated", Text.describeBool queue.terminated)]

theorem next_eq_task {queue rest : TaskQueue α} {task : α} (handed : queue.next = .task task rest) :
    queue.pending = task :: rest.pending ∧ rest.terminated = queue.terminated := by
  unfold next at handed
  split at handed
  · next first => cases handed; exact ⟨first, rfl⟩
  · split at handed <;> cases handed

theorem next_of_pending {queue : TaskQueue α} {task : α} {rest : List α}
    (pending : queue.pending = task :: rest) :
    queue.next = .task task { queue with pending := rest } := by
  rw [next, pending]

theorem append_eq_ok {queue next : TaskQueue α} {task : α} : queue.append task = .ok next ↔
    queue.terminated = false ∧ next = { queue with pending := queue.pending ++ [task] } := by
  unfold append
  cases queue.terminated <;> simp [eq_comm]

theorem append_eq_error {queue : TaskQueue α} {task back : α} :
    queue.append task = .error back ↔ queue.terminated = true ∧ back = task := by
  unfold append
  cases queue.terminated <;> simp [eq_comm]

theorem next_eq_finished {queue : TaskQueue α} :
    queue.next = .finished ↔ queue.pending = [] ∧ queue.terminated = true := by
  unfold next
  cases queue.pending <;> cases queue.terminated <;> simp

theorem next_eq_waiting {queue : TaskQueue α} :
    queue.next = .waiting ↔ queue.pending = [] ∧ queue.terminated = false := by
  unfold next
  cases queue.pending <;> cases queue.terminated <;> simp

end TaskQueue

def queueTerminatedMessage : String := "task queue has been terminated"

def queueTerminatedDescription : String := "QueueTerminated(..)"

end Reclaim
