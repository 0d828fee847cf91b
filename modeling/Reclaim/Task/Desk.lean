import Reclaim.Counters
import Reclaim.Task.Basic
import Reclaim.Task.Foreground
import Reclaim.Task.Queue

/-! The desk: the queue and the foreground queues that tasks are posted to, with a log of what
became of each task. Any thread may run a task at the desk. -/

namespace Reclaim

inductive Runner where
  | main
  | worker
  | consumer
  deriving DecidableEq, Repr

def Runner.label : Runner → String
  | .main => "main"
  | .worker => "rudo-worker"
  | .consumer => "consumer"

def Runner.actor : Runner → Actor
  | .main => .main
  | .worker => .worker
  | .consumer => .worker

inductive Fate where
  | ran
  | rejected
  | dropped
  deriving DecidableEq, Repr

def Fate.label : Fate → String
  | .ran => "run"
  | .rejected => "rejected"
  | .dropped => "drop"

structure LogLine where
  fate : Fate
  task : Nat
  runner : Runner
  deriving DecidableEq, Repr

def LogLine.le (left right : LogLine) : Bool :=
  if left.fate.label ≠ right.fate.label then decide (left.fate.label < right.fate.label)
  else if left.task ≠ right.task then decide (left.task < right.task)
  else !decide (right.runner.label < left.runner.label)

inductive Host where
  | queue
  | platform
  deriving DecidableEq, Repr

structure Desk where
  host : Host
  queue : TaskQueue Task
  foreground : Foreground Task
  log : Array LogLine
  counters : Counters
  journal : Journal

namespace Desk

def fresh (host : Host) : Desk :=
  { host, queue := .fresh, foreground := [], log := #[], counters := .zero, journal := #[] }

def note (desk : Desk) (fate : Fate) (task : Task) (runner : Runner) : Desk :=
  { desk with log := desk.log.push ⟨fate, task.id, runner⟩ }

def report (desk : Desk) (actor : Actor) (event : Event) : Desk :=
  { desk with journal := desk.journal.push (actor, .report event) }

def announce (desk : Desk) (task : Task) (runner : Runner) : Desk :=
  match desk.host with
  | .queue => desk
  | .platform => desk.report runner.actor (.backgroundTaskPosted task.runtime)

def append (desk : Desk) (task : Task) : Bool × Desk :=
  match desk.queue.append task with
  | .error _ => (false, desk)
  | .ok queue => (true, { desk with queue })

def post (desk : Desk) (runner : Runner) (task : Task) : Desk :=
  match (desk.announce task runner).append task with
  | (true, desk) => desk
  | (false, desk) => (desk.note .rejected task runner).note .dropped task runner

def postEach (desk : Desk) (runner : Runner) : List Task → Desk
  | [] => desk
  | task :: rest => (desk.post runner task).postEach runner rest

def postForeground (desk : Desk) (context : ContextId) (task : Task) : Desk :=
  { desk with foreground := desk.foreground.push context task }

def run (desk : Desk) (runner : Runner) (task : Task) : Bool × Desk :=
  let posted := (desk.note .ran task runner).postEach runner task.posts
  let posted :=
    task.foreground.foldl (fun desk entry => desk.postForeground entry.1 entry.2) posted
  let ended :=
    if task.terminates ∧ posted.host = .queue then
      { posted with queue := posted.queue.terminate }
    else posted
  (!task.fails, ended)

def count (desk : Desk) (runner : Runner) : Desk :=
  if runner = .worker then { desk with counters := desk.counters.recordTask } else desk

def pendingWeight (desk : Desk) : Nat := Task.weights desk.queue.pending

theorem post_weight (desk : Desk) (runner : Runner) (task : Task) :
    (desk.post runner task).pendingWeight ≤ desk.pendingWeight + task.weight := by
  have same : (desk.announce task runner).queue = desk.queue := by
    unfold announce
    split <;> rfl
  unfold post append TaskQueue.append
  rw [same]
  by_cases closed : desk.queue.terminated = true
  · simp [closed, note, pendingWeight, same]
  · simp [closed, pendingWeight, Task.weights_append, Task.weights]

theorem postEach_weight (desk : Desk) (runner : Runner) (tasks : List Task) :
    (desk.postEach runner tasks).pendingWeight ≤ desk.pendingWeight + Task.weights tasks := by
  induction tasks generalizing desk with
  | nil => simp [postEach]
  | cons task rest ih =>
      have first := post_weight desk runner task
      have later := ih (desk.post runner task)
      simp only [postEach, Task.weights]
      omega

theorem foreground_queue (desk : Desk) (entries : List (ContextId × Task)) :
    (entries.foldl (fun desk entry => desk.postForeground entry.1 entry.2) desk).queue =
      desk.queue := by
  induction entries generalizing desk with
  | nil => rfl
  | cons entry rest ih =>
      rw [List.foldl_cons, ih]
      rfl

theorem run_weight (desk : Desk) (runner : Runner) (task : Task) :
    (desk.run runner task).2.pendingWeight < desk.pendingWeight + task.weight := by
  have posts := postEach_weight (desk.note .ran task runner) runner task.posts
  have noted : (desk.note .ran task runner).pendingWeight = desk.pendingWeight := rfl
  have total := Task.weight_eq task
  have queue := foreground_queue ((desk.note .ran task runner).postEach runner task.posts)
    task.foreground
  have kept : (desk.run runner task).2.pendingWeight =
      ((desk.note .ran task runner).postEach runner task.posts).pendingWeight := by
    unfold run pendingWeight
    dsimp only
    split
    · simp only [TaskQueue.terminate, queue]
    · rw [queue]
  omega

theorem count_weight (desk : Desk) (runner : Runner) :
    (desk.count runner).pendingWeight = desk.pendingWeight := by
  unfold count
  split <;> rfl

/-- Taking a task out and running it makes the waiting work lighter. -/
theorem next_run_weight {desk left : Desk} {runner : Runner} {task : Task} {queue : TaskQueue Task}
    {succeeded : Bool} (handed : desk.queue.next = .task task queue)
    (ran : Desk.run { desk with queue } runner task = (succeeded, left)) :
    left.pendingWeight < desk.pendingWeight := by
  have lighter := run_weight { desk with queue } runner task
  rw [ran] at lighter
  have split : desk.pendingWeight = task.weight + Task.weights queue.pending := by
    rw [pendingWeight, (TaskQueue.next_eq_task handed).1, Task.weights]
  have rest : Desk.pendingWeight { desk with queue } = Task.weights queue.pending := rfl
  dsimp only at lighter
  omega

structure Drained where
  alive : Nat
  succeeded : Nat
  desk : Desk

/-- Lets threads take tasks, oldest first, until none is left. A task that fails kills its thread.
-/
def drain (desk : Desk) (runner : Runner) (threads : Nat) : Drained :=
  if threads = 0 then ⟨0, 0, desk⟩
  else
    match _handed : desk.queue.next with
    | .finished => ⟨threads, 0, desk⟩
    | .waiting => ⟨threads, 0, desk⟩
    | .task task queue =>
        match _ran : Desk.run { desk with queue } runner task with
        | (false, left) => left.drain runner (threads - 1)
        | (true, left) =>
            let after := (left.count runner).drain runner threads
            { after with succeeded := after.succeeded + 1 }
  termination_by desk.pendingWeight
  decreasing_by
    · exact next_run_weight _handed _ran
    · rw [count_weight]
      exact next_run_weight _handed _ran

def dropTask (desk : Desk) (task : Task) : Desk := desk.note .dropped task .main

def dropEach (desk : Desk) (tasks : List Task) : Desk := tasks.foldl dropTask desk

def takeLog (desk : Desk) : List LogLine × Desk := (desk.log.toList, { desk with log := #[] })

end Desk

end Reclaim
