import Reclaim.Proofs.Queue.Deals
import Reclaim.Task.Crew

/-! The duties of a task: what it does while it runs, one thing after another. Between any two of them other
threads may act. Done without a break, the duties of a task are its run at a desk. -/

namespace Reclaim

inductive Duty where
  | announce (task : Task)
  | submit (task : Task)
  | foreground (context : ContextId) (task : Task)
  | terminate

def Task.duties (task : Task) (host : Host) : List Duty :=
  (task.posts.flatMap fun post => [.announce post, .submit post]) ++
    (task.foreground.map fun entry => .foreground entry.1 entry.2) ++
      if task.terminates ∧ host = .queue then [.terminate] else []

namespace TaskQueue

variable {α : Type}

def answer (queue : TaskQueue α) (task : α) : Except α Unit :=
  match queue.append task with
  | .ok _ => .ok ()
  | .error back => .error back

theorem answer_open {queue : TaskQueue α} (live : queue.terminated = false) (task : α) :
    queue.answer task = .ok () := by
  rw [answer, append_eq_ok.mpr ⟨live, rfl⟩]

theorem answer_closed {queue : TaskQueue α} (closed : queue.terminated = true) (task : α) :
    queue.answer task = .error task := by
  rw [answer, append_eq_error.mpr ⟨closed, rfl⟩]

end TaskQueue

namespace Desk

variable (desk : Desk) (runner : Runner) (task : Task)

def terminate : Desk := { desk with queue := desk.queue.terminate }

def submit : Desk :=
  match desk.append task with
  | (true, desk) => desk
  | (false, desk) => (desk.note .rejected task runner).note .dropped task runner

def perform : Duty → Desk
  | .announce task => desk.announce task runner
  | .submit task => desk.submit runner task
  | .foreground context task => desk.postForeground context task
  | .terminate => desk.terminate

def deal? : Duty → Option (Deal Task)
  | .submit task => some (.append task (desk.queue.answer task))
  | .terminate => some .terminate
  | _ => none

structure Keeps (desk next : Desk) : Prop where
  host : next.host = desk.host
  counters : next.counters = desk.counters

variable {desk runner task}

theorem announce_keeps (desk : Desk) (task : Task) (runner : Runner) :
    desk.Keeps (desk.announce task runner) ∧ (desk.announce task runner).queue = desk.queue := by
  unfold announce
  split <;> exact ⟨⟨rfl, rfl⟩, rfl⟩

theorem append_open (live : desk.queue.terminated = false) (task : Task) : desk.append task =
    (true, { desk with queue := { desk.queue with pending := desk.queue.pending ++ [task] } }) := by
  rw [append, TaskQueue.append_eq_ok.mpr ⟨live, rfl⟩]

theorem append_closed (closed : desk.queue.terminated = true) (task : Task) :
    desk.append task = (false, desk) := by
  rw [append, TaskQueue.append_eq_error.mpr ⟨closed, rfl⟩]

theorem append_spec (desk : Desk) (task : Task) : desk.Keeps (desk.append task).2 ∧
    desk.queue.Step (.append task (desk.queue.answer task)) (desk.append task).2.queue := by
  cases terminated : desk.queue.terminated with
  | false =>
      rw [append_open terminated, TaskQueue.answer_open terminated]
      exact ⟨⟨rfl, rfl⟩, .accept task (TaskQueue.append_eq_ok.mpr ⟨terminated, rfl⟩)⟩
  | true =>
      rw [append_closed terminated, TaskQueue.answer_closed terminated]
      exact ⟨⟨rfl, rfl⟩, .refuse task (TaskQueue.append_eq_error.mpr ⟨terminated, rfl⟩)⟩

theorem submit_spec (desk : Desk) (runner : Runner) (task : Task) :
    desk.Keeps (desk.submit runner task) ∧
      (desk.submit runner task).queue = (desk.append task).2.queue := by
  unfold submit
  cases terminated : desk.queue.terminated with
  | false =>
      rw [append_open terminated]
      exact ⟨⟨rfl, rfl⟩, rfl⟩
  | true =>
      rw [append_closed terminated]
      exact ⟨⟨rfl, rfl⟩, rfl⟩

theorem perform_spec (desk : Desk) (runner : Runner) (duty : Duty) :
    desk.Keeps (desk.perform runner duty) ∧
      desk.queue.Passes (desk.deal? duty) (desk.perform runner duty).queue := by
  cases duty with
  | announce task => exact announce_keeps desk task runner
  | submit task =>
      obtain ⟨keeps, same⟩ := submit_spec desk runner task
      refine ⟨keeps, ?_⟩
      show desk.queue.Step _ (desk.submit runner task).queue
      rw [same]
      exact (append_spec desk task).2
  | foreground context task => exact ⟨⟨rfl, rfl⟩, rfl⟩
  | terminate => exact ⟨⟨rfl, rfl⟩, .terminate⟩

theorem performEach_host (desk : Desk) (runner : Runner) (duties : List Duty) :
    (duties.foldl (perform · runner ·) desk).host = desk.host := by
  induction duties generalizing desk with
  | nil => rfl
  | cons duty rest ih => exact (ih _).trans (perform_spec desk runner duty).1.host

theorem postEach_eq (desk : Desk) (runner : Runner) (tasks : List Task) :
    desk.postEach runner tasks =
      (tasks.flatMap fun post => [.announce post, .submit post]).foldl (perform · runner ·) desk := by
  induction tasks generalizing desk with
  | nil => rfl
  | cons task rest ih => exact ih (desk.post runner task)

/-- The duties of a task, one after another, are its run. -/
theorem run_eq (desk : Desk) (runner : Runner) (task : Task) : desk.run runner task =
    (!task.fails, (task.duties desk.host).foldl (perform · runner ·) (desk.note .ran task runner)) := by
  let posted := (desk.note .ran task runner).postEach runner task.posts
  let handed := task.foreground.foldl (fun desk entry => desk.postForeground entry.1 entry.2) posted
  have foreground : (task.foreground.map fun entry => Duty.foreground entry.1 entry.2).foldl
      (perform · runner ·) posted = handed := List.foldl_map
  have host : handed.host = desk.host := by
    rw [← foreground, performEach_host, show posted = _ from postEach_eq _ runner task.posts,
      performEach_host]
    rfl
  have run : desk.run runner task =
      (!task.fails, if task.terminates ∧ handed.host = .queue then handed.terminate else handed) := rfl
  rw [run, Task.duties, List.foldl_append, List.foldl_append, ← postEach_eq, foreground, host]
  split <;> rfl

end Desk

end Reclaim
