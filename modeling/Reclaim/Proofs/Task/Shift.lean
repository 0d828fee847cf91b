import Reclaim.Proofs.Floor.Duties
import Reclaim.Proofs.Task.Forest

/-! One thread alone at a desk. It takes and runs tasks until none waits, until it is told to leave, or until
a task kills it. Tasks run in the order in which they were taken in, and that is level order; the first
one that terminates the queue is the last one whose posts are taken in. -/

namespace Reclaim

namespace Task

def closes (host : Host) (task : Task) : Bool := task.terminates && decide (host = .queue)

def heard (host : Host) : List Task → List Task
  | [] => []
  | task :: rest => if task.closes host then [task] else task :: heard host rest

def unheard (host : Host) : List Task → List Task
  | [] => []
  | task :: rest => if task.closes host then rest else unheard host rest

variable {host : Host}

theorem heard_first {done : List Task} {task : Task} (later : List Task)
    (before : ∀ other ∈ done, other.closes host = false) (closing : task.closes host = true) :
    heard host (done ++ task :: later) = done ++ [task] ∧
      unheard host (done ++ task :: later) = later := by
  induction done with
  | nil => simp [heard, unheard, closing]
  | cons other done ih =>
      obtain ⟨here, rest⟩ := List.forall_mem_cons.mp before
      obtain ⟨front, back⟩ := ih rest
      simp [heard, unheard, here, front, back]

theorem heard_none {tasks : List Task} (live : ∀ task ∈ tasks, task.closes host = false) :
    heard host tasks = tasks ∧ unheard host tasks = [] := by
  induction tasks with
  | nil => exact ⟨rfl, rfl⟩
  | cons task rest ih =>
      obtain ⟨here, later⟩ := List.forall_mem_cons.mp live
      obtain ⟨front, back⟩ := ih later
      simp [heard, unheard, here, front, back]

end Task

namespace Desk

inductive Stop where
  | waits
  | leaves
  | dies
  deriving DecidableEq, Repr

def Stop.alive : Stop → Nat
  | .waits | .leaves => 1
  | .dies => 0

inductive Shift (runner : Runner) : Desk → List Task → Stop → Desk → Prop
  | waits {desk : Desk} (waiting : desk.queue.next = .waiting) : Shift runner desk [] .waits desk
  | leaves {desk : Desk} (finished : desk.queue.next = .finished) : Shift runner desk [] .leaves desk
  | dies {desk left : Desk} {task : Task} {queue : TaskQueue Task}
      (handed : desk.queue.next = .task task queue)
      (ran : Desk.run { desk with queue } runner task = (false, left)) :
      Shift runner desk [task] .dies left
  | goes {desk left last : Desk} {task : Task} {queue : TaskQueue Task} {rest : List Task} {stop : Stop}
      (handed : desk.queue.next = .task task queue)
      (ran : Desk.run { desk with queue } runner task = (true, left))
      (later : Shift runner (left.count runner) rest stop last) :
      Shift runner desk (task :: rest) stop last

/-! What the run of one task does to the queue and the log. -/

def ranLine (runner : Runner) (task : Task) : LogLine := ⟨.ran, task.id, runner⟩

def refusedLines (runner : Runner) (task : Task) : List LogLine :=
  [⟨.rejected, task.id, runner⟩, ⟨.dropped, task.id, runner⟩]

def unheardLines (runner : Runner) (task : Task) : List LogLine :=
  ranLine runner task :: task.posts.flatMap (refusedLines runner)

theorem announce_log (desk : Desk) (task : Task) (runner : Runner) :
    (desk.announce task runner).log = desk.log := by
  unfold announce
  split <;> rfl

theorem post_live {desk : Desk} (live : desk.queue.terminated = false) (runner : Runner) (task : Task) :
    (desk.post runner task).host = desk.host ∧
      (desk.post runner task).queue = ⟨desk.queue.pending ++ [task], false⟩ ∧
      (desk.post runner task).log = desk.log := by
  obtain ⟨keeps, same⟩ := announce_keeps desk task runner
  unfold post
  rw [append_open (same ▸ live)]
  dsimp only
  rw [same, live]
  exact ⟨keeps.host, rfl, announce_log desk task runner⟩

theorem post_closed {desk : Desk} (closed : desk.queue.terminated = true) (runner : Runner)
    (task : Task) : (desk.post runner task).host = desk.host ∧
      (desk.post runner task).queue = desk.queue ∧
      (desk.post runner task).log.toList = desk.log.toList ++ refusedLines runner task := by
  obtain ⟨keeps, same⟩ := announce_keeps desk task runner
  unfold post
  rw [append_closed (same ▸ closed)]
  refine ⟨keeps.host, same, ?_⟩
  simp [note, announce_log, refusedLines]

theorem postEach_live {desk : Desk} (live : desk.queue.terminated = false) (runner : Runner)
    (tasks : List Task) : (desk.postEach runner tasks).host = desk.host ∧
      (desk.postEach runner tasks).queue = ⟨desk.queue.pending ++ tasks, false⟩ ∧
      (desk.postEach runner tasks).log = desk.log := by
  induction tasks generalizing desk with
  | nil => exact ⟨rfl, by simp [postEach, ← live], rfl⟩
  | cons task rest ih =>
      obtain ⟨host, queue, log⟩ := post_live live runner task
      obtain ⟨hosts, queues, logs⟩ := @ih (desk.post runner task) (by rw [queue])
      refine ⟨hosts.trans host, ?_, logs.trans log⟩
      rw [postEach, queues, queue, List.append_assoc, List.singleton_append]

theorem postEach_closed {desk : Desk} (closed : desk.queue.terminated = true) (runner : Runner)
    (tasks : List Task) : (desk.postEach runner tasks).host = desk.host ∧
      (desk.postEach runner tasks).queue = desk.queue ∧
      (desk.postEach runner tasks).log.toList =
        desk.log.toList ++ tasks.flatMap (refusedLines runner) := by
  induction tasks generalizing desk with
  | nil => exact ⟨rfl, rfl, (List.append_nil _).symm⟩
  | cons task rest ih =>
      obtain ⟨host, queue, log⟩ := post_closed closed runner task
      obtain ⟨hosts, queues, logs⟩ := @ih (desk.post runner task) (by rw [queue, closed])
      refine ⟨hosts.trans host, queues.trans queue, ?_⟩
      rw [postEach, logs, log, List.append_assoc, List.flatMap_cons]

theorem postForeground_keeps (desk : Desk) (entries : List (ContextId × Task)) :
    (entries.foldl (fun desk entry => desk.postForeground entry.1 entry.2) desk).host = desk.host ∧
      (entries.foldl (fun desk entry => desk.postForeground entry.1 entry.2) desk).log = desk.log := by
  induction entries generalizing desk with
  | nil => exact ⟨rfl, rfl⟩
  | cons entry rest ih => exact ih (desk.postForeground entry.1 entry.2)

/-- After its posts a task does nothing but terminate the queue, if it does that, and fail, if it does. -/
theorem run_posted (desk : Desk) (runner : Runner) (task : Task) {posted : Desk}
    (posts : (desk.note .ran task runner).postEach runner task.posts = posted) :
    (desk.run runner task).1 = !task.fails ∧ (desk.run runner task).2.host = posted.host ∧
      (desk.run runner task).2.log = posted.log ∧
      (desk.run runner task).2.queue =
        if task.closes posted.host then posted.queue.terminate else posted.queue := by
  have queue := foreground_queue posted task.foreground
  obtain ⟨host, log⟩ := postForeground_keeps posted task.foreground
  unfold run Task.closes
  dsimp only
  rw [posts, host]
  by_cases ends : task.terminates = true ∧ posted.host = .queue
  · simp [ends, log, queue]
  · have stays : (task.terminates && decide (posted.host = .queue)) = false := by simpa using ends
    simp [ends, stays, host, log, queue]

structure Ran (desk : Desk) (task : Task) (queue : TaskQueue Task) (lines : List LogLine)
    (ended : Bool × Desk) : Prop where
  succeeded : ended.1 = !task.fails
  host : ended.2.host = desk.host
  queue : ended.2.queue = queue
  log : ended.2.log.toList = desk.log.toList ++ lines

theorem run_live (desk : Desk) (live : desk.queue.terminated = false) (runner : Runner) (task : Task) :
    desk.Ran task ⟨desk.queue.pending ++ task.posts, task.closes desk.host⟩ [ranLine runner task]
      (desk.run runner task) := by
  obtain ⟨hosts, queues, logs⟩ :=
    @postEach_live (desk.note .ran task runner) live runner task.posts
  obtain ⟨succeeded, host, log, queue⟩ := run_posted desk runner task rfl
  refine ⟨succeeded, host.trans hosts, ?_, ?_⟩
  · rw [queue, queues, hosts]
    show (if task.closes desk.host then _ else _) = _
    cases task.closes desk.host <;> rfl
  · rw [log, logs]
    simp [note, ranLine]

theorem run_closed (desk : Desk) (closed : desk.queue.terminated = true) (runner : Runner)
    (task : Task) :
    desk.Ran task desk.queue (unheardLines runner task) (desk.run runner task) := by
  obtain ⟨hosts, queues, logs⟩ :=
    @postEach_closed (desk.note .ran task runner) closed runner task.posts
  obtain ⟨succeeded, host, log, queue⟩ := run_posted desk runner task rfl
  have same : desk.queue.terminate = desk.queue := by rw [TaskQueue.terminate, ← closed]
  refine ⟨succeeded, host.trans hosts, ?_, ?_⟩
  · rw [queue, queues]
    show (if _ then desk.queue.terminate else desk.queue) = desk.queue
    rw [same, ite_self]
  · rw [log, logs]
    simp [note, unheardLines, ranLine]

theorem run_fails {desk left : Desk} {runner : Runner} {task : Task} {succeeded : Bool}
    (ended : desk.run runner task = (succeeded, left)) : task.fails = !succeeded := by
  have result : (!task.fails) = succeeded := congrArg Prod.fst ended
  rw [← result, Bool.not_not]

theorem count_keeps (desk : Desk) (runner : Runner) : (desk.count runner).host = desk.host ∧
    (desk.count runner).queue = desk.queue ∧ (desk.count runner).log = desk.log := by
  unfold count
  split <;> exact ⟨rfl, rfl, rfl⟩

namespace Shift

variable {runner : Runner} {desk last : Desk} {ran : List Task} {stop : Stop}

/-- Whoever comes to a queue that has been terminated runs what waits, in order, and nothing else. -/
theorem closed (shift : Shift runner desk ran stop last) (closed : desk.queue.terminated = true) :
    ran ++ last.queue.pending = desk.queue.pending ∧ last.queue.terminated = true ∧
      last.log.toList = desk.log.toList ++ ran.flatMap (unheardLines runner) := by
  induction shift with
  | waits | leaves => exact ⟨rfl, closed, (List.append_nil _).symm⟩
  | @dies desk left task queue handed ended =>
      obtain ⟨pending, same⟩ := TaskQueue.next_eq_task handed
      have after := run_closed { desk with queue } (same.trans closed) runner task
      rw [ended] at after
      refine ⟨?_, ?_, ?_⟩
      · rw [after.queue, pending]
        rfl
      · rw [after.queue]
        exact same.trans closed
      · rw [after.log, List.flatMap_singleton]
  | @goes desk left last task queue rest stop handed ended later ih =>
      obtain ⟨pending, same⟩ := TaskQueue.next_eq_task handed
      have after := run_closed { desk with queue } (same.trans closed) runner task
      rw [ended] at after
      obtain ⟨_, kept, log⟩ := count_keeps left runner
      rw [kept, log, after.queue, after.log] at ih
      obtain ⟨order, terminated, lines⟩ := ih (same.trans closed)
      refine ⟨?_, terminated, ?_⟩
      · rw [pending, ← order]
        rfl
      · rw [lines, List.flatMap_cons, List.append_assoc]

structure Heard (runner : Runner) (desk : Desk) (ran : List Task) (last : Desk) : Prop where
  order : ran ++ last.queue.pending =
    desk.queue.pending ++ (Task.heard desk.host ran).flatMap Task.posts
  terminated : last.queue.terminated = ran.any (Task.closes desk.host)
  log : last.log.toList = desk.log.toList ++ (Task.heard desk.host ran).map (ranLine runner) ++
    (Task.unheard desk.host ran).flatMap (unheardLines runner)
  levels : ran <+: Task.levelOrder desk.queue.pending

-- The induction is on the shift. A task that terminates the queue leaves the rest to `closed`, any other one
-- leaves a queue on which the shift goes on in level order.
theorem heard (shift : Shift runner desk ran stop last) (live : desk.queue.terminated = false) :
    Heard runner desk ran last := by
  induction shift with
  | waits | leaves =>
      exact ⟨(List.append_nil _).symm, live, by simp [Task.heard, Task.unheard], List.nil_prefix⟩
  | @dies desk left task queue handed ended =>
      obtain ⟨pending, same⟩ := TaskQueue.next_eq_task handed
      have after := run_live { desk with queue } (same.trans live) runner task
      rw [ended] at after
      have alone : Task.heard desk.host [task] = [task] ∧ Task.unheard desk.host [task] = [] := by
        cases closing : task.closes desk.host <;> simp [Task.heard, Task.unheard, closing]
      constructor
      · rw [after.queue, pending, alone.1, List.flatMap_singleton]
        rfl
      · rw [after.queue]
        simp
      · rw [after.log, alone.1, alone.2]
        simp
      · rw [pending, Task.levelOrder_cons]
        exact ⟨_, rfl⟩
  | @goes desk left last task queue rest stop handed ended later ih =>
      obtain ⟨pending, same⟩ := TaskQueue.next_eq_task handed
      have after := run_live { desk with queue } (same.trans live) runner task
      rw [ended] at after
      obtain ⟨host, kept, log⟩ := count_keeps left runner
      have host : (left.count runner).host = desk.host := host.trans after.host
      have queued : (left.count runner).queue =
          ⟨queue.pending ++ task.posts, task.closes desk.host⟩ := kept.trans after.queue
      have lines : (left.count runner).log.toList = desk.log.toList ++ [ranLine runner task] := by
        rw [log, after.log]
      cases closing : task.closes desk.host with
      | true =>
          obtain ⟨order, terminated, refused⟩ := later.closed (by rw [queued, closing])
          have order : rest ++ last.queue.pending = queue.pending ++ task.posts := by
            rw [order, queued]
          have first : Task.heard desk.host (task :: rest) = [task] ∧
              Task.unheard desk.host (task :: rest) = rest := by
            simp [Task.heard, Task.unheard, closing]
          constructor
          · rw [first.1, pending, List.cons_append, order, List.flatMap_singleton]
            rfl
          · rw [terminated, List.any_cons, closing]
            rfl
          · rw [refused, lines, first.1, first.2]
            rfl
          · rw [pending, Task.levelOrder_cons, Task.levelOrder_eq, ← order, List.append_assoc]
            exact List.prefix_append (task :: rest) _
      | false =>
          obtain ⟨order, terminated, log, levels⟩ := ih (by rw [queued, closing])
          rw [host, queued] at order
          rw [host] at terminated
          rw [host, lines] at log
          rw [queued] at levels
          have next : Task.heard desk.host (task :: rest) = task :: Task.heard desk.host rest ∧
              Task.unheard desk.host (task :: rest) = Task.unheard desk.host rest := by
            simp [Task.heard, Task.unheard, closing]
          constructor
          · rw [next.1, pending, List.cons_append, order, List.flatMap_cons]
            simp
          · rw [terminated, List.any_cons, closing]
            rfl
          · rw [log, next.1, next.2]
            simp
          · rw [pending, Task.levelOrder_cons]
            exact List.prefix_cons_inj task |>.mpr levels

def Stopped (ran : List Task) (last : Desk) : Stop → Prop
  | .waits => last.queue = ⟨[], false⟩ ∧ ∀ task ∈ ran, task.fails = false
  | .leaves => last.queue = ⟨[], true⟩ ∧ ∀ task ∈ ran, task.fails = false
  | .dies => ∃ done task, ran = done ++ [task] ∧ task.fails = true ∧
      ∀ other ∈ done, other.fails = false

theorem stopped (shift : Shift runner desk ran stop last) : Stopped ran last stop := by
  induction shift with
  | @waits desk waiting =>
      obtain ⟨empty, live⟩ := TaskQueue.next_eq_waiting.mp waiting
      exact ⟨by rw [← empty, ← live], nofun⟩
  | @leaves desk finished =>
      obtain ⟨empty, closed⟩ := TaskQueue.next_eq_finished.mp finished
      exact ⟨by rw [← empty, ← closed], nofun⟩
  | @dies desk left task queue handed ended =>
      exact ⟨[], task, rfl, run_fails ended, nofun⟩
  | @goes desk left last task queue rest stop handed ended later ih =>
      have succeeds : task.fails = false := run_fails ended
      cases stop with
      | waits => exact ⟨ih.1, List.forall_mem_cons.mpr ⟨succeeds, ih.2⟩⟩
      | leaves => exact ⟨ih.1, List.forall_mem_cons.mpr ⟨succeeds, ih.2⟩⟩
      | dies =>
          obtain ⟨done, final, rfl, fails, before⟩ := ih
          exact ⟨task :: done, final, rfl, fails, List.forall_mem_cons.mpr ⟨succeeds, before⟩⟩

end Shift

end Desk

end Reclaim
