import Reclaim.Proofs.Task.Shift

/-! A forest of tasks that one thread works off. Each task joins the queue behind all that are there, so the
thread goes through the forest level by level, and it stops after at most as many runs as there are
tasks. -/

namespace Reclaim

namespace Desk

variable {runner : Runner} {desk last : Desk} {ran : List Task} {stop : Stop}

theorem Shift.unique (shift : Shift runner desk ran stop last) {others : List Task} {halt : Stop}
    {final : Desk} (again : Shift runner desk others halt final) :
    others = ran ∧ halt = stop ∧ final = last := by
  induction shift generalizing others halt final with
  | waits waiting =>
      cases again with
      | waits => exact ⟨rfl, rfl, rfl⟩
      | leaves finished => simp [waiting] at finished
      | dies handed | goes handed => simp [waiting] at handed
  | leaves finished =>
      cases again with
      | waits waiting => simp [finished] at waiting
      | leaves => exact ⟨rfl, rfl, rfl⟩
      | dies handed | goes handed => simp [finished] at handed
  | dies handed ended =>
      cases again with
      | waits waiting => simp [handed] at waiting
      | leaves finished => simp [handed] at finished
      | dies handed' ended' =>
          cases handed.symm.trans handed'
          cases ended.symm.trans ended'
          exact ⟨rfl, rfl, rfl⟩
      | goes handed' ended' =>
          cases handed.symm.trans handed'
          cases ended.symm.trans ended'
  | goes handed ended later ih =>
      cases again with
      | waits waiting => simp [handed] at waiting
      | leaves finished => simp [handed] at finished
      | dies handed' ended' =>
          cases handed.symm.trans handed'
          cases ended.symm.trans ended'
      | goes handed' ended' later' =>
          cases handed.symm.trans handed'
          cases ended.symm.trans ended'
          obtain ⟨rfl, same⟩ := ih later'
          exact ⟨rfl, same⟩

/-- Every shift ends, and it is what a desk does with one thread. -/
theorem drain_shift (desk : Desk) (runner : Runner) : ∃ ran stop last, Shift runner desk ran stop last ∧
    desk.drain runner 1 =
      ⟨stop.alive, (ran.filter fun task => !task.fails).length, last⟩ := by
  generalize one : 1 = threads
  fun_induction Desk.drain desk runner threads with
  | case1 => cases one
  | case2 desk threads some finished => exact ⟨[], .leaves, desk, .leaves finished, one ▸ rfl⟩
  | case3 desk threads some waiting => exact ⟨[], .waits, desk, .waits waiting, one ▸ rfl⟩
  | case4 desk threads some task queue handed left ended =>
      have fails : task.fails = true := run_fails ended
      refine ⟨[task], .dies, left, .dies handed ended, ?_⟩
      rw [← one, Desk.drain, if_pos rfl]
      simp [fails, Stop.alive]
  | case5 desk threads some task queue handed left ended after ih =>
      have succeeds : task.fails = false := run_fails ended
      obtain ⟨ran, stop, last, later, same⟩ := ih one
      refine ⟨task :: ran, stop, last, .goes handed ended later, ?_⟩
      simp [after, same, succeeds]

structure BreadthFirst (runner : Runner) (desk : Desk) (ran : List Task) (stop : Stop)
    (last : Desk) : Prop where
  few : ran.length ≤ (Task.forest desk.queue.pending).length
  heard : Shift.Heard runner desk ran last
  /-- With no task that terminates the queue or fails, all tasks are run, level by level. -/
  whole : (∀ task ∈ Task.forest desk.queue.pending,
      task.closes desk.host = false ∧ task.fails = false) →
    ran = Task.levelOrder desk.queue.pending ∧ ran.Perm (Task.forest desk.queue.pending) ∧
      last.queue = ⟨[], false⟩ ∧ stop = .waits
  /-- The first task that terminates the queue is the last one whose posts are taken in. What has been taken in
  by then is run, and what later tasks post is refused. -/
  closed : ∀ done task later, ran = done ++ task :: later →
    (∀ other ∈ done, other.closes desk.host = false) → task.closes desk.host = true →
      last.log.toList = desk.log.toList ++ (done ++ [task]).map (ranLine runner) ++
        later.flatMap (unheardLines runner) ∧
      ((∀ other ∈ ran, other.fails = false) →
        ran = desk.queue.pending ++ (done ++ [task]).flatMap Task.posts ∧
          last.queue = ⟨[], true⟩ ∧ stop = .leaves)
  /-- A task that fails is the last one that is run. What has been taken in and not been run waits. -/
  failed : ∀ done task later, ran = done ++ task :: later → task.fails = true →
    later = [] ∧ stop = .dies ∧ last.queue.pending =
      (desk.queue.pending ++ (Task.heard desk.host ran).flatMap Task.posts).drop ran.length

namespace Shift

theorem few (heard : Heard runner desk ran last) :
    ran.length ≤ (Task.forest desk.queue.pending).length := by
  rw [← (Task.levelOrder_perm desk.queue.pending).length_eq]
  exact heard.levels.length_le

theorem whole (shift : Shift runner desk ran stop last) (heard : Heard runner desk ran last)
    (calm : ∀ task ∈ Task.forest desk.queue.pending,
      task.closes desk.host = false ∧ task.fails = false) :
    ran = Task.levelOrder desk.queue.pending ∧ ran.Perm (Task.forest desk.queue.pending) ∧
      last.queue = ⟨[], false⟩ ∧ stop = .waits := by
  have perm := Task.levelOrder_perm desk.queue.pending
  have member : ∀ task ∈ ran, task ∈ Task.forest desk.queue.pending := fun task inside =>
    perm.mem_iff.mp (heard.levels.subset inside)
  have unclosed : ∀ task ∈ ran, task.closes desk.host = false := fun task inside =>
    (calm task (member task inside)).1
  have live : last.queue.terminated = false := by
    rw [heard.terminated, List.any_eq_false]
    intro task inside
    simp [unclosed task inside]
  have ended := shift.stopped
  cases stop with
  | leaves => simp [ended.1] at live
  | dies =>
      obtain ⟨done, task, rfl, fails, _⟩ := ended
      simp [(calm task (member task (by simp))).2] at fails
  | waits =>
      have order := heard.order
      rw [ended.1, (Task.heard_none unclosed).1, List.append_nil] at order
      have same : ran = Task.levelOrder desk.queue.pending := by
        obtain ⟨rest, split⟩ := heard.levels
        have below := Task.levelOrder_posts desk.queue.pending
        rw [← split, List.flatMap_append, ← List.append_assoc, ← order] at below
        -- What is left of the level order would be posted by itself.
        have none : rest = [] := by
          by_contra some
          have lighter := Task.weights_posts_lt some
          rw [List.append_cancel_left below] at lighter
          exact Nat.lt_irrefl _ lighter
        rw [← split, none, List.append_nil]
      exact ⟨same, same ▸ perm, ended.1, rfl⟩

theorem ended (shift : Shift runner desk ran stop last) (heard : Heard runner desk ran last)
    {done later : List Task} {task : Task} (split : ran = done ++ task :: later)
    (before : ∀ other ∈ done, other.closes desk.host = false)
    (closing : task.closes desk.host = true) (succeed : ∀ other ∈ ran, other.fails = false) :
    ran = desk.queue.pending ++ (done ++ [task]).flatMap Task.posts ∧
      last.queue = ⟨[], true⟩ ∧ stop = .leaves := by
  have terminated : last.queue.terminated = true := by
    rw [heard.terminated, List.any_eq_true]
    exact ⟨task, by simp [split], closing⟩
  have order := heard.order
  have stopped := shift.stopped
  cases stop with
  | waits => simp [stopped.1] at terminated
  | dies =>
      obtain ⟨front, final, rfl, fails, _⟩ := stopped
      simp [succeed final (by simp)] at fails
  | leaves =>
      rw [stopped.1, List.append_nil] at order
      refine ⟨?_, stopped.1, rfl⟩
      rw [order, split, (Task.heard_first _ before closing).1]

theorem killed (shift : Shift runner desk ran stop last) {done later : List Task} {task : Task}
    (split : ran = done ++ task :: later) (fails : task.fails = true) :
    later = [] ∧ stop = .dies := by
  have stopped := shift.stopped
  cases stop with
  | waits | leaves => simp [stopped.2 task (by simp [split])] at fails
  | dies =>
      obtain ⟨front, final, same, _, before⟩ := stopped
      refine ⟨?_, rfl⟩
      by_contra some
      obtain ⟨rest, other, rfl⟩ := (List.eq_nil_or_concat later).resolve_left some
      have whole : front ++ [final] = done ++ task :: rest ++ [other] := by
        rw [← same, split]
        simp
      obtain ⟨rfl, _⟩ := List.append_inj' whole rfl
      simp [before task (by simp)] at fails

theorem breadthFirst (shift : Shift runner desk ran stop last)
    (live : desk.queue.terminated = false) : BreadthFirst runner desk ran stop last := by
  have heard := shift.heard live
  refine ⟨few heard, heard, shift.whole heard, fun done task later split before closing => ?_,
    fun done task later split fails => ?_⟩
  · obtain ⟨front, back⟩ := Task.heard_first later before closing
    refine ⟨?_, shift.ended heard split before closing⟩
    rw [heard.log, split, front, back]
  · obtain ⟨nothing, dies⟩ := shift.killed split fails
    refine ⟨nothing, dies, ?_⟩
    rw [← heard.order, List.drop_left]

end Shift

/-- A thread that is alone at a desk with a forest stops, in one way only, and it has gone through the forest
level by level. -/
theorem drain_breadthFirst (desk : Desk) (runner : Runner) (live : desk.queue.terminated = false) :
    ∃ ran stop last, Shift runner desk ran stop last ∧
      (∀ others halt final, Shift runner desk others halt final →
        others = ran ∧ halt = stop ∧ final = last) ∧
      desk.drain runner 1 = ⟨stop.alive, (ran.filter fun task => !task.fails).length, last⟩ ∧
      BreadthFirst runner desk ran stop last := by
  obtain ⟨ran, stop, last, shift, drained⟩ := drain_shift desk runner
  exact ⟨ran, stop, last, shift, fun _ _ _ again => shift.unique again, drained,
    shift.breadthFirst live⟩

def sampleRoots : List Task :=
  -- A forest of three roots. The second one terminates the queue, so that the post of the third
  -- is refused.
  let leaf (id : Nat) : Task := .make id [] [] .short false false
  [.make 1 [leaf 4, leaf 5] [] .short false false, .make 2 [leaf 6] [] .long true false,
    .make 3 [leaf 7] [] .short false false]

def sampleDesk : Desk := { Desk.fresh .queue with queue := ⟨sampleRoots, false⟩ }

theorem sampleDesk_breadthFirst : sampleDesk.queue.terminated = false ∧
    ∃ ran last, Shift .worker sampleDesk ran .leaves last ∧ ran.map Task.id = [1, 2, 3, 4, 5, 6] ∧
      (sampleDesk.drain .worker 1).alive = 1 ∧ (sampleDesk.drain .worker 1).succeeded = 6 ∧
      BreadthFirst .worker sampleDesk ran .leaves last := by
  have shift : Shift .worker sampleDesk _ .leaves _ :=
    .goes rfl rfl (.goes rfl rfl (.goes rfl rfl (.goes rfl rfl (.goes rfl rfl (.goes rfl rfl
      (.leaves rfl))))))
  obtain ⟨ran, stop, last, _, unique, drained, first⟩ := drain_breadthFirst sampleDesk .worker rfl
  obtain ⟨rfl, rfl, rfl⟩ := unique _ _ _ shift
  exact ⟨rfl, _, _, shift, rfl, by rw [drained]; rfl, by rw [drained]; rfl, first⟩

end Desk

end Reclaim
