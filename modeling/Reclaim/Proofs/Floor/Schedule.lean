import Mathlib.Logic.Relation
import Reclaim.Proofs.Floor.Account

/-! A desk that works off its queue by itself. What the desk does with a crew in one go is one schedule of
the threads: the first thread alive runs the tasks one after another, a thread that dies leaves the rest
to the next one, and in the end all who are left leave their loops. -/

namespace Reclaim

namespace Squad

def Labors (now later : Desk × Squad) : Prop :=
  ∃ place labor deal, Step now.1 now.2 (.labor place labor) deal later.1 later.2

abbrev Works : Desk × Squad → Desk × Squad → Prop := Relation.ReflTransGen Labors

def line (dead alive : Nat) : List Hand := List.replicate dead .died ++ List.replicate alive .free

variable {station : Station} {tenure : Tenure} {desk left : Desk} {task : Task}

theorem works_duties (early late : List Hand) (duties : List Duty) :
    Works (desk, ⟨station, early ++ .busy task duties :: late, tenure⟩)
      (duties.foldl (Desk.perform · station.runner ·) desk,
        ⟨station, early ++ .busy task [] :: late, tenure⟩) := by
  induction duties generalizing desk with
  | nil => exact .refl
  | cons duty rest ih => exact .head ⟨_, _, _, .labor .perform⟩ ih

theorem works_task (early late : List Hand) {queue : TaskQueue Task} {succeeded : Bool}
    (handed : desk.queue.next = .task task queue)
    (ran : Desk.run { desk with queue } station.runner task = (succeeded, left)) :
    Works (desk, ⟨station, early ++ .free :: late, tenure⟩)
      (if succeeded then left.count station.runner else left,
        ⟨station, early ++ (if succeeded then .free else .died) :: late, tenure⟩) := by
  rw [Desk.run_eq] at ran
  obtain ⟨rfl, rfl⟩ := Prod.mk.inj ran
  refine .head ⟨_, _, _, .labor (.take handed)⟩ (.tail (works_duties early late _) ?_)
  cases fails : task.fails with
  | false => exact ⟨_, _, _, .labor (.finish fails)⟩
  | true => exact ⟨_, _, _, .labor (.fail fails)⟩

theorem line_died (dead alive : Nat) :
    List.replicate dead .died ++ Hand.died :: List.replicate alive .free = line (dead + 1) alive := by
  rw [line, List.replicate_succ', List.append_assoc]
  rfl

theorem works_drain (station : Station) (tenure : Tenure) (desk : Desk) (threads dead : Nat) :
    (desk.drain station.runner threads).alive ≤ threads ∧
    ((desk.drain station.runner threads).alive = 0 ∨
      (desk.drain station.runner threads).desk.queue.pending = []) ∧
    Works (desk, ⟨station, line dead threads, tenure⟩)
      ((desk.drain station.runner threads).desk,
        ⟨station, line (dead + (threads - (desk.drain station.runner threads).alive))
          (desk.drain station.runner threads).alive, tenure⟩) := by
  -- The first thread alive takes each task. When it dies the next one is the first.
  fun_induction Desk.drain desk station.runner threads generalizing dead with
  | case1 desk => exact ⟨Nat.le_refl _, .inl rfl, .refl⟩
  | case2 desk threads some finished =>
      refine ⟨Nat.le_refl _, .inr (TaskQueue.next_eq_finished.mp finished).1, ?_⟩
      rw [Nat.sub_self]
      exact .refl
  | case3 desk threads some waiting =>
      refine ⟨Nat.le_refl _, .inr (TaskQueue.next_eq_waiting.mp waiting).1, ?_⟩
      rw [Nat.sub_self]
      exact .refl
  | case4 desk threads some task queue handed left ran ih =>
      obtain ⟨rest, rfl⟩ := Nat.exists_eq_succ_of_ne_zero some
      obtain ⟨fewer, ends, works⟩ := ih (dead + 1)
      simp only [Nat.succ_eq_add_one, Nat.add_sub_cancel] at fewer ends works ⊢
      refine ⟨Nat.le_succ_of_le fewer, ends, ?_⟩
      have first : Works (desk, ⟨station, _, tenure⟩) _ :=
        works_task (List.replicate dead .died) (List.replicate rest .free) handed ran
      have count : dead + (rest + 1 - (left.drain station.runner rest).alive) =
          dead + 1 + (rest - (left.drain station.runner rest).alive) := by omega
      rw [if_neg Bool.false_ne_true, if_neg Bool.false_ne_true, line_died] at first
      rw [count]
      exact first.trans works
  | case5 desk threads some task queue handed left ran after ih =>
      obtain ⟨rest, rfl⟩ := Nat.exists_eq_succ_of_ne_zero some
      obtain ⟨fewer, ends, works⟩ := ih dead
      refine ⟨fewer, ends, ?_⟩
      have first : Works (desk, ⟨station, _, tenure⟩) _ :=
        works_task (List.replicate dead .died) (List.replicate rest .free) handed ran
      exact first.trans works

/-! The crew that a line of threads is. -/

theorem line_running (dead alive : Nat) : Crew.running ((line dead alive).map Hand.state) = alive := by
  simp [line, Crew.running, List.count_append, List.count_replicate, Hand.state]

theorem bury_zero (crew : Crew) : (Crew.bury 0 crew).2 = crew := by
  cases crew <;> rfl

theorem bury_running (deaths alive : Nat) (fewer : deaths ≤ alive) :
    (Crew.bury deaths (List.replicate alive .running)).2 =
      List.replicate deaths .died ++ List.replicate (alive - deaths) .running := by
  induction deaths generalizing alive with
  | zero => exact bury_zero _
  | succ deaths ih =>
      obtain ⟨alive, rfl⟩ : ∃ rest, alive = rest + 1 := ⟨alive - 1, by omega⟩
      rw [Nat.add_sub_add_right]
      exact congrArg (List.cons .died) (ih alive (by omega))

theorem bury_line (deaths dead alive : Nat) (fewer : deaths ≤ alive) :
    (Crew.bury deaths ((line dead alive).map Hand.state)).2 =
      (line (dead + deaths) (alive - deaths)).map Hand.state := by
  have died (crew : Crew) : (Crew.bury deaths (.died :: crew)).2 = .died :: (Crew.bury deaths crew).2 := by
    cases deaths with
    | zero => rw [bury_zero, bury_zero]
    | succ deaths => rfl
  simp only [line, List.map_append, List.map_replicate]
  induction dead with
  | zero =>
      rw [Nat.zero_add]
      exact bury_running deaths alive fewer
  | succ dead ih =>
      rw [Nat.add_right_comm]
      exact (died _).trans (congrArg (List.cons _) ih)

theorem works_leave (early : List Hand) (alive : Nat) (finished : desk.queue.next = .finished) :
    Works (desk, ⟨station, early ++ List.replicate alive .free, tenure⟩)
      (desk, ⟨station, early ++ List.replicate alive .finished, tenure⟩) := by
  induction alive generalizing early with
  | zero => exact .refl
  | succ alive ih =>
      have rest := ih (early ++ [.finished])
      simp only [List.append_assoc, List.singleton_append] at rest
      exact .head ⟨_, _, _, .labor (.leave finished)⟩ rest

theorem Works.terminated {now later : Desk × Squad} (works : Works now later)
    (closed : now.1.queue.terminated = true) : later.1.queue.terminated = true := by
  induction works with
  | refl => exact closed
  | tail _ labors ih =>
      obtain ⟨_, _, _, step⟩ := labors
      exact step.frame.passes.terminated ih

/-- What a desk does with a crew in one go, the threads of the crew can do step by step. -/
theorem works_workOff (station : Station) (tenure : Tenure) (worker : station.runner = .worker)
    (desk : Desk) (dead alive : Nat) :
    ∃ hands, Works (desk, ⟨station, line dead alive, tenure⟩)
        ((desk.workOff ((line dead alive).map Hand.state)).2, ⟨station, hands, tenure⟩) ∧
      hands.map Hand.state = (desk.workOff ((line dead alive).map Hand.state)).1 ∧
      (desk.queue.terminated = true → ∀ hand ∈ hands, hand.state ≠ .running) := by
  obtain ⟨fewer, ends, works⟩ := works_drain station tenure desk alive dead
  rw [worker] at fewer ends works
  unfold Desk.workOff
  rw [line_running]
  dsimp only
  rw [bury_line _ _ _ (Nat.sub_le _ _), Nat.sub_sub_self fewer]
  generalize desk.drain .worker alive = drained at fewer ends works ⊢
  by_cases spent : drained.desk.queue.terminated ∧ drained.desk.queue.isEmpty
  · have finished : drained.desk.queue.next = .finished := by
      refine TaskQueue.next_eq_finished.mpr ⟨?_, spent.1⟩
      simpa [TaskQueue.isEmpty, TaskQueue.length] using spent.2
    refine ⟨_, works.trans (works_leave _ drained.alive finished), ?_, fun _ hand member => ?_⟩
    · rw [Crew.retire, if_pos spent]
      simp [line, Hand.state]
    · rcases List.mem_append.mp member with died | left
      · rw [List.eq_of_mem_replicate died]
        decide
      · rw [List.eq_of_mem_replicate left]
        decide
  · refine ⟨_, works, ?_, fun closed hand member => ?_⟩
    · rw [Crew.retire, if_neg spent]
    · have none : drained.alive = 0 := by
        refine ends.resolve_right fun empty => spent ⟨works.terminated closed, ?_⟩
        simp [TaskQueue.isEmpty, TaskQueue.length, empty]
      rw [line, none, List.replicate_zero, List.append_nil] at member
      rw [List.eq_of_mem_replicate member]
      decide

end Squad

theorem Floor.Run.works {first : Floor} {beats : List Beat} {before after : List Squad}
    {now later : Desk × Squad} (works : Squad.Works now later)
    (run : Floor.Run first beats ⟨now.1, before ++ now.2 :: after⟩) :
    ∃ more, Floor.Run first more ⟨later.1, before ++ later.2 :: after⟩ := by
  induction works with
  | refl => exact ⟨beats, run⟩
  | tail _ labors ih =>
      obtain ⟨more, run⟩ := ih
      obtain ⟨_, _, _, step⟩ := labors
      exact ⟨_, run.snoc (.squad step)⟩

theorem Floor.Run.workOff {first : Floor} {beats : List Beat} {desk : Desk} {before after : List Squad}
    {station : Station} {tenure : Tenure} {dead alive : Nat} (worker : station.runner = .worker)
    (run : Floor.Run first beats
      ⟨desk, before ++ ⟨station, Squad.line dead alive, tenure⟩ :: after⟩) :
    ∃ more hands, Floor.Run first more
        ⟨(desk.workOff ((Squad.line dead alive).map Hand.state)).2,
          before ++ ⟨station, hands, tenure⟩ :: after⟩ ∧
      hands.map Hand.state = (desk.workOff ((Squad.line dead alive).map Hand.state)).1 := by
  obtain ⟨hands, works, states, _⟩ := Squad.works_workOff station tenure worker desk dead alive
  obtain ⟨more, run⟩ := Floor.Run.works works run
  exact ⟨more, hands, run, states⟩

end Reclaim
