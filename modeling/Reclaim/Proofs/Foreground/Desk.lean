import Reclaim.Platform
import Reclaim.Proofs.Floor.Duties
import Reclaim.Proofs.Foreground.Queues

/-! What tasks do to the foreground queues. A task that runs posts to the contexts that it names and takes
nothing from any of them, whoever runs it and however it ends. So a pump takes one task and no other, and a
shutdown, which runs what waits in the background, leaves the foreground tasks where they are. -/

namespace Reclaim

namespace Dispatch

variable {α : Type}

def isPost : Dispatch α → Bool
  | .post _ _ => true
  | .pump _ _ => false

end Dispatch

def Duty.dispatches : Duty → List (Dispatch Task)
  | .foreground context task => [.post context task]
  | _ => []

def Task.dispatches (task : Task) : List (Dispatch Task) :=
  task.foreground.map fun entry => .post entry.1 entry.2

theorem Duty.dispatches_post {duty : Duty} {dispatch : Dispatch Task}
    (member : dispatch ∈ duty.dispatches) : dispatch.isPost = true := by
  cases duty with
  | foreground context task =>
      obtain rfl := List.mem_singleton.mp member
      rfl
  | announce => cases member
  | submit => cases member
  | terminate => cases member

theorem Task.dispatches_post {task : Task} {dispatch : Dispatch Task}
    (member : dispatch ∈ task.dispatches) : dispatch.isPost = true := by
  obtain ⟨entry, _, rfl⟩ := List.mem_map.mp member
  rfl

theorem Task.dispatches_duties (task : Task) (host : Host) :
    (task.duties host).flatMap Duty.dispatches = task.dispatches := by
  have silent : (task.posts.flatMap fun post => [Duty.announce post, .submit post]).flatMap
      Duty.dispatches = [] := by
    rw [List.flatMap_assoc, List.flatMap_eq_nil_iff]
    intro post _
    rfl
  have posts : (task.foreground.map fun entry => Duty.foreground entry.1 entry.2).flatMap
      Duty.dispatches = task.dispatches := by
    rw [List.flatMap_map]
    exact List.map_eq_flatMap.symm
  have ending : (if task.terminates ∧ host = .queue then [Duty.terminate] else []).flatMap
      Duty.dispatches = [] := by
    split
    · rfl
    · rfl
  unfold Task.duties
  rw [List.flatMap_append, List.flatMap_append, silent, posts, ending, List.append_nil,
    List.nil_append]

namespace Foreground

variable {α : Type} {first queues : Foreground α} {dispatches : List (Dispatch α)}

theorem Run.grows (run : Run first dispatches queues)
    (posts : ∀ dispatch ∈ dispatches, dispatch.isPost = true) (context : ContextId) :
    queues.pendingIn context = first.pendingIn context ++ postedTo context dispatches := by
  have pending := run.pending context
  have nothing : ranIn context dispatches = [] := by
    apply List.filterMap_eq_nil_iff.mpr
    intro dispatch member
    have post := posts dispatch member
    cases dispatch with
    | post => rfl
    | pump => cases post
  rwa [nothing, List.nil_append] at pending

end Foreground

namespace Desk

variable (desk : Desk) (runner : Runner) (task : Task)

theorem announce_foreground : (desk.announce task runner).foreground = desk.foreground := by
  unfold announce
  split
  · rfl
  · rfl

theorem append_foreground : (desk.append task).2.foreground = desk.foreground := by
  unfold append
  split
  · rfl
  · rfl

theorem submit_foreground : (desk.submit runner task).foreground = desk.foreground := by
  have same := append_foreground desk task
  unfold submit
  split
  next equal =>
    rw [equal] at same
    exact same
  next equal =>
    rw [equal] at same
    exact same

theorem perform_dispatches (duty : Duty) :
    Foreground.Run desk.foreground duty.dispatches (desk.perform runner duty).foreground := by
  cases duty with
  | foreground context task => exact .snoc .nil (.post context task)
  | announce task =>
      have same := announce_foreground desk runner task
      unfold perform
      rw [same]
      exact .nil
  | submit task =>
      have same := submit_foreground desk runner task
      unfold perform
      rw [same]
      exact .nil
  | terminate => exact .nil

theorem performEach_dispatches (duties : List Duty) :
    Foreground.Run desk.foreground (duties.flatMap Duty.dispatches)
      (duties.foldl (perform · runner ·) desk).foreground := by
  induction duties generalizing desk with
  | nil => exact .nil
  | cons duty rest ih => exact (perform_dispatches desk runner duty).append (ih _)

theorem run_dispatches :
    Foreground.Run desk.foreground task.dispatches (desk.run runner task).2.foreground := by
  rw [run_eq, ← Task.dispatches_duties task desk.host]
  exact performEach_dispatches (desk.note .ran task runner) runner _

theorem count_foreground : (desk.count runner).foreground = desk.foreground := by
  unfold count
  split
  · rfl
  · rfl

theorem drain_dispatches (threads : Nat) : ∃ tasks : List Task,
    Foreground.Run desk.foreground (tasks.flatMap Task.dispatches)
      (desk.drain runner threads).desk.foreground := by
  fun_induction Desk.drain desk runner threads with
  | case1 => exact ⟨[], .nil⟩
  | case2 => exact ⟨[], .nil⟩
  | case3 => exact ⟨[], .nil⟩
  | case4 desk threads some task queue handed left ran ih =>
      obtain ⟨tasks, later⟩ := ih
      have first := run_dispatches { desk with queue } runner task
      rw [ran] at first
      exact ⟨task :: tasks, first.append later⟩
  | case5 desk threads some task queue handed left ran after ih =>
      obtain ⟨tasks, later⟩ := ih
      have first := run_dispatches { desk with queue } runner task
      rw [ran] at first
      rw [count_foreground] at later
      exact ⟨task :: tasks, first.append later⟩

theorem join_foreground (crew : Crew) : (desk.join crew).foreground = desk.foreground := by
  unfold join
  induction List.replicate crew.dead () generalizing desk with
  | nil => rfl
  | cons _ rest ih => exact ih _

end Desk

namespace Platform

open Foreground

variable (platform : Platform) (context : ContextId)

theorem ensurePool_desk : platform.ensurePool.desk = platform.desk := by
  unfold ensurePool
  split
  · rfl
  · split
    · rfl
    · rfl

theorem runHere_eq (task : Task) : (platform.runHere task).1 = task.result (!task.fails) ∧
    (platform.runHere task).2.desk = (platform.desk.run .main task).2 := by
  refine ⟨rfl, ?_⟩
  unfold runHere
  dsimp only
  split
  · rfl
  · exact ensurePool_desk _

/-- A pump runs the task at the head of the queue of its context, if there is one. Each queue then holds what
it held, without that task, and what the task has posted to it, whether the task has failed or not. -/
theorem pump_eq : (platform.pump context).1 =
      (platform.desk.foreground.pendingIn context).head?.map (fun task => task.result (!task.fails)) ∧
    ∀ other, (platform.pump context).2.desk.foreground.pendingIn other =
      (if other = context then (platform.desk.foreground.pendingIn context).tail
        else platform.desk.foreground.pendingIn other) ++
      (platform.desk.foreground.pendingIn context).head?.toList.flatMap fun task =>
        postedTo other task.dispatches := by
  unfold pump
  cases popped : platform.desk.foreground.pop context with
  | none =>
      have empty := pop_eq_none.mp popped
      rw [empty]
      refine ⟨rfl, ?_⟩
      intro other
      by_cases same : other = context
      · rw [if_pos same, same, empty]
        rfl
      · rw [if_neg same]
        exact (List.append_nil _).symm
  | some found =>
      obtain ⟨task, left⟩ := found
      obtain ⟨here, others⟩ := pop_eq_some popped
      obtain ⟨result, desk⟩ :=
        runHere_eq { platform with desk := { platform.desk with foreground := left } } task
      rw [here]
      refine ⟨congrArg some result, ?_⟩
      intro other
      have posts := Desk.run_dispatches { platform.desk with foreground := left } .main task
      have grown := posts.grows (fun _ member => Task.dispatches_post member) other
      dsimp only at desk grown ⊢
      rw [desk, grown]
      by_cases same : other = context
      · rw [if_pos same, same]
        simp
      · rw [if_neg same, others other (Ne.symm same)]
        simp

theorem workOff_dispatches (desk : Desk) (crew : Crew) : ∃ tasks : List Task,
    Run desk.foreground (tasks.flatMap Task.dispatches) (desk.workOff crew).2.foreground :=
  desk.drain_dispatches .worker crew.running

/-- A shutdown takes nothing from a foreground queue. Background tasks that it waits for may add to it. -/
theorem shutdown_dispatches : ∃ tasks : List Task,
    Run platform.desk.foreground (tasks.flatMap Task.dispatches)
      platform.shutdown.desk.foreground := by
  unfold shutdown close joinCrew
  cases platform.terminate.pool with
  | none => exact ⟨[], .nil⟩
  | some crew =>
      obtain ⟨tasks, run⟩ := workOff_dispatches platform.terminate.desk crew
      refine ⟨tasks, ?_⟩
      dsimp only
      rw [Desk.join_foreground]
      exact run

end Platform

end Reclaim
