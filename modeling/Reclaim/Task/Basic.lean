import Reclaim.Identity
import Reclaim.Journal

/-! Tasks. Running a task posts further tasks in the background, then some in the foreground, may
terminate its queue, and may fail at its end. -/

namespace Reclaim

inductive Posted where
  | accepted
  | refused
  deriving DecidableEq, Repr

inductive TaskResult where
  | succeeded
  | failed (message : String)
  deriving DecidableEq, Repr

inductive Task where
  | make (id : Nat) (posts : List Task) (foreground : List (ContextId × Task))
      (runtime : ExpectedRuntime) (terminates fails : Bool)

namespace Task

def id : Task → Nat
  | .make id .. => id

def posts : Task → List Task
  | .make _ posts .. => posts

def foreground : Task → List (ContextId × Task)
  | .make _ _ foreground .. => foreground

def runtime : Task → ExpectedRuntime
  | .make _ _ _ runtime _ _ => runtime

def terminates : Task → Bool
  | .make _ _ _ _ terminates _ => terminates

def fails : Task → Bool
  | .make _ _ _ _ _ fails => fails

def failure (task : Task) : String := "task " ++ toString task.id ++ " failed"

def result (task : Task) (succeeded : Bool) : TaskResult :=
  if succeeded then .succeeded else .failed task.failure

mutual

def weight : Task → Nat
  | .make _ posts _ _ _ _ => 1 + weights posts

def weights : List Task → Nat
  | [] => 0
  | task :: rest => task.weight + weights rest

end

theorem weight_eq (task : Task) : task.weight = 1 + weights task.posts := by
  cases task with
  | make id posts foreground runtime terminates fails => simp [weight, Task.posts]

theorem weights_append (left right : List Task) :
    weights (left ++ right) = weights left + weights right := by
  induction left with
  | nil => simp [weights]
  | cons task rest ih => simp [weights, ih, Nat.add_assoc]

end Task

end Reclaim
