import Reclaim.Identity

/-! Foreground queues: one for each context, first in, first out, each run only by who pumps its
context. -/

namespace Reclaim

abbrev Foreground (α : Type) := List (ContextId × List α)

namespace Foreground

variable {α : Type}

def push (queues : Foreground α) (context : ContextId) (task : α) : Foreground α :=
  match queues with
  | [] => [(context, [task])]
  | (other, pending) :: rest =>
      if other = context then (other, pending ++ [task]) :: rest
      else (other, pending) :: Foreground.push rest context task

def pendingIn (queues : Foreground α) (context : ContextId) : List α :=
  (queues.lookup context).getD []

def pop (queues : Foreground α) (context : ContextId) : Option (α × Foreground α) :=
  match queues with
  | [] => none
  | (other, pending) :: rest =>
      if other = context then
        match pending with
        | [] => none
        | task :: later => some (task, (other, later) :: rest)
      else (Foreground.pop rest context).map fun (task, rest) => (task, (other, pending) :: rest)

def all (queues : Foreground α) : List α := queues.flatMap (·.2)

end Foreground

end Reclaim
