import Reclaim.Task.Desk

/-! Crews: worker threads that serve one desk. A worker leaves its loop when the queue is terminated
and empty; a task that fails kills the worker that runs it, and nobody takes its place. -/

namespace Reclaim

inductive WorkerState where
  | running
  | finished
  | died
  deriving DecidableEq, Repr

abbrev Crew := List WorkerState

namespace Crew

def start (threads : Nat) : Crew := List.replicate threads .running

def running (crew : Crew) : Nat := crew.count .running

def dead (crew : Crew) : Nat := crew.count .died

def bury : Nat → Crew → Nat × Crew
  | deaths, [] => (deaths, [])
  | 0, crew => (0, crew)
  | deaths + 1, .running :: rest =>
      let (left, rest) := bury deaths rest
      (left, .died :: rest)
  | deaths, worker :: rest =>
      let (left, rest) := bury deaths rest
      (left, worker :: rest)

def retire (crew : Crew) (queue : TaskQueue Task) : Crew :=
  if queue.terminated ∧ queue.isEmpty then
    crew.map fun worker => if worker = .running then .finished else worker
  else crew

end Crew

namespace Desk

def workOff (desk : Desk) (crew : Crew) : Crew × Desk :=
  let drained := desk.drain .worker crew.running
  let (_, left) := Crew.bury (crew.running - drained.alive) crew
  (Crew.retire left drained.desk.queue, drained.desk)

def join (desk : Desk) (crew : Crew) : Desk :=
  (List.replicate crew.dead ()).foldl
    (fun desk _ => desk.report .main (.workerPanicked Runner.worker.label)) desk

end Desk

end Reclaim
