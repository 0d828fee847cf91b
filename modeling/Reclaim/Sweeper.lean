import Reclaim.Heap
import Reclaim.Semaphore

/-! A sweeper thread and the handshake with those who wait for it. The coordinator leaves a batch
and posts a permit on `begun`; the sweeper wakes, takes the batch, sweeps it, leaves the outcome and
posts a permit on `ended`. The small operations are steps that no other thread can split; the larger
ones are runs of such steps. -/

namespace Reclaim

structure Assignment where
  round : Nat
  pages : List Page
  deriving DecidableEq, Repr

def Assignment.none : Assignment := ⟨0, []⟩

/-- Where a sweeper thread stands in its loop: waiting for a permit; holding one, with the stop flag
not yet looked at; past that look; sweeping a batch; done with it; with its outcome left for the
waiters; told to stop; out of the loop; or dead of a fault in the middle of a batch. -/
inductive SweeperPhase where
  | idle
  | woken
  | cleared
  | sweeping (batch : Assignment)
  | swept (outcome : BatchYield)
  | reported
  | leaving
  | exited
  | died
  deriving DecidableEq, Repr

/-- A sweeper thread with the state it shares with its coordinator. `inFlight` holds from the start
of a round until its end has been consumed, `completed` once the end has been seen, `joinable` until
the thread has been joined. -/
structure Sweeper where
  index : Nat
  phase : SweeperPhase
  begun : Semaphore
  ended : Semaphore
  stopped : Semaphore
  assignment : Assignment
  outcome : Option BatchYield
  inFlight : Bool
  completed : Bool
  joinable : Bool
  deriving DecidableEq, Repr

namespace Sweeper

def fresh (index : Nat) : Sweeper :=
  { index
    phase := .idle
    begun := ⟨0⟩
    ended := ⟨0⟩
    stopped := ⟨0⟩
    assignment := .none
    outcome := none
    inFlight := false
    completed := false
    joinable := true }

/-! Steps of the coordinator and of those who wait. -/

def assign (sweeper : Sweeper) (pages : List Page) (round : Nat) : Except Fault Sweeper :=
  if sweeper.assignment.pages.isEmpty then
    .ok { sweeper with assignment := ⟨round, sweeper.assignment.pages ++ pages⟩ }
  else .error (.batchStillHeld sweeper.index)

def nudge (sweeper : Sweeper) : Sweeper := { sweeper with begun := sweeper.begun.post }

def setCompleted (sweeper : Sweeper) (completed : Bool) : Sweeper := { sweeper with completed }

def setInFlight (sweeper : Sweeper) (inFlight : Bool) : Sweeper := { sweeper with inFlight }

def acquireEnd? (sweeper : Sweeper) : Option Sweeper :=
  sweeper.ended.acquire?.map fun ended => { sweeper with ended }

def returnEnd (sweeper : Sweeper) : Sweeper := { sweeper with ended := sweeper.ended.post }

def takeOutcome (sweeper : Sweeper) : Option BatchYield × Sweeper :=
  (sweeper.outcome, { sweeper with outcome := none })

def takeAssignment (sweeper : Sweeper) : Assignment × Sweeper :=
  (sweeper.assignment, { sweeper with assignment := .none })

def acquireStopped? (sweeper : Sweeper) : Option Sweeper :=
  sweeper.stopped.acquire?.map fun stopped => { sweeper with stopped, joinable := false }

def launch (sweeper : Sweeper) : Except Fault Sweeper :=
  let cleared := sweeper.setCompleted false
  if cleared.inFlight then .error (.sweeperStillInFlight sweeper.index)
  else .ok (cleared.setInFlight true).nudge

def isFinishedRound (sweeper : Sweeper) : Bool := !sweeper.inFlight || sweeper.completed

/-- Waits for the round in flight and takes its outcome. Without one it answers at once that there
is no outcome to take. Nothing when the caller has to wait. -/
def await? (sweeper : Sweeper) : Option (Option BatchYield × Sweeper) :=
  if sweeper.inFlight then
    sweeper.acquireEnd?.map fun taken => ((taken.setCompleted true).setInFlight false).takeOutcome
  else some (none, sweeper)

/-- Whether the sweeper has ended its round, without waiting and without consuming the end: the
permit is borrowed and given back. -/
def poll (sweeper : Sweeper) : Bool × Sweeper :=
  if sweeper.isFinishedRound then (true, sweeper)
  else
    match sweeper.acquireEnd? with
    | some borrowed => (true, (borrowed.setCompleted true).returnEnd)
    | none => (sweeper.isFinishedRound, sweeper)

def join? (sweeper : Sweeper) : Option (Assignment × Sweeper) :=
  sweeper.acquireStopped?.map fun joined => (joined.setInFlight false).takeAssignment

/-! Steps of the sweeper itself. -/

def takePermit? (sweeper : Sweeper) : Option Sweeper :=
  match sweeper.phase with
  | .idle => sweeper.begun.acquire?.map fun begun => { sweeper with begun, phase := .woken }
  | _ => none

def heed (sweeper : Sweeper) (stop : Bool) : Sweeper :=
  match sweeper.phase with
  | .woken => { sweeper with phase := if stop then .leaving else .cleared }
  | _ => sweeper

def takeBatch (sweeper : Sweeper) : Sweeper :=
  match sweeper.phase with
  | .cleared => { sweeper with phase := .sweeping sweeper.assignment, assignment := .none }
  | _ => sweeper

def concludeBatch (sweeper : Sweeper) (outcome : BatchYield) : Sweeper :=
  match sweeper.phase with
  | .sweeping _ => { sweeper with phase := .swept outcome }
  | _ => sweeper

def leaveOutcome (sweeper : Sweeper) : Sweeper :=
  match sweeper.phase with
  | .swept outcome => { sweeper with outcome := some outcome, phase := .reported }
  | _ => sweeper

def signalEnd (sweeper : Sweeper) : Sweeper :=
  match sweeper.phase with
  | .reported => { sweeper with ended := sweeper.ended.post, phase := .idle }
  | _ => sweeper

def acknowledge (sweeper : Sweeper) : Sweeper :=
  match sweeper.phase with
  | .leaving => { sweeper with stopped := sweeper.stopped.post, phase := .exited }
  | _ => sweeper

def wake? (sweeper : Sweeper) (stop : Bool) : Option Sweeper :=
  sweeper.takePermit?.map fun woken => (woken.heed stop).takeBatch.acknowledge

def finish (sweeper : Sweeper) (outcome : BatchYield) : Sweeper :=
  ((sweeper.concludeBatch outcome).leaveOutcome).signalEnd

end Sweeper

end Reclaim
