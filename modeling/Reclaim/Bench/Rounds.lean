import Reclaim.Bench.Pages
import Reclaim.Setting

/-! Rounds at the bench: a coordinator whose sweepers stand at gates, so that batches are swept one
after another in the order in which the bench opens the gates. -/

namespace Reclaim

inductive Answer (α : Type) where
  | wouldBlock
  | got (value : α)
  deriving DecidableEq, Repr

structure SweeperStatus where
  index : Nat
  sweeping : Bool
  completed : Bool
  description : String
  deriving DecidableEq, Repr

def Sweeper.atGate (sweeper : Sweeper) : Bool :=
  match sweeper.phase with
  | .sweeping _ => true
  | _ => false

namespace Coordinator

def atGate (coordinator : Coordinator) (index : Nat) : Bool :=
  coordinator.sweepers[index]?.any Sweeper.atGate

def wakeEach (coordinator : Coordinator) (indices : List Nat) : Coordinator :=
  indices.foldl wake coordinator

def openGate (coordinator : Coordinator) (index : Nat) : Coordinator :=
  coordinator.runOut index

def enterLoops (coordinator : Coordinator) (indices : List Nat) : Coordinator :=
  indices.foldl enterLoop coordinator

end Coordinator

namespace Bench

def coordinator : Bench Coordinator := do
  match (← get).staff with
  | .nobody _ => throw .noCoordinator
  | .coordinated coordinator _ => return coordinator

def parked : Bench (List Nat) := do
  match (← get).staff with
  | .nobody _ => throw .noCoordinator
  | .coordinated _ parked => return parked

def setStaff (staff : Staff) : Bench Unit :=
  modify fun bench => { bench with staff }

def setCoordinator (coordinator : Coordinator) : Bench Unit := do
  setStaff (.coordinated coordinator (← parked))

def onCoordinator {α : Type} (operation : Coordinator → Except Fault α × Coordinator) :
    Bench α := do
  let (answer, left) := operation (← coordinator)
  setCoordinator left
  settle answer

def onCoordinator? {α : Type} (operation : Coordinator → Option (Except Fault α × Coordinator)) :
    Bench (Answer α) := do
  match operation (← coordinator) with
  | none => return .wouldBlock
  | some (answer, left) =>
      setCoordinator left
      return .got (← settle answer)

def stopIfAny : Bench Unit := do
  match (← get).staff with
  | .nobody _ => return
  | .coordinated coordinator parked =>
      let (answer, left) := (coordinator.enterLoops parked).stop
      setStaff (.coordinated left [])
      settle answer

def dropCoordinator : Bench Unit := do
  stopIfAny
  setStaff (.nobody (← get).site)

def employ (threads : Nat) (park : List Nat) : Bench Unit := do
  dropCoordinator
  let coordinator := Coordinator.fresh (← get).site threads
  let isParked (index : Nat) : Bool := index != 0 && park.contains index
  let indices := List.range threads
  let begun := indices.filter fun index => !isParked index
  setStaff (.coordinated (coordinator.enterLoops begun) (indices.filter isParked))

def employFor (setting : SweepSetting) (cores : Nat) : Bench Unit :=
  employ (setting.threadCount cores) []

def newHeap (id : HeapId) : Bench Unit := do
  dropCoordinator
  setHeap (.fresh id)

def start : Bench (Answer Unit) := do
  let current ← coordinator
  let spoiled (space : PagedSpace) : Bool := space.unswept.any (·.swept)
  if current.numThreads ≠ 0 ∧ (current.site.heap.spaces.toList.any spoiled) = true then
    return .wouldBlock
  onCoordinator Coordinator.start
  let parked ← parked
  let begun := (List.range current.numThreads).filter fun index => !parked.contains index
  setCoordinator ((← coordinator).wakeEach begun)
  return .got ()

def release (index : Nat) : Bench Bool := do
  let current ← coordinator
  if current.atGate index then
    setCoordinator (current.openGate index)
    return true
  else return false

def releaseTo (index waiters : Nat) : Bench Bool := do
  if ← release index then
    (List.range waiters).forM fun _ => do
      let _ ← onCoordinator? fun coordinator => coordinator.await? index
    return true
  else return false

def unpark (index : Nat) : Bench Bool := do
  let current ← coordinator
  let parked ← parked
  if parked.contains index then
    setStaff (.coordinated ((current.enterLoop index).wake index) (parked.erase index))
    return true
  else return false

def wait (index : Nat) : Bench (Answer Unit) :=
  onCoordinator? fun coordinator => coordinator.await? index

def takeOutcome (index : Nat) : Bench (Answer (Option BatchYield)) := do
  match ← settle ((← coordinator).takeOutcome? index) with
  | none => return .wouldBlock
  | some (outcome, left) =>
      setCoordinator left
      return .got outcome

def sweeperStatus (index : Nat) : Bench SweeperStatus := do
  let current ← coordinator
  let sweeper ← settle (current.sweeper index)
  let (completed, polled) := sweeper.poll
  setCoordinator (current.setSweeper polled)
  return {
    index := sweeper.index
    sweeping := sweeper.inFlight
    completed
    description := sweeper.describe }

def completed : Bench Bool :=
  onCoordinator fun coordinator =>
    let (completed, left) := coordinator.poll
    (.ok completed, left)

def ensure : Bench (Answer (Option RoundReport)) :=
  onCoordinator? Coordinator.ensure?

def runRound (order : List Nat) : Bench (Answer (Option RoundReport)) := do
  match ← start with
  | .wouldBlock => return .wouldBlock
  | .got () =>
      let indices := List.range (← coordinator).numThreads
      (order ++ indices).forM fun index => do
        let _ ← release index
      ensure

def stop : Bench Unit := do
  let _ ← coordinator
  stopIfAny

end Bench

end Reclaim
