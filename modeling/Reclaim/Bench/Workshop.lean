import Reclaim.Task.Crew

/-! A workshop: one task queue with numbered pools and numbered single workers that serve it.
Between two operations the workers have done all the work they can find. -/

namespace Reclaim

inductive Taken where
  | workersRunning
  | wouldBlock
  | finished
  | discarded
  | ran (result : TaskResult)
  deriving DecidableEq, Repr

inductive Consumed where
  | ran (tasks : Nat)
  | died (consumers : Nat)
  deriving DecidableEq, Repr

structure Workshop where
  desk : Desk
  pools : List (Nat × Crew)
  workers : List (Nat × Crew)
  everStarted : Bool

namespace Workshop

def fresh : Workshop := ⟨.fresh .queue, [], [], false⟩

def crews (shop : Workshop) : List Crew := shop.pools.map (·.2) ++ shop.workers.map (·.2)

def running (shop : Workshop) : Nat := Word.total (shop.crews.map Crew.running)

def settleCrews (queue : TaskQueue Task) : Nat → List (Nat × Crew) → Nat × List (Nat × Crew)
  | deaths, [] => (deaths, [])
  | deaths, (number, crew) :: rest =>
      let (left, crew) := crew.bury deaths
      let (left, rest) := settleCrews queue left rest
      (left, (number, crew.retire queue) :: rest)

def settle (shop : Workshop) : Workshop :=
  let drained := shop.desk.drain .worker shop.running
  let (deaths, pools) := settleCrews drained.desk.queue (shop.running - drained.alive) shop.pools
  let (_, workers) := settleCrews drained.desk.queue deaths shop.workers
  { shop with desk := drained.desk, pools, workers }

def runHere (shop : Workshop) (task : Task) : TaskResult × Workshop :=
  let (succeeded, desk) := shop.desk.run .main task
  (task.result succeeded, { shop with desk })

def append (shop : Workshop) (task : Task) (runRejected : Bool) : Posted × Workshop :=
  match shop.desk.append task with
  | (true, desk) => (.accepted, { shop with desk }.settle)
  | (false, desk) =>
      if runRejected then (.refused, ({ shop with desk }.runHere task).2.settle)
      else (.refused, { shop with desk := desk.dropTask task })

def mayTake (shop : Workshop) : Bool :=
  !shop.everStarted || (shop.pools.isEmpty && shop.workers.isEmpty)

def takeNext (shop : Workshop) (handle : Workshop → Task → Taken × Workshop) : Taken × Workshop :=
  if shop.mayTake then
    match shop.desk.queue.next with
    | .finished => (.finished, shop)
    | .waiting => (.wouldBlock, shop)
    | .task task queue => handle { shop with desk := { shop.desk with queue } } task
  else (.workersRunning, shop)

def next (shop : Workshop) : Taken × Workshop :=
  shop.takeNext fun shop task =>
    let (result, shop) := shop.runHere task
    (.ran result, shop)

def discard (shop : Workshop) : Taken × Workshop :=
  shop.takeNext fun shop task => (.discarded, { shop with desk := shop.desk.dropTask task })

def terminate (shop : Workshop) : Workshop :=
  { shop with desk := { shop.desk with queue := shop.desk.queue.terminate } }.settle

def length (shop : Workshop) : Nat := shop.desk.queue.length

def tasksRun (shop : Workshop) : Nat := shop.desk.counters.tasks

def hire (number : Nat) (crew : Crew) (crews : List (Nat × Crew)) : List (Nat × Crew) :=
  crews.filter (fun entry => entry.1 != number) ++ [(number, crew)]

def joinCrew (shop : Workshop) (crew : Crew) : Workshop := { shop with desk := shop.desk.join crew }

def dropPool (shop : Workshop) (number : Nat) : Workshop :=
  let shop := shop.terminate
  let crew := (shop.pools.lookup number).getD []
  { shop with pools := shop.pools.filter fun entry => entry.1 != number }.joinCrew crew

def startPool (shop : Workshop) (number threads : Nat) : Workshop :=
  let freed := if (shop.pools.lookup number).isSome then shop.dropPool number else shop
  { freed with
    pools := hire number (.start threads) freed.pools
    everStarted := freed.everStarted || threads != 0 }.settle

def workerCrew (shop : Workshop) (number : Nat) : Crew := (shop.workers.lookup number).getD []

def workerFinished (shop : Workshop) (number : Nat) : Bool :=
  (shop.workerCrew number).running == 0

def dropWorker? (shop : Workshop) (number : Nat) : Option Workshop :=
  if shop.workerFinished number then
    let crew := shop.workerCrew number
    some
      ({ shop with workers := shop.workers.filter fun entry => entry.1 != number }.joinCrew crew)
  else none

def startWorker? (shop : Workshop) (number : Nat) : Option Workshop :=
  (shop.dropWorker? number).map fun freed =>
    { freed with workers := hire number (.start 1) freed.workers, everStarted := true }.settle

/-- Starts consumer threads, which work off what waits already; then posts tasks, waits until all is
done, terminates the queue and joins the consumers. -/
def consume (shop : Workshop) (consumers : Nat) (tasks : List Task) : Consumed × Workshop :=
  let before := shop.desk.drain .consumer consumers
  let after := (before.desk.postEach .main tasks).drain .consumer before.alive
  let died := consumers - after.alive
  let shop := { shop with
    desk := after.desk
    everStarted := shop.everStarted || consumers != 0 }.terminate
  (if died = 0 then .ran (before.succeeded + after.succeeded) else .died died, shop)

def takeLog (shop : Workshop) (sorted : Bool) : List LogLine × Workshop :=
  let (lines, desk) := shop.desk.takeLog
  (if sorted then lines.mergeSort LogLine.le else lines, { shop with desk })

def close (shop : Workshop) : Workshop :=
  let shop := shop.terminate
  { (shop.crews.foldl joinCrew shop) with pools := [], workers := [] }

def clear (shop : Workshop) : Workshop :=
  { shop with desk := shop.desk.dropEach shop.desk.queue.pending }

end Workshop

end Reclaim
