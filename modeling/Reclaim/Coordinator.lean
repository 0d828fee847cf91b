import Reclaim.Batches
import Reclaim.Journal
import Reclaim.Sweeper

/-! The coordinator: it divides the unswept pages of a heap among its sweepers, round by round,
waits for them, and reports each round once. Without sweepers a round is swept by the caller. -/

namespace Reclaim

structure RoundReport where
  number : Nat
  threads : Nat
  pages : Nat
  freed : Nat
  perThread : List Nat
  deriving DecidableEq, Repr

structure RoundState where
  number : Nat
  id : Nat
  pending : Bool
  merged : BatchYield
  perThread : List Nat
  last : Option RoundReport
  deriving DecidableEq, Repr

namespace RoundState

def fresh : RoundState :=
  { number := 0, id := 0, pending := false, merged := .zero, perThread := [], last := none }

def merge (round : RoundState) (index : Nat) (outcome : BatchYield) :
    Except Fault Unit × RoundState :=
  match round.merged.merge outcome with
  | (.error fault, merged) => (.error fault, { round with merged })
  | (.ok (), merged) =>
      match round.perThread[index]? with
      | none => (.ok (), { round with merged })
      | some pages =>
          match Word.add pages outcome.pages with
          | .error fault => (.error fault, { round with merged })
          | .ok pages =>
              (.ok (), { round with merged, perThread := round.perThread.set index pages })

end RoundState

structure Site where
  heap : Heap
  counters : Counters
  nextRound : Nat
  journal : Journal

namespace Site

def fresh (heap : HeapId) : Site :=
  { heap := .fresh heap, counters := .zero, nextRound := 1, journal := #[] }

def note (site : Site) (actor : Actor) (entry : Entry) : Site :=
  { site with journal := site.journal.push (actor, entry) }

def sweepPages (site : Site) (actor : Actor) (sweeper : Option Nat) (pages : List Page) :
    Except Fault BatchYield × Site :=
  match site.heap.sweepPages pages with
  | (.error fault, heap) => (.error fault, { site with heap })
  | (.ok outcome, heap) =>
      (.ok outcome,
        { site with heap }.note actor (.report (.batchSwept sweeper outcome.pages outcome.freed)))

end Site

structure Coordinator where
  site : Site
  sweepers : List Sweeper
  round : RoundState
  stopped : Bool

namespace Coordinator

def fresh (site : Site) (threads : Nat) : Coordinator :=
  { site
    sweepers := (List.range threads).map Sweeper.fresh
    round := .fresh
    stopped := false }

def numThreads (coordinator : Coordinator) : Nat := coordinator.sweepers.length

def note (coordinator : Coordinator) (actor : Actor) (entry : Entry) : Coordinator :=
  { coordinator with site := coordinator.site.note actor entry }

def setSweeper (coordinator : Coordinator) (sweeper : Sweeper) : Coordinator :=
  { coordinator with sweepers := coordinator.sweepers.set sweeper.index sweeper }

def sweeper (coordinator : Coordinator) (index : Nat) : Except Fault Sweeper :=
  match coordinator.sweepers[index]? with
  | none => .error (.indexOutOfRange coordinator.sweepers.length index)
  | some sweeper => .ok sweeper

def inProgress (coordinator : Coordinator) : Bool :=
  coordinator.sweepers.any (·.inFlight)

def pollEach : List Sweeper → Bool × List Sweeper
  | [] => (true, [])
  | sweeper :: rest =>
      match sweeper.poll with
      | (false, sweeper) => (false, sweeper :: rest)
      | (true, sweeper) =>
          let (completed, rest) := pollEach rest
          (completed, sweeper :: rest)

def poll (coordinator : Coordinator) : Bool × Coordinator :=
  let (completed, sweepers) := pollEach coordinator.sweepers
  (completed, { coordinator with sweepers })

def finalize (coordinator : Coordinator) : Option RoundReport × Coordinator :=
  let round := coordinator.round
  if round.pending then
    let report : RoundReport :=
      { number := round.number
        threads := coordinator.numThreads
        pages := round.merged.pages
        freed := round.merged.freed
        perThread := round.perThread }
    let site :=
      { coordinator.site with
        counters := coordinator.site.counters.recordRound report.pages report.freed }
    let reported :=
      { coordinator with
        site
        round := { round with pending := false, perThread := [], last := some report } }
    (some report,
      reported.note .main
        (.report (.roundComplete round.id report.number report.pages report.freed)))
  else (none, coordinator)

def deal (round : Nat) : List Sweeper → List (List Page) → Except Fault Unit × List Sweeper
  | sweeper :: sweepers, batch :: batches =>
      match sweeper.assign batch round with
      | .error fault => (.error fault, sweeper :: sweepers)
      | .ok assigned =>
          match assigned.launch with
          | .error fault => (.error fault, assigned :: sweepers)
          | .ok started =>
              let (result, rest) := deal round sweepers batches
              (result, started :: rest)
  | sweepers, _ => (.ok (), sweepers)

def openRound (coordinator : Coordinator) : Coordinator :=
  { coordinator with
    site := { coordinator.site with nextRound := Word.wrappingAdd coordinator.site.nextRound 1 }
    round :=
      { coordinator.round with
        number := coordinator.round.number + 1
        id := coordinator.site.nextRound
        pending := true
        merged := .zero
        perThread := List.replicate coordinator.numThreads 0 } }

def sweepHere (coordinator : Coordinator) (pages : List Page) : Except Fault Unit × Coordinator :=
  match coordinator.site.sweepPages .main none pages with
  | (.error fault, site) => (.error fault, { coordinator with site })
  | (.ok merged, site) =>
      (.ok (),
        ({ coordinator with site, round := { coordinator.round with merged } }.finalize).2)

def dispatch (coordinator : Coordinator) (pages : List Page) : Except Fault Unit × Coordinator :=
  match batches pages coordinator.numThreads with
  | .error fault => (.error fault, coordinator)
  | .ok parts =>
      let (result, sweepers) := deal coordinator.round.id coordinator.sweepers parts
      (result, { coordinator with sweepers })

def start (coordinator : Coordinator) : Except Fault Unit × Coordinator :=
  if coordinator.stopped then (.error .startAfterStop, coordinator)
  else if coordinator.inProgress then (.error .roundInFlight, coordinator)
  else
    let (_, coordinator) := coordinator.finalize
    let (pages, heap) := coordinator.site.heap.takeUnswept
    let coordinator := { coordinator with site := { coordinator.site with heap } }.openRound
    let round := coordinator.round
    let threads := coordinator.numThreads
    let span := Span.sweepRound round.id threads pages.length
    let coordinator := (coordinator.note .main (.enter span)).note .main
      (.report (.roundStart round.id round.number threads pages.length))
    let (result, coordinator) :=
      if threads = 0 then coordinator.sweepHere pages else coordinator.dispatch pages
    (result, coordinator.note .main (.leave span))

def merge (coordinator : Coordinator) (index : Nat) : Option BatchYield →
    Except Fault Unit × Coordinator
  | none => (.ok (), coordinator)
  | some outcome =>
      let (result, round) := coordinator.round.merge index outcome
      (result, { coordinator with round })

def takeOutcome? (coordinator : Coordinator) (index : Nat) :
    Except Fault (Option (Option BatchYield × Coordinator)) :=
  match coordinator.sweeper index with
  | .error fault => .error fault
  | .ok sweeper =>
      .ok (sweeper.await?.map fun (outcome, sweeper) => (outcome, coordinator.setSweeper sweeper))

/-- Waits for one sweeper and merges its outcome into the round. Nothing when the caller has to
wait. -/
def await? (coordinator : Coordinator) (index : Nat) :
    Option (Except Fault Unit × Coordinator) :=
  match coordinator.takeOutcome? index with
  | .error fault => some (.error fault, coordinator)
  | .ok none => none
  | .ok (some (outcome, coordinator)) => some (coordinator.merge index outcome)

def awaitEach? (coordinator : Coordinator) : List Nat → Option (Except Fault Unit × Coordinator)
  | [] => some (.ok (), coordinator)
  | index :: rest =>
      match coordinator.await? index with
      | none => none
      | some (.error fault, coordinator) => some (.error fault, coordinator)
      | some (.ok (), coordinator) => coordinator.awaitEach? rest

def ensure? (coordinator : Coordinator) :
    Option (Except Fault (Option RoundReport) × Coordinator) :=
  match coordinator.awaitEach? (List.range coordinator.numThreads) with
  | none => none
  | some (.error fault, coordinator) => some (.error fault, coordinator)
  | some (.ok (), coordinator) =>
      let (report, coordinator) := coordinator.finalize
      some (.ok report, coordinator)

/-! The sweepers' steps. -/

def enterLoop (coordinator : Coordinator) (index : Nat) : Coordinator :=
  coordinator.note (.sweeper index) (.enter (.sweeperThread index))

def noteWoken (coordinator : Coordinator) (sweeper : Sweeper) : Coordinator :=
  let actor := Actor.sweeper sweeper.index
  match sweeper.phase with
  | .sweeping batch =>
      coordinator.note actor (.enter (.sweepBatch batch.round sweeper.index batch.pages.length))
  | .exited =>
      (coordinator.note actor (.report (.sweeperStopped sweeper.index))).note actor
        (.leave (.sweeperThread sweeper.index))
  | _ => coordinator

def wake (coordinator : Coordinator) (index : Nat) : Coordinator :=
  match coordinator.sweepers[index]? with
  | none => coordinator
  | some sweeper =>
      match sweeper.wake? coordinator.stopped with
      | none => coordinator
      | some sweeper => (coordinator.setSweeper sweeper).noteWoken sweeper

def sweep (coordinator : Coordinator) (index : Nat) : Coordinator :=
  match coordinator.sweepers[index]? with
  | none => coordinator
  | some sweeper =>
      match sweeper.phase with
      | .sweeping batch =>
          let actor := Actor.sweeper index
          let span := Span.sweepBatch batch.round index batch.pages.length
          match coordinator.site.sweepPages actor (some index) batch.pages with
          | (.error _, site) =>
              (({ coordinator with site }.setSweeper { sweeper with phase := .died }).note actor
                (.leave span)).note actor (.leave (.sweeperThread index))
          | (.ok outcome, site) =>
              ({ coordinator with site }.setSweeper (sweeper.finish outcome)).note actor
                (.leave span)
      | _ => coordinator

def runOut (coordinator : Coordinator) (index : Nat) : Coordinator :=
  (coordinator.sweep index).wake index

/-! Stopping. -/

def giveBack (coordinator : Coordinator) (index : Nat) (left : Assignment) : Coordinator :=
  if left.pages.isEmpty then coordinator
  else
    let noted :=
      coordinator.note .main (.report (.pagesRestored left.round index left.pages.length))
    { noted with
      site := { noted.site with heap := noted.site.heap.restoreUnswept left.pages } }

/-- Stops one sweeper: it is woken, runs to its exit and is joined; an outcome that nobody waited
for is merged, and pages it never got to are given back. A dead sweeper cannot be joined. -/
def stopSweeper (coordinator : Coordinator) (index : Nat) : Except Fault Unit × Coordinator :=
  match coordinator.sweepers[index]? with
  | none => (.ok (), coordinator)
  | some sweeper =>
      let coordinator := (coordinator.setSweeper sweeper.nudge).runOut index
      match coordinator.sweepers[index]?.bind Sweeper.join? with
      | none => (.ok (), coordinator)
      | some (left, sweeper) =>
          let (outcome, sweeper) := sweeper.takeOutcome
          match (coordinator.setSweeper sweeper).merge index outcome with
          | (.error fault, coordinator) => (.error fault, coordinator)
          | (.ok (), coordinator) => (.ok (), coordinator.giveBack index left)

def stopEach (coordinator : Coordinator) : List Nat → Except Fault Unit × Coordinator
  | [] => (.ok (), coordinator)
  | index :: rest =>
      match coordinator.stopSweeper index with
      | (.error fault, coordinator) => (.error fault, coordinator)
      | (.ok (), coordinator) => coordinator.stopEach rest

def stop (coordinator : Coordinator) : Except Fault Unit × Coordinator :=
  if coordinator.stopped then (.ok (), coordinator)
  else
    match { coordinator with stopped := true }.stopEach (List.range coordinator.numThreads) with
    | (.error fault, coordinator) => (.error fault, coordinator)
    | (.ok (), coordinator) => (.ok (), (coordinator.finalize).2)

end Coordinator

open Text in
def Sweeper.describe (sweeper : Sweeper) : String :=
  describePartial "SweeperThread"
    [("index", describeNat sweeper.index), ("sweeping", describeBool sweeper.inFlight),
      ("running", describeBool sweeper.joinable)]

end Reclaim
