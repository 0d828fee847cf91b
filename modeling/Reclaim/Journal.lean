import Reclaim.Text.Record

/-! The journal: what the collector and the workers report while they run, as spans entered and left
and as single events, each by the thread that reports it. -/

namespace Reclaim

inductive Actor where
  | main
  | sweeper (index : Nat)
  | worker
  deriving DecidableEq, Repr

inductive ExpectedRuntime where
  | short
  | long
  deriving DecidableEq, Repr, Inhabited

def ExpectedRuntime.label : ExpectedRuntime → String
  | .short => "Short"
  | .long => "Long"

inductive Span where
  | sweepRound (round threads pages : Nat)
  | sweepBatch (round index pages : Nat)
  | sweeperThread (index : Nat)
  deriving DecidableEq, Repr

inductive Event where
  | roundStart (round number threads pages : Nat)
  | batchSwept (sweeper : Option Nat) (pages freed : Nat)
  | roundComplete (round number pages freed : Nat)
  | sweeperStopped (index : Nat)
  | pagesRestored (round index pages : Nat)
  | workerPanicked (thread : String)
  | backgroundTaskPosted (runtime : ExpectedRuntime)
  deriving DecidableEq, Repr

inductive Entry where
  | enter (span : Span)
  | leave (span : Span)
  | report (event : Event)
  deriving DecidableEq, Repr

abbrev Journal := Array (Actor × Entry)

namespace Journal

def entriesOf (journal : Journal) (actor : Actor) : List Entry :=
  (journal.toList.filter fun line => decide (line.1 = actor)).map (·.2)

end Journal

def fieldLine (words : String) (fields : List (String × String)) : String :=
  " ".intercalate (words :: fields.map fun field => field.1 ++ "=" ++ field.2)

def numberField (name : String) (value : Nat) : String × String := (name, Text.describeNat value)

def describeSweeper : Option Nat → String
  | none => "None"
  | some index => "Some(" ++ Text.describeNat index ++ ")"

def Span.name : Span → String
  | .sweepRound .. => "sweep_round"
  | .sweepBatch .. => "sweep_batch"
  | .sweeperThread .. => "sweeper_thread"

def Span.fields : Span → List (String × String)
  | .sweepRound round threads pages =>
      [numberField "round" round, numberField "threads" threads, numberField "pages" pages]
  | .sweepBatch round index pages =>
      [numberField "round" round, numberField "index" index, numberField "pages" pages]
  | .sweeperThread index => [numberField "index" index]

def Event.words : Event → String
  | .roundStart .. => "DEBUG round_start"
  | .batchSwept .. => "TRACE batch_swept"
  | .roundComplete .. => "DEBUG round_complete"
  | .sweeperStopped .. => "DEBUG sweeper_stopped"
  | .pagesRestored .. => "DEBUG pages_restored"
  | .workerPanicked .. => "WARN worker_panicked"
  | .backgroundTaskPosted .. => "TRACE background_task_posted"

def Event.fields : Event → List (String × String)
  | .roundStart round number threads pages =>
      [numberField "round" round, numberField "number" number, numberField "threads" threads,
        numberField "pages" pages]
  | .batchSwept sweeper pages freed =>
      [("sweeper", describeSweeper sweeper), numberField "pages" pages,
        numberField "bytes_freed" freed]
  | .roundComplete round number pages freed =>
      [numberField "round" round, numberField "number" number, numberField "pages" pages,
        numberField "bytes_freed" freed]
  | .sweeperStopped index => [numberField "index" index]
  | .pagesRestored round index pages =>
      [numberField "round" round, numberField "index" index, numberField "pages" pages]
  | .workerPanicked thread => [("thread", "\"" ++ thread ++ "\"")]
  | .backgroundTaskPosted runtime => [("expected_runtime", runtime.label)]

def Entry.line : Entry → String
  | .enter span => fieldLine ("enter DEBUG " ++ span.name) span.fields
  | .leave span => "exit " ++ span.name
  | .report event => fieldLine event.words event.fields

end Reclaim
