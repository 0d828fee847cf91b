import Reclaim.Text.Blank
import Reclaim.Text.Quoted
import Reclaim.Text.Record
import Reclaim.Word

/-! Settings: how many threads sweep and how many run background tasks, read from variables or given
outright. -/

namespace Reclaim

def maxSweepers : Nat := 4

def maxPoolSize : Nat := 4

inductive Variable where
  | concurrentSweeping
  | parallelSweeping
  | sweeperThreads
  | poolSize
  deriving DecidableEq, Repr

def Variable.name : Variable → String
  | .concurrentSweeping => "RUDO_CONCURRENT_SWEEPING"
  | .parallelSweeping => "RUDO_PARALLEL_SWEEPING"
  | .sweeperThreads => "RUDO_SWEEPER_THREADS"
  | .poolSize => "RUDO_THREAD_POOL_SIZE"

def Variable.all : List Variable :=
  [.concurrentSweeping, .parallelSweeping, .sweeperThreads, .poolSize]

inductive SettingError where
  | notFlag (which : Variable) (value : String)
  | notCount (which : Variable) (value : String)
  deriving DecidableEq, Repr

namespace SettingError

def which : SettingError → Variable
  | .notFlag which _ => which
  | .notCount which _ => which

def value : SettingError → String
  | .notFlag _ value => value
  | .notCount _ value => value

def message : SettingError → String
  | .notFlag which value =>
      which.name ++ ": expected a boolean, got " ++ Text.quoted value
  | .notCount which value =>
      which.name ++ ": expected a thread count, got " ++ Text.quoted value

end SettingError

def lowerLetter (character : Char) : Char :=
  if 'A' ≤ character ∧ character ≤ 'Z' then Char.ofNat (character.toNat + 32) else character

def flag? (text : String) : Option Bool :=
  let word := String.ofList ((Text.trim text.toList).map lowerLetter)
  if word ∈ ["1", "true", "yes", "on"] then some true
  else if word ∈ ["0", "false", "no", "off"] then some false
  else none

def digit? (character : Char) : Option Nat :=
  if '0' ≤ character ∧ character ≤ '9' then some (character.toNat - '0'.toNat) else none

def digits? (value : Nat) : List Char → Option Nat
  | [] => some value
  | character :: rest =>
      match digit? character with
      | none => none
      | some digit => digits? (value * 10 + digit) rest

def dropPlus : List Char → List Char
  | '+' :: rest => rest
  | text => text

def count? (text : String) : Option Nat :=
  match dropPlus (Text.trim text.toList) with
  | [] => none
  | digits => (digits? 0 digits).filter fun value => decide (value < Word.limit)

abbrev Lookup := String → Option String

def Lookup.flag (lookup : Lookup) (which : Variable) (default : Bool) : Except SettingError Bool :=
  match lookup which.name with
  | none => .ok default
  | some value =>
      match flag? value with
      | none => .error (.notFlag which value)
      | some flag => .ok flag

def Lookup.count (lookup : Lookup) (which : Variable) (default : Nat) : Except SettingError Nat :=
  match lookup which.name with
  | none => .ok default
  | some value =>
      match count? value with
      | none => .error (.notCount which value)
      | some count => .ok count

inductive RawValue where
  | text (value : String)
  | bytes (value : ByteArray)

/-- The text of a variable. Bytes that are not UTF-8 have none, as if the variable were not set. -/
def RawValue.text? : RawValue → Option String
  | .text value => some value
  | .bytes value => String.fromUTF8? value

def sweepersFor (cores : Nat) : Nat := min cores maxSweepers

structure SweepSetting where
  concurrent : Bool
  parallel : Bool
  threads : Nat
  deriving DecidableEq, Repr

namespace SweepSetting

def default : SweepSetting := ⟨true, false, 0⟩

def synchronous : SweepSetting := ⟨false, false, 0⟩

def withThreads (threads : Nat) : SweepSetting := { default with threads }

def read (lookup : Lookup) : Except SettingError SweepSetting := do
  let concurrent ← lookup.flag .concurrentSweeping default.concurrent
  let parallel ← lookup.flag .parallelSweeping default.parallel
  let threads ← lookup.count .sweeperThreads default.threads
  return { concurrent, parallel, threads }

def usesSweepers (setting : SweepSetting) : Bool := setting.concurrent || setting.parallel

def threadCount (setting : SweepSetting) (cores : Nat) : Nat :=
  if ¬ setting.usesSweepers then 0
  else if 0 < setting.threads then min setting.threads maxSweepers
  else sweepersFor cores

def setConcurrent (setting : SweepSetting) (concurrent : Bool) : SweepSetting :=
  { setting with concurrent }

def setParallel (setting : SweepSetting) (parallel : Bool) : SweepSetting :=
  { setting with parallel }

def setThreads (setting : SweepSetting) (threads : Nat) : SweepSetting :=
  { setting with threads }

def describe (setting : SweepSetting) : String :=
  Text.describeRecord "SweeperConfig"
    [("concurrent_sweeping", Text.describeBool setting.concurrent),
      ("parallel_sweeping", Text.describeBool setting.parallel),
      ("sweeper_threads", Text.describeNat setting.threads)]

end SweepSetting

structure PoolSetting where
  threads : Nat
  deriving DecidableEq, Repr

namespace PoolSetting

def default : PoolSetting := ⟨0⟩

def read (lookup : Lookup) : Except SettingError PoolSetting := do
  let threads ← lookup.count .poolSize default.threads
  return { threads }

end PoolSetting

end Reclaim
