import Reclaim.Platform

/-! An office: a platform that is posted to, pumped and shut down step by step. -/

namespace Reclaim

structure Office where
  platform : Platform
  closed : Bool

namespace Office

def fresh (setting : PoolSetting) (cores : Nat) : Office := ⟨.fresh setting cores, false⟩

def change (office : Office) (operation : Platform → Platform) : Office :=
  { office with platform := (operation office.platform).settle }

def background (office : Office) (task : Task) (runRejected : Bool) :
    Posted × Office :=
  match office.platform.postBackground .main task with
  | (.accepted, platform) => (.accepted, { office with platform := platform.settle })
  | (.refused, platform) =>
      if runRejected then
        (.refused, { office with platform := (platform.runHere task).2.settle })
      else
        (.refused,
          { office with platform := { platform with desk := platform.desk.dropTask task } })

def pump (office : Office) (context : ContextId) : Option TaskResult × Office :=
  let (result, platform) := office.platform.pump context
  (result, { office with platform := platform.settle })

def shutdown (office : Office) : Office :=
  { platform := office.platform.shutdown, closed := true }

def tasksRun (office : Office) : Nat := office.platform.desk.counters.tasks

def takeLog (office : Office) (sorted : Bool) : List LogLine × Office :=
  let (lines, desk) := office.platform.desk.takeLog
  (if sorted then lines.mergeSort LogLine.le else lines,
    { office with platform := { office.platform with desk } })

def close (office : Office) (shutdown : Bool) : Office :=
  let settled := office.change id
  let ended := if shutdown && !office.closed then settled.shutdown else settled
  { ended with platform := ended.platform.drop }

end Office

end Reclaim
