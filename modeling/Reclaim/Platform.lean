import Reclaim.Setting
import Reclaim.Task.Crew

/-! The platform: background tasks for one pool of workers, which is started when it is first
needed, and foreground tasks for each context. -/

namespace Reclaim

def poolSizeFor (requested cores : Nat) : Nat :=
  let threads := if requested = 0 then cores - 1 else requested
  max 1 (min threads maxPoolSize)

structure Platform where
  desk : Desk
  cores : Nat
  poolSize : Nat
  pool : Option Crew
  shutDown : Bool

namespace Platform

def fresh (setting : PoolSetting) (cores : Nat) : Platform :=
  { desk := .fresh .platform
    cores
    poolSize := poolSizeFor setting.threads cores
    pool := none
    shutDown := false }

def setPoolSize (platform : Platform) (requested : Nat) : Platform :=
  match platform.pool with
  | some _ => platform
  | none => { platform with poolSize := poolSizeFor requested platform.cores }

def ensurePool (platform : Platform) : Platform :=
  match platform.pool with
  | some _ => platform
  | none =>
      if platform.shutDown then platform
      else { platform with pool := some (.start platform.poolSize) }

def append (platform : Platform) (task : Task) : Posted × Platform :=
  match platform.desk.append task with
  | (true, desk) => (.accepted, { platform with desk })
  | (false, desk) => (.refused, { platform with desk })

def postBackground (platform : Platform) (runner : Runner) (task : Task) : Posted × Platform :=
  { platform with desk := platform.desk.announce task runner }.ensurePool.append task

def postForeground (platform : Platform) (context : ContextId) (task : Task) : Platform :=
  { platform with desk := platform.desk.postForeground context task }

def runHere (platform : Platform) (task : Task) : TaskResult × Platform :=
  let (succeeded, desk) := platform.desk.run .main task
  let platform := { platform with desk }
  (task.result succeeded, if task.posts.isEmpty then platform else platform.ensurePool)

def pump (platform : Platform) (context : ContextId) : Option TaskResult × Platform :=
  match platform.desk.foreground.pop context with
  | none => (none, platform)
  | some (task, foreground) =>
      let (result, platform) :=
        { platform with desk := { platform.desk with foreground } }.runHere task
      (some result, platform)

def settle (platform : Platform) : Platform :=
  match platform.pool with
  | none => platform
  | some crew =>
      let (crew, desk) := platform.desk.workOff crew
      { platform with desk, pool := some crew }

def terminate (platform : Platform) : Platform :=
  { platform with desk := { platform.desk with queue := platform.desk.queue.terminate } }

def close (platform : Platform) : Option Crew × Platform :=
  (platform.pool, { platform with pool := none, shutDown := true })

def joinCrew (platform : Platform) : Option Crew → Platform
  | none => platform
  | some crew =>
      let (crew, desk) := platform.desk.workOff crew
      { platform with desk := desk.join crew }

def shutdown (platform : Platform) : Platform :=
  let (crew, closed) := platform.terminate.close
  closed.joinCrew crew

def drop (platform : Platform) : Platform :=
  let ended := platform.shutdown
  let waiting := ended.desk.queue.pending ++ ended.desk.foreground.all
  { ended with desk := ended.desk.dropEach waiting }

end Platform

end Reclaim
