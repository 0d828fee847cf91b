import Reclaim.Platform
import Reclaim.Proofs.Floor.Basic

/-! The bureau: a platform with all the clients that call it and all the workers that it has started. The
queue and the pool are locked one after the other, never both, so a post has a section for the pool and one
for the queue, and a shutdown has one for the queue, one for the pool and then the drop of the pool that it
has taken. Other clients and the workers act between any two of them. -/

namespace Reclaim

inductive Posting where
  | announced
  | ready
  | replied (answer : Except Task Unit)

inductive Closing where
  | terminated
  | dropping (number : Nat)
  | returned (dropped : Bool)

inductive Request where
  | post (task : Task) (posting : Posting)
  | shutdown (closing : Closing)

namespace Stint

def isLabor : Stint → Bool
  | .labor _ _ => true
  | _ => false

end Stint

namespace Closing

def taken (squads : List Squad) : Option Crew → Closing
  | some _ => .dropping (squads.length - 1)
  | none => .returned false

def parted (number : Nat) : Stint → Closing
  | .release => .returned true
  | _ => .dropping number

end Closing

structure Bureau where
  platform : Platform
  squads : List Squad
  calls : List Request

namespace Bureau

def floor (bureau : Bureau) : Floor := ⟨bureau.platform.desk, bureau.squads⟩

def started (bureau : Bureau) : List Nat :=
  match bureau.platform.pool, bureau.platform.ensurePool.pool with
  | none, some crew => [crew.length]
  | _, _ => []

def ensure (bureau : Bureau) : Bureau :=
  { bureau with
    platform := bureau.platform.ensurePool
    squads := bureau.squads ++ bureau.started.map (.start .pool) }

def hiring (bureau : Bureau) : List Beat :=
  bureau.started.map fun threads => ⟨.hire .pool threads, none⟩

def worked (platform : Platform) (desk : Desk) (squad : Squad) : Platform :=
  { platform with desk, pool := platform.pool.map fun _ => squad.crew }

/-- One section of a client's call, or one step of a worker, with what happens on the floor. Anybody may see
to the pool at any time; a task does so before each of its posts. -/
inductive Step : Bureau → List Beat → Bureau → Prop
  | resize {platform : Platform} {squads : List Squad} {calls : List Request} (requested : Nat) :
      Step ⟨platform, squads, calls⟩ [] ⟨platform.setPoolSize requested, squads, calls⟩
  | ensure {bureau : Bureau} : Step bureau bureau.hiring bureau.ensure
  | announce {platform : Platform} {squads : List Squad} {calls : List Request} (task : Task) :
      Step ⟨platform, squads, calls⟩ [⟨.note, none⟩]
        ⟨{ platform with desk := platform.desk.announce task .main }, squads,
          calls ++ [.post task .announced]⟩
  | ready {bureau : Bureau} {task : Task} (who : Nat)
      (here : bureau.calls[who]? = some (.post task .announced)) :
      Step bureau bureau.hiring
        { bureau.ensure with calls := bureau.calls.set who (.post task .ready) }
  | append {platform : Platform} {squads : List Squad} {calls : List Request} {task : Task} (who : Nat)
      (here : calls[who]? = some (.post task .ready)) :
      Step ⟨platform, squads, calls⟩
        [⟨.append task, some (.append task (platform.desk.queue.answer task))⟩]
        ⟨(platform.append task).2, squads,
          calls.set who (.post task (.replied (platform.desk.queue.answer task)))⟩
  | terminate {platform : Platform} {squads : List Squad} {calls : List Request} :
      Step ⟨platform, squads, calls⟩ [⟨.terminate, some .terminate⟩]
        ⟨platform.terminate, squads, calls ++ [.shutdown .terminated]⟩
  | close {platform : Platform} {squads : List Squad} {calls : List Request} (who : Nat)
      (here : calls[who]? = some (.shutdown .terminated)) :
      Step ⟨platform, squads, calls⟩ []
        ⟨platform.close.2, squads, calls.set who (.shutdown (.taken squads platform.close.1))⟩
  | part {platform : Platform} {squads : List Squad} {calls : List Request} {squad changed : Squad}
      {stint : Stint} {deal : Option (Deal Task)} {next : Desk} {number : Nat} (who : Nat)
      (here : calls[who]? = some (.shutdown (.dropping number)))
      (there : squads[number]? = some squad) (owner : stint.isLabor = false)
      (step : squad.Step platform.desk stint deal next changed) :
      Step ⟨platform, squads, calls⟩ [⟨.squad number squad.station stint, deal⟩]
        ⟨worked platform next changed, squads.set number changed,
          calls.set who (.shutdown (.parted number stint))⟩
  | labor {platform : Platform} {squads : List Squad} {calls : List Request} {squad changed : Squad}
      {stint : Stint} {deal : Option (Deal Task)} {next : Desk} (number : Nat)
      (there : squads[number]? = some squad) (worker : stint.isLabor = true)
      (step : squad.Step platform.desk stint deal next changed) :
      Step ⟨platform, squads, calls⟩ [⟨.squad number squad.station stint, deal⟩]
        ⟨worked platform next changed, squads.set number changed, calls⟩

abbrev Run (first : Bureau) (beats : List Beat) (last : Bureau) : Prop :=
  Emits Step first beats last

def opened (setting : PoolSetting) (cores : Nat) : Bureau := ⟨.fresh setting cores, [], []⟩

end Bureau

end Reclaim
