import Reclaim.Proofs.Bureau.Sound
import Reclaim.Proofs.Foreground.Desk

/-! The forum: a platform with the threads that pump it, next to its clients and its workers. A context keeps
its queue once it has one, so finding the queue and taking its first task are one step. The thread then runs
the task, duty after duty, and others act in between; it may also pump again before it goes on. -/

namespace Reclaim

namespace Labor

def dispatches : Labor → List (Dispatch Task)
  | .perform duty => duty.dispatches
  | _ => []

end Labor

def Beat.dispatches (beat : Beat) : List (Dispatch Task) :=
  match beat.episode with
  | .squad _ _ (.labor _ labor) => labor.dispatches
  | _ => []

structure Pump where
  context : ContextId
  task : Option Task
  hand : Hand

namespace Pump

def begun (context : ContextId) (host : Host) : Option Task → Pump
  | none => ⟨context, none, .free⟩
  | some task => ⟨context, some task, .busy task (task.duties host)⟩

end Pump

namespace Bureau

def queues (bureau : Bureau) : Foreground Task := bureau.platform.desk.foreground

def withDesk (bureau : Bureau) (desk : Desk) : Bureau :=
  { bureau with platform := { bureau.platform with desk } }

end Bureau

structure Forum where
  bureau : Bureau
  pumps : List Pump

namespace Forum

def desk (forum : Forum) : Desk := forum.bureau.platform.desk

def pendingIn (forum : Forum) (context : ContextId) : List Task :=
  forum.bureau.queues.pendingIn context

/-- One step of somebody, with what it does to the foreground queues: of a worker or a client of the bureau,
a post, a pump that finds a task or none, or a piece of work on a task that a pump has taken. -/
inductive Step : Forum → List (Dispatch Task) → Forum → Prop
  | bureau {bureau next : Bureau} {pumps : List Pump} {beats : List Beat}
      (step : bureau.Step beats next) :
      Step ⟨bureau, pumps⟩ (beats.flatMap Beat.dispatches) ⟨next, pumps⟩
  | post {bureau : Bureau} {pumps : List Pump} (context : ContextId) (task : Task) :
      Step ⟨bureau, pumps⟩ [.post context task]
        ⟨bureau.withDesk (bureau.platform.desk.postForeground context task), pumps⟩
  | miss {bureau : Bureau} {pumps : List Pump} (context : ContextId)
      (nothing : bureau.queues.pop context = none) :
      Step ⟨bureau, pumps⟩ [.pump context none]
        ⟨bureau, pumps ++ [.begun context bureau.platform.desk.host none]⟩
  | hit {bureau : Bureau} {pumps : List Pump} {task : Task} {left : Foreground Task}
      (context : ContextId) (popped : bureau.queues.pop context = some (task, left)) :
      Step ⟨bureau, pumps⟩ [.pump context (some task)]
        ⟨bureau.withDesk (Desk.note { bureau.platform.desk with foreground := left } .ran task .main),
          pumps ++ [.begun context bureau.platform.desk.host (some task)]⟩
  | work {bureau : Bureau} {pumps : List Pump} {context : ContextId} {taken : Option Task}
      {task : Task} {due : List Duty} {labor : Labor} {deal : Option (Deal Task)} {next : Desk}
      {changed : Hand} (who : Nat) (here : pumps[who]? = some ⟨context, taken, .busy task due⟩)
      (step : Hand.Step .main bureau.platform.desk (.busy task due) labor deal next changed) :
      Step ⟨bureau, pumps⟩ labor.dispatches
        ⟨bureau.withDesk next, pumps.set who ⟨context, taken, changed⟩⟩

abbrev Run (first : Forum) (acts : List (Dispatch Task)) (last : Forum) : Prop :=
  Emits Step first acts last

def opened (setting : PoolSetting) (cores : Nat) : Forum := ⟨.opened setting cores, []⟩

end Forum

namespace Hand

variable {desk next : Desk} {hand changed : Hand} {labor : Labor} {deal : Option (Deal Task)}
  {runner : Runner}

theorem Step.dispatches (step : hand.Step runner desk labor deal next changed) :
    Foreground.Run desk.foreground labor.dispatches next.foreground := by
  cases step with
  | take => exact .nil
  | perform => exact desk.perform_dispatches runner _
  | finish =>
      rw [Desk.count_foreground]
      exact .nil
  | fail => exact .nil
  | leave => exact .nil
  | quit => exact .nil

end Hand

theorem Labor.dispatches_post {labor : Labor} {dispatch : Dispatch Task}
    (member : dispatch ∈ labor.dispatches) : dispatch.isPost = true := by
  cases labor with
  | perform duty => exact Duty.dispatches_post member
  | take => cases member
  | finish => cases member
  | fail => cases member
  | leave => cases member
  | quit => cases member

theorem Beat.dispatches_post {beats : List Beat} {dispatch : Dispatch Task}
    (member : dispatch ∈ beats.flatMap Beat.dispatches) : dispatch.isPost = true := by
  obtain ⟨beat, _, made⟩ := List.mem_flatMap.mp member
  unfold dispatches at made
  split at made
  · exact Labor.dispatches_post made
  · cases made

theorem Squad.Step.dispatches {desk next : Desk} {squad changed : Squad} {stint : Stint}
    {deal : Option (Deal Task)} (step : squad.Step desk stint deal next changed) (number : Nat)
    (station : Station) : Foreground.Run desk.foreground
      (Beat.dispatches ⟨.squad number station stint, deal⟩) next.foreground := by
  cases step with
  | labor step => exact step.dispatches
  | dropPool => exact .nil
  | dropSingle => exact .nil
  | join =>
      rw [Desk.join_foreground]
      exact .nil
  | release => exact .nil

namespace Bureau

variable {bureau next : Bureau} {beats : List Beat}

theorem hiring_dispatches (bureau : Bureau) : bureau.hiring.flatMap Beat.dispatches = [] := by
  unfold hiring
  rw [List.flatMap_map]
  exact List.flatMap_eq_nil_iff.mpr fun _ _ => rfl

theorem ensure_queues (bureau : Bureau) : bureau.ensure.queues = bureau.queues := by
  unfold queues ensure
  rw [Platform.ensurePool_desk]

theorem Step.dispatches (step : Step bureau beats next) :
    Foreground.Run bureau.queues (beats.flatMap Beat.dispatches) next.queues := by
  cases step with
  | @resize platform _ _ requested =>
      unfold queues
      rw [Platform.setPoolSize_desk]
      exact .nil
  | ensure =>
      rw [hiring_dispatches, ensure_queues]
      exact .nil
  | @announce platform _ _ task =>
      unfold queues
      dsimp only
      rw [Desk.announce_foreground]
      exact .nil
  | ready =>
      have same : ∀ calls, queues { bureau.ensure with calls } = bureau.queues := fun _ =>
        ensure_queues bureau
      rw [hiring_dispatches, same]
      exact .nil
  | @append platform _ _ task =>
      unfold queues
      rw [Platform.append_eq]
      dsimp only
      rw [Desk.append_foreground]
      exact .nil
  | terminate => exact .nil
  | close => exact .nil
  | @part platform squads calls squad changed stint deal next number who here there owner step =>
      rw [List.flatMap_singleton]
      exact step.dispatches number squad.station
  | @labor platform squads calls squad changed stint deal next number there worker step =>
      rw [List.flatMap_singleton]
      exact step.dispatches number squad.station

end Bureau

namespace Forum

variable {first forum next : Forum} {acts made : List (Dispatch Task)}

/-- To the queues, a step of the forum is a run of posts and pumps. -/
theorem Step.dispatches (step : Step forum made next) :
    Foreground.Run forum.bureau.queues made next.bureau.queues := by
  cases step with
  | bureau step => exact step.dispatches
  | post context task => exact .snoc .nil (.post context task)
  | miss context nothing => exact .snoc .nil (.miss nothing)
  | hit context popped => exact .snoc .nil (.hit popped)
  | work who here step => exact step.dispatches

theorem Run.dispatches (run : Run first acts forum) :
    Foreground.Run first.bureau.queues acts forum.bureau.queues := by
  induction run using Emits.induction with
  | nil => exact .nil
  | snoc _ step ih => exact ih.append step.dispatches

theorem Step.host (step : Step forum made next) : next.desk.host = forum.desk.host := by
  cases step with
  | @bureau bureau next pumps beats step =>
      have floor : Floor.Run bureau.floor beats next.floor := step.floor .nil
      exact floor.keeps (·.desk.host = bureau.floor.desk.host) rfl fun step kept =>
        step.frame.host.trans kept
  | post => rfl
  | miss => rfl
  | hit => rfl
  | work who here step => exact step.frame.host

theorem Run.host {setting : PoolSetting} {cores : Nat}
    (run : Run (opened setting cores) acts forum) : forum.desk.host = .platform :=
  run.keeps (·.desk.host = .platform) rfl fun step kept => step.host.trans kept

end Forum

end Reclaim
