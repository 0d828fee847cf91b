import Reclaim.Proofs.Floor.Duties
import Reclaim.Proofs.Items
import Reclaim.Proofs.Runs

/-! The floor: a desk with all the threads that serve it. Pools, single workers and outside consumers share
one queue, clients bring tasks and terminate the queue, and pools and workers are dropped; every passage
through the queue, every end of a task and every join is a step of its own. -/

namespace Reclaim

inductive Hand where
  | free
  | busy (task : Task) (left : List Duty)
  | finished
  | died

namespace Hand

def state : Hand → WorkerState
  | .free | .busy _ _ => .running
  | .finished => .finished
  | .died => .died

def tasks : Hand → List Task
  | .busy task _ => [task]
  | _ => []

end Hand

inductive Labor where
  | take (task : Task)
  | perform (duty : Duty)
  | finish (task : Task)
  | fail (task : Task)
  | leave
  | quit

namespace Labor

def taken : Labor → List Task
  | .take task => [task]
  | _ => []

def completed : Labor → List Task
  | .finish task => [task]
  | _ => []

def failed : Labor → List Task
  | .fail task => [task]
  | _ => []

end Labor

inductive Hand.Step (runner : Runner) (desk : Desk) :
    Hand → Labor → Option (Deal Task) → Desk → Hand → Prop
  | take {task : Task} {rest : TaskQueue Task} (handed : desk.queue.next = .task task rest) :
      Step runner desk .free (.take task) (some (.next (some task)))
        (Desk.note { desk with queue := rest } .ran task runner) (.busy task (task.duties desk.host))
  | perform {task : Task} {duty : Duty} {left : List Duty} :
      Step runner desk (.busy task (duty :: left)) (.perform duty) (desk.deal? duty)
        (desk.perform runner duty) (.busy task left)
  | finish {task : Task} (succeeds : task.fails = false) :
      Step runner desk (.busy task []) (.finish task) none (desk.count runner) .free
  | fail {task : Task} (fails : task.fails = true) :
      Step runner desk (.busy task []) (.fail task) none desk .died
  | leave (finished : desk.queue.next = .finished) :
      Step runner desk .free .leave (some (.next none)) desk .finished
  | quit (outside : runner ≠ .worker) : Step runner desk .free .quit none desk .finished

inductive Station where
  | pool
  | single
  | outside
  deriving DecidableEq, Repr

def Station.runner : Station → Runner
  | .pool | .single => .worker
  | .outside => .consumer

inductive Tenure where
  | held
  | leaving (joined : Nat)
  | released
  deriving DecidableEq, Repr

structure Squad where
  station : Station
  hands : List Hand
  tenure : Tenure

namespace Squad

def start (station : Station) (threads : Nat) : Squad :=
  ⟨station, List.replicate threads .free, .held⟩

def crew (squad : Squad) : Crew := squad.hands.map Hand.state

end Squad

inductive Stint where
  | labor (place : Nat) (labor : Labor)
  | drop
  | join (state : WorkerState)
  | release

/-- One step of a thread of a group or of its owner. Who drops a pool terminates the queue first; then the
threads are joined in their order, each when it has left its loop or died. -/
inductive Squad.Step (desk : Desk) : Squad → Stint → Option (Deal Task) → Desk → Squad → Prop
  | labor {station : Station} {early late : List Hand} {hand changed : Hand} {tenure : Tenure}
      {labor : Labor} {deal : Option (Deal Task)} {next : Desk}
      (step : hand.Step station.runner desk labor deal next changed) :
      Step desk ⟨station, early ++ hand :: late, tenure⟩ (.labor early.length labor) deal next
        ⟨station, early ++ changed :: late, tenure⟩
  | dropPool {hands : List Hand} :
      Step desk ⟨.pool, hands, .held⟩ .drop (some .terminate) desk.terminate
        ⟨.pool, hands, .leaving 0⟩
  | dropSingle {hands : List Hand} :
      Step desk ⟨.single, hands, .held⟩ .drop none desk ⟨.single, hands, .leaving 0⟩
  | join {station : Station} {early late : List Hand} {hand : Hand} (left : hand.state ≠ .running) :
      Step desk ⟨station, early ++ hand :: late, .leaving early.length⟩ (.join hand.state) none
        (desk.join [hand.state]) ⟨station, early ++ hand :: late, .leaving (early.length + 1)⟩
  | release {station : Station} {hands : List Hand} :
      Step desk ⟨station, hands, .leaving hands.length⟩ .release none desk
        ⟨station, hands, .released⟩

/-! The same steps by the number of the thread or of the group. -/

theorem Squad.Step.labor_at {desk next : Desk} {station : Station} {hands : List Hand}
    {tenure : Tenure} {hand changed : Hand} {labor : Labor} {deal : Option (Deal Task)} (place : Nat)
    (there : hands[place]? = some hand)
    (step : hand.Step station.runner desk labor deal next changed) :
    Step desk ⟨station, hands, tenure⟩ (.labor place labor) deal next
      ⟨station, hands.set place changed, tenure⟩ := by
  obtain ⟨early, late, rfl, rfl, replaced⟩ := getElem?_split there
  rw [replaced]
  exact .labor step

theorem Squad.Step.join_at {desk : Desk} {station : Station} {hands : List Hand} {hand : Hand}
    (place : Nat) (there : hands[place]? = some hand) (left : hand.state ≠ .running) :
    Step desk ⟨station, hands, .leaving place⟩ (.join hand.state) none (desk.join [hand.state])
      ⟨station, hands, .leaving (place + 1)⟩ := by
  obtain ⟨early, late, rfl, rfl, _⟩ := getElem?_split there
  exact .join left

structure Floor where
  desk : Desk
  squads : List Squad

inductive Episode where
  | append (task : Task)
  | terminate
  | note
  | hire (station : Station) (threads : Nat)
  | squad (number : Nat) (station : Station) (stint : Stint)

structure Beat where
  episode : Episode
  deal : Option (Deal Task)

namespace Floor

inductive Step : Floor → Beat → Floor → Prop
  | append {desk : Desk} {squads : List Squad} (task : Task) :
      Step ⟨desk, squads⟩ ⟨.append task, some (.append task (desk.queue.answer task))⟩
        ⟨(desk.append task).2, squads⟩
  | terminate {desk : Desk} {squads : List Squad} :
      Step ⟨desk, squads⟩ ⟨.terminate, some .terminate⟩ ⟨desk.terminate, squads⟩
  | note {desk next : Desk} {squads : List Squad} (keeps : desk.Keeps next)
      (same : next.queue = desk.queue) : Step ⟨desk, squads⟩ ⟨.note, none⟩ ⟨next, squads⟩
  | hire {desk : Desk} {squads : List Squad} (station : Station) (threads : Nat) :
      Step ⟨desk, squads⟩ ⟨.hire station threads, none⟩ ⟨desk, squads ++ [.start station threads]⟩
  | squad {desk next : Desk} {before after : List Squad} {squad changed : Squad} {stint : Stint}
      {deal : Option (Deal Task)} (step : squad.Step desk stint deal next changed) :
      Step ⟨desk, before ++ squad :: after⟩ ⟨.squad before.length squad.station stint, deal⟩
        ⟨next, before ++ changed :: after⟩

theorem Step.squad_at {desk next : Desk} {squads : List Squad} {squad changed : Squad} {stint : Stint}
    {deal : Option (Deal Task)} (number : Nat) (here : squads[number]? = some squad)
    (step : squad.Step desk stint deal next changed) :
    Step ⟨desk, squads⟩ ⟨.squad number squad.station stint, deal⟩
      ⟨next, squads.set number changed⟩ := by
  obtain ⟨before, after, rfl, rfl, replaced⟩ := getElem?_split here
  rw [replaced]
  exact .squad step

abbrev Run (first : Floor) (beats : List Beat) (last : Floor) : Prop :=
  Runs Step first beats last

def opened (desk : Desk) : Floor := ⟨desk, []⟩

end Floor

end Reclaim
