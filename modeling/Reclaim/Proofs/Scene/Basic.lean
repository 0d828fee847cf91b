import Reclaim.Proofs.Coordinator.Rounds
import Reclaim.Proofs.World.History

/-! Scenes: a coordinator, its sweepers with what they have in hand, and one client. The client adds
pages, starts rounds, waits, begins new cycles and stops the sweepers, one after another; between any
two of its acts the sweepers go on with their chores in any order. -/

namespace Reclaim

inductive Client where
  | free
  | stopping (index : Nat) (nudged : Bool)
  deriving DecidableEq, Repr

structure Scene where
  coordinator : Coordinator
  hands : List Load
  client : Client

inductive Place where
  | unswept (kind : SpaceKind)
  | slot (index : Nat)
  | hand (index : Nat)
  | swept (kind : SpaceKind)
  deriving DecidableEq, Repr

inductive Act where
  | sweeper (index : Nat) (chore : Chore)
  | add (page : Page) (answer : Except Fault Unit)
  | edit (deed : Deed)
  | allocate (kind : SpaceKind) (request : Nat) (answer : Except Fault (Option ObjectAddress))
  | start (here : List Page) (answer : Except Fault Unit)
  | wait (index : Nat) (answer : Except Fault Unit)
  | ensure (answer : Except Fault (Option RoundReport))
  | prepare
  | stop
  | nudge (index : Nat)
  | join (index : Nat) (answer : Except Fault Unit)
  | conclude

namespace Act

def fault? : Act → Option Fault
  | .sweeper _ chore => chore.fault?
  | .add _ (.error fault) => some fault
  | .edit deed => deed.fault?
  | .allocate _ _ (.error fault) => some fault
  | .start _ (.error fault) => some fault
  | .wait _ (.error fault) => some fault
  | .ensure (.error fault) => some fault
  | .join _ (.error fault) => some fault
  | _ => none

def added : Act → List Page
  | .add page _ => [page]
  | _ => []

def sweeps : Act → List Page
  | .sweeper _ chore => chore.sweeps
  | .start here _ => here
  | _ => []

/-- The sweep counts of the pages that an act sweeps are not full. -/
def Young (act : Act) : Prop := ∀ page ∈ act.sweeps, page.sweeps + 1 < Word.halfLimit

def isStart : Act → Bool
  | .start _ _ => true
  | _ => false

def isPrepare : Act → Bool
  | .prepare => true
  | _ => false

end Act

def Coordinator.sweptAtStart (coordinator : Coordinator) : List Page :=
  if coordinator.numThreads = 0 then coordinator.site.heap.takeUnswept.1 else []

def Coordinator.withHeap (coordinator : Coordinator) (heap : Heap) : Coordinator :=
  { coordinator with site := { coordinator.site with heap } }

inductive Page.Made : Page → Prop
  | fresh (id : PageId) (kind : SpaceKind) : Made (.fresh id kind)
  | edit {page edited : Page} {deed : Deed} (made : page.Made) (edit : Edit page deed edited) :
      Made edited

namespace Scene

def fresh (id : HeapId) (threads : Nat) : Scene :=
  { coordinator := .fresh (.fresh id) threads
    hands := List.replicate threads (.ofPages [])
    client := .free }

def heap (scene : Scene) : Heap := scene.coordinator.site.heap

def pagesAt (scene : Scene) : Place → List Page
  | .unswept kind => (scene.heap.space kind).unswept
  | .slot index => scene.coordinator.sweepers[index]?.elim [] (·.assignment.pages)
  | .hand index => scene.hands[index]?.elim [] Load.pages
  | .swept kind => (scene.heap.space kind).swept

/-- One act. A sweeper does its next chore, whatever the others and the client are about. A client
starts no round while another is in flight or after a stop, begins no new cycle during a round, and
adds pages under numbers of their own; it does nothing else while it stops the sweepers. -/
inductive Step : Scene → Act → Scene → Prop
  | sweeper {coordinator : Coordinator} {before after : List Sweeper} {sweeper next : Sweeper}
      {early late : List Load} {load taken : Load} {site : Site} {client : Client} {chore : Chore}
      (split : coordinator.sweepers = before ++ sweeper :: after)
      (same : before.length = early.length)
      (move : Move coordinator.stopped sweeper load coordinator.site chore next taken site) :
      Step ⟨coordinator, early ++ load :: late, client⟩ (.sweeper before.length chore)
        ⟨{ coordinator with site, sweepers := before ++ next :: after }, early ++ taken :: late,
          client⟩
  | add {coordinator : Coordinator} {hands : List Load} (page : Page) (made : page.Made)
      (small : page.id.number < Word.halfLimit)
      (unused : ∀ place, ∀ other ∈ (Scene.mk coordinator hands .free).pagesAt place,
        other.id ≠ page.id) :
      Step ⟨coordinator, hands, .free⟩
        (.add page ((coordinator.site.heap.addPage page).map fun _ => ()))
        ⟨coordinator.withHeap
          ((coordinator.site.heap.addPage page).toOption.getD coordinator.site.heap), hands, .free⟩
  | edit {coordinator : Coordinator} {hands : List Load} {kind : SpaceKind}
      {early late : List Page} {page edited : Page} {deed : Deed} (edit : Edit page deed edited)
      (waiting : (coordinator.site.heap.space kind).unswept = early ++ page :: late) :
      Step ⟨coordinator, hands, .free⟩ (.edit deed)
        ⟨coordinator.withHeap (coordinator.site.heap.setSpace kind
          { coordinator.site.heap.space kind with unswept := early ++ edited :: late }), hands,
          .free⟩
  | allocate {coordinator : Coordinator} {hands : List Load} (kind : SpaceKind) (request : Nat) :
      Step ⟨coordinator, hands, .free⟩
        (.allocate kind request (coordinator.site.heap.allocate kind request).1)
        ⟨coordinator.withHeap (coordinator.site.heap.allocate kind request).2, hands, .free⟩
  | start {coordinator : Coordinator} {hands : List Load} (running : coordinator.stopped = false)
      (rest : coordinator.inProgress = false) :
      Step ⟨coordinator, hands, .free⟩ (.start coordinator.sweptAtStart coordinator.start.1)
        ⟨coordinator.start.2, hands, .free⟩
  | wait {coordinator next : Coordinator} {hands : List Load} {index : Nat}
      {answer : Except Fault Unit} (known : index < coordinator.numThreads)
      (waited : coordinator.await? index = some (answer, next)) :
      Step ⟨coordinator, hands, .free⟩ (.wait index answer) ⟨next, hands, .free⟩
  | ensure {coordinator next : Coordinator} {hands : List Load}
      {answer : Except Fault (Option RoundReport)}
      (waited : coordinator.ensure? = some (answer, next)) :
      Step ⟨coordinator, hands, .free⟩ (.ensure answer) ⟨next, hands, .free⟩
  | prepare {coordinator : Coordinator} {hands : List Load}
      (rest : coordinator.inProgress = false) :
      Step ⟨coordinator, hands, .free⟩ .prepare
        ⟨coordinator.withHeap coordinator.site.heap.prepare, hands, .free⟩
  | stop {coordinator : Coordinator} {hands : List Load}
      (running : coordinator.stopped = false) :
      Step ⟨coordinator, hands, .free⟩ .stop
        ⟨{ coordinator with stopped := true }, hands, .stopping 0 false⟩
  | nudge {coordinator : Coordinator} {hands : List Load} {before after : List Sweeper}
      {sweeper : Sweeper} (split : coordinator.sweepers = before ++ sweeper :: after) :
      Step ⟨coordinator, hands, .stopping before.length false⟩ (.nudge before.length)
        ⟨{ coordinator with sweepers := before ++ sweeper.nudge :: after }, hands,
          .stopping before.length true⟩
  | join {coordinator : Coordinator} {hands : List Load} {before after : List Sweeper}
      {sweeper joined : Sweeper} {left : Assignment}
      (split : coordinator.sweepers = before ++ sweeper :: after)
      (joins : sweeper.join? = some (left, joined)) :
      Step ⟨coordinator, hands, .stopping before.length true⟩
        (.join before.length (coordinator.settle before.length left joined).1)
        ⟨(coordinator.settle before.length left joined).2, hands,
          .stopping (before.length + 1) false⟩
  | conclude {coordinator : Coordinator} {hands : List Load} :
      Step ⟨coordinator, hands, .stopping coordinator.numThreads false⟩ .conclude
        ⟨coordinator.finalize.2, hands, .free⟩

theorem Step.alone {coordinator : Coordinator} {sweeper next : Sweeper} {load taken : Load}
    {site : Site} {client : Client} {chore : Chore} (sole : coordinator.sweepers = [sweeper])
    (move : Move coordinator.stopped sweeper load coordinator.site chore next taken site) :
    Step ⟨coordinator, [load], client⟩ (.sweeper 0 chore)
      ⟨{ coordinator with site, sweepers := [next] }, [taken], client⟩ :=
  @Step.sweeper _ [] [] _ _ [] [] _ _ _ _ _ sole rfl move

abbrev Run (first : Scene) (acts : List Act) (last : Scene) : Prop :=
  Runs Step first acts last

end Scene

end Reclaim
