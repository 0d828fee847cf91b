import Reclaim.Coordinator
import Reclaim.Describe

/-! A workbench: numbered free lists and pages, one heap, a hand that holds pages taken out of it,
and at most one coordinator. Between two operations every sweeper thread has run as far as it can by
itself: it waits for a round, or stands with its batch at a gate that only the bench opens. -/

namespace Reclaim

inductive Mishap where
  | fault (fault : Fault)
  | noPage (number : Nat)
  | emptyHand
  | noCoordinator
  deriving DecidableEq, Repr

inductive Staff where
  | nobody (site : Site)
  | coordinated (coordinator : Coordinator) (parked : List Nat)

def Staff.site : Staff → Site
  | .nobody site => site
  | .coordinated coordinator _ => coordinator.site

def Staff.setSite (staff : Staff) (site : Site) : Staff :=
  match staff with
  | .nobody _ => .nobody site
  | .coordinated coordinator parked => .coordinated { coordinator with site } parked

structure Workbench where
  lists : List (Nat × FreeList)
  pages : List (Nat × Page)
  hand : List Page
  staff : Staff

abbrev Bench (α : Type) := ExceptT Mishap (StateM Workbench) α

namespace Workbench

def fresh : Workbench := ⟨[], [], [], .nobody (.fresh ⟨0⟩)⟩

def site (bench : Workbench) : Site := bench.staff.site

def heap (bench : Workbench) : Heap := bench.site.heap

def setHeap (bench : Workbench) (heap : Heap) : Workbench :=
  { bench with staff := bench.staff.setSite { bench.site with heap } }

def assign {α : Type} (number : Nat) (value : α) : List (Nat × α) → List (Nat × α)
  | [] => [(number, value)]
  | entry :: rest =>
      if entry.1 = number then (number, value) :: rest else entry :: assign number value rest

end Workbench

namespace Bench

def settle {α : Type} : Except Fault α → Bench α
  | .ok value => pure value
  | .error fault => throw (.fault fault)

def list (number : Nat) : Bench FreeList := do
  return ((← get).lists.lookup number).getD .empty

def setList (number : Nat) (list : FreeList) : Bench Unit :=
  modify fun bench => { bench with lists := Workbench.assign number list bench.lists }

def page (number : Nat) : Bench Page := do
  match (← get).pages.lookup number with
  | none => throw (.noPage number)
  | some page => return page

def setPage (number : Nat) (page : Page) : Bench Unit :=
  modify fun bench => { bench with pages := Workbench.assign number page bench.pages }

def removePage (number : Nat) : Bench Page := do
  let page ← page number
  modify fun bench => { bench with pages := bench.pages.filter fun entry => entry.1 != number }
  return page

def heap : Bench Heap := do return (← get).heap

def setHeap (heap : Heap) : Bench Unit :=
  modify fun bench => bench.setHeap heap

def onHeap {α : Type} (operation : Heap → Except Fault α × Heap) : Bench α := do
  let (answer, left) := operation (← heap)
  setHeap left
  settle answer

def onSpace {α : Type} (kind : SpaceKind)
    (operation : PagedSpace → Except Fault α × PagedSpace) : Bench α :=
  onHeap fun heap => heap.onSpace kind operation

def fromHand (count : Option Nat) : Bench (List Page) := do
  let hand := (← get).hand
  let count := count.getD hand.length
  modify fun bench => { bench with hand := hand.drop count }
  return hand.take count

def toHand (pages : List Page) : Bench Unit :=
  modify fun bench => { bench with hand := bench.hand ++ pages }

def handIds : Bench (List PageId) := do
  return (← get).hand.map (·.id)

end Bench

end Reclaim
