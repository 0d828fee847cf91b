import Reclaim.Bench.Lists

/-! Work on the heap of the bench and on the hand. -/

namespace Reclaim

structure HeapStatus where
  unswept : BySpace Nat
  swept : BySpace Nat
  available : BySpace Nat
  unsweptTotal : Nat
  sweptTotal : Nat
  availableTotal : Nat
  totals : SweepTotals
  deriving DecidableEq, Repr

def Heap.status (heap : Heap) : Except Fault HeapStatus := do
  let availableTotal ← heap.availableBytes
  return {
    unswept := heap.spaces.map fun space => space.unswept.length
    swept := heap.spaces.map fun space => space.swept.length
    available := heap.spaces.map fun space => space.free.available
    unsweptTotal := heap.unsweptCount
    sweptTotal := heap.sweptCount
    availableTotal
    totals := heap.totals }

def kindAt : Option SpaceKind → Nat → SpaceKind
  | some kind, _ => kind
  | none, count => if count % 2 = 0 then .data else .pointer

def everyNth (stride : Nat) (offsets : List Nat) : List Nat :=
  (offsets.zipIdx.filter fun numbered => stride != 0 && numbered.2 % stride == 0).map (·.1)

def onFirst {α : Type} (id : PageId) (operation : Page → α × Page) :
    List Page → Option α × List Page
  | [] => (none, [])
  | page :: rest =>
      if page.id = id then
        let (answer, page) := operation page
        (some answer, page :: rest)
      else
        let (answer, rest) := onFirst id operation rest
        (answer, page :: rest)

namespace Bench

def heapStatus : Bench HeapStatus := do
  settle (← heap).status

def addPage (number : Nat) : Bench Unit := do
  let page ← removePage number
  setHeap (← settle ((← heap).addPage page))

def addPageTo (number : Nat) (kind : SpaceKind) : Bench Unit := do
  let page ← removePage number
  let space ← settle (((← heap).space kind).addPage page)
  setHeap ((← heap).setSpace kind space)

def addFilled (kind : SpaceKind) (size live : Nat) : Bench Unit := do
  let (page, left) := (← heap).newPage kind
  setHeap left
  let (offsets, page) := page.fill size
  let (_, page) := page.markEach (everyNth live offsets)
  setHeap (← settle ((← heap).addPage page))

def populate (count : Nat) (kind : Option SpaceKind) (size live : Nat) : Bench Unit :=
  (List.range count).forM fun number => addFilled (kindAt kind number) size live

def allocate (kind : SpaceKind) (size : Nat) : Bench (Option ObjectAddress) :=
  onSpace kind fun space => space.allocate size

def allocateAll (kind : SpaceKind) (size : Nat) : Bench (List ObjectAddress) :=
  onSpace kind fun space => space.allocateAll size

def onUnswept {α : Type} (kind : SpaceKind) (operation : List Page → α × List Page) : Bench α :=
  onSpace kind fun space =>
    let (answer, unswept) := operation space.unswept
    (.ok answer, { space with unswept })

def markUnswept (kind : SpaceKind) (id : PageId) (offsets : List Nat) :
    Bench (Option (List Bool)) :=
  onUnswept kind (onFirst id fun page => page.markEach offsets)

def bumpUnswept (kind : SpaceKind) (id : PageId) (size : Nat) : Bench (Option (Option Nat)) :=
  onUnswept kind (onFirst id fun page => page.bump size)

def markUnsweptStride (kind : SpaceKind) (first stride : Nat) : Bench (List Nat) :=
  onUnswept kind (markStrideEach first stride)

def sweptPages (kind : SpaceKind) : Bench (List Page) := do
  return ((← heap).space kind).swept

def unsweptPages (kind : SpaceKind) : Bench (List Page) := do
  return ((← heap).space kind).unswept

def pageStatuses (pages : List Page) : Bench (List PageStatus) :=
  settle (pages.mapM Page.status)

def prepare : Bench Unit := do
  setHeap (← heap).prepare

def prepareSpace (kind : SpaceKind) : Bench Unit :=
  onSpace kind fun space => (.ok (), space.prepare)

def take : Bench (List PageId) := do
  let (pages, left) := (← heap).takeUnswept
  setHeap left
  toHand pages
  handIds

def takeSpace (kind : SpaceKind) : Bench (List PageId) := do
  toHand (← onSpace kind fun space =>
    let (pages, space) := space.takeUnswept
    (.ok pages, space))
  handIds

def reverseHand : Bench (List PageId) := do
  modify fun bench => { bench with hand := bench.hand.reverse }
  handIds

def putInHand (number : Nat) : Bench (List PageId) := do
  toHand [← removePage number]
  handIds

def getFromHand (number : Nat) : Bench (List PageId) := do
  match ← fromHand (some 1) with
  | page :: _ => setPage number page
  | [] => throw .emptyHand
  handIds

def sweepHand (count sweeper : Option Nat) : Bench BatchYield := do
  let pages ← fromHand count
  let bench ← get
  let (answer, site) := bench.site.sweepPages .main sweeper pages
  set { bench with staff := bench.staff.setSite site }
  settle answer

def restoreHand (count : Option Nat) : Bench (List PageId) := do
  let pages ← fromHand count
  setHeap ((← heap).restoreUnswept pages)
  handIds

def restoreSpace (kind : SpaceKind) (count : Option Nat) : Bench (List PageId) := do
  let pages ← fromHand count
  onSpace kind fun space => (.ok (), space.restoreUnswept pages)
  handIds

def publish (kind : SpaceKind) (number : Nat) (count : Option Nat) : Bench FreeList := do
  let pages ← fromHand count
  let blocks ← list number
  onSpace kind fun space => space.publish pages blocks
  setList number .empty
  list number

end Bench

end Reclaim
