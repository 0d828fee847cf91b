import Reclaim.Bench.Basic

/-! Work on the numbered free lists and pages of the bench. -/

namespace Reclaim

structure ListStatus where
  available : Nat
  wasted : Nat
  isEmpty : Bool
  blockCount : Nat
  maxBlockSize : Nat
  deriving DecidableEq, Repr

def FreeList.status (list : FreeList) : ListStatus :=
  { available := list.available
    wasted := list.wasted
    isEmpty := list.isEmpty
    blockCount := list.blockCount
    maxBlockSize := list.maxBlockSize }

structure PageStatus where
  id : PageId
  space : SpaceKind
  objects : Nat
  live : Nat
  allocated : Nat
  dead : Nat
  reclaimable : Nat
  swept : Bool
  sweeps : Nat
  deriving DecidableEq, Repr

def Page.status (page : Page) : Except Fault PageStatus := do
  let dead ← page.deadBytes
  let reclaimable ← page.reclaimableBytes
  return {
    id := page.id
    space := page.space
    objects := page.objectCount
    live := page.liveBytes
    allocated := page.allocatedBytes
    dead
    reclaimable
    swept := page.swept
    sweeps := page.sweeps }

def strideOffsets (first stride : Nat) : List Nat :=
  (List.range ((pageBytes - first + (stride - 1)) / stride)).map fun count => first + count * stride

def Page.markStride (page : Page) (first stride : Nat) : Nat × Page :=
  let (hits, page) := page.markEach (strideOffsets first stride)
  (hits.count true, page)

def markStrideEach (first stride : Nat) : List Page → List Nat × List Page
  | [] => ([], [])
  | page :: rest =>
      let (hits, page) := page.markStride first stride
      let (more, rest) := markStrideEach first stride rest
      (hits :: more, page :: rest)

namespace Bench

def onList {α : Type} (number : Nat) (operation : FreeList → Except Fault α × FreeList) :
    Bench α := do
  let (answer, left) := operation (← list number)
  setList number left
  settle answer

def freeBlock (number : Nat) (block : FreeBlock) : Bench Nat :=
  onList number fun list => list.free block

def takeBlock (number size : Nat) : Bench (Option FreeBlock) :=
  onList number fun list => list.allocate size

def joinLists (number source : Nat) : Bench Nat := do
  let blocks ← list source
  setList source .empty
  onList number fun list =>
    let (moved, joined, _) := list.concatenate blocks
    (moved, joined)

def resetList (number : Nat) : Bench Unit := setList number .empty

def onPage {α : Type} (number : Nat) (operation : Page → α × Page) : Bench α := do
  let (answer, left) := operation (← page number)
  setPage number left
  return answer

def newPage (number : Nat) (kind : SpaceKind) : Bench Nat := do
  let (page, left) := (← heap).newPage kind
  setHeap left
  setPage number page
  return page.id.number

def sweepPage (number target : Nat) : Bench PageYield := do
  let page ← page number
  let (produced, page, list) ← settle (page.sweep (← list target))
  setPage number page
  setList target list
  return produced

def pageStatus (number : Nat) : Bench PageStatus := do
  settle (← page number).status

end Bench

end Reclaim
