import Reclaim.Counters
import Reclaim.Space

/-! The heap: two paged spaces, sweep totals and a supply of page numbers. It hands out its unswept
pages and takes them back, swept in batches or untouched. -/

namespace Reclaim

structure Heap where
  id : HeapId
  spaces : BySpace PagedSpace
  totals : SweepTotals
  nextPage : Nat
  deriving DecidableEq, Repr

namespace Heap

def fresh (id : HeapId) : Heap :=
  { id, spaces := ⟨.fresh .data, .fresh .pointer⟩, totals := .zero, nextPage := 0 }

def space (heap : Heap) (kind : SpaceKind) : PagedSpace := heap.spaces.get kind

def setSpace (heap : Heap) (kind : SpaceKind) (space : PagedSpace) : Heap :=
  { heap with spaces := heap.spaces.set kind space }

def onSpace {α : Type} (heap : Heap) (kind : SpaceKind)
    (operation : PagedSpace → Except Fault α × PagedSpace) : Except Fault α × Heap :=
  let (answer, space) := operation (heap.space kind)
  (answer, heap.setSpace kind space)

def newPage (heap : Heap) (kind : SpaceKind) : Page × Heap :=
  (.fresh ⟨heap.nextPage⟩ kind, { heap with nextPage := (heap.nextPage + 1) % Word.halfLimit })

def addPage (heap : Heap) (page : Page) : Except Fault Heap :=
  match (heap.space page.space).addPage page with
  | .error fault => .error fault
  | .ok space => .ok (heap.setSpace page.space space)

def unsweptCount (heap : Heap) : Nat :=
  Word.total (heap.spaces.toList.map fun space => space.unswept.length)

def sweptCount (heap : Heap) : Nat :=
  Word.total (heap.spaces.toList.map fun space => space.swept.length)

def availableBytes (heap : Heap) : Except Fault Nat :=
  Word.add heap.spaces.data.free.available heap.spaces.pointer.free.available

def prepare (heap : Heap) : Heap :=
  { heap with spaces := heap.spaces.map PagedSpace.prepare }

def allocate (heap : Heap) (kind : SpaceKind) (request : Nat) :
    Except Fault (Option ObjectAddress) × Heap :=
  heap.onSpace kind fun space => space.allocate request

def takeUnswept (heap : Heap) : List Page × Heap :=
  (heap.spaces.data.unswept ++ heap.spaces.pointer.unswept,
    { heap with spaces := heap.spaces.map fun space => space.takeUnswept.2 })

def restoreUnswept (heap : Heap) (pages : List Page) : Heap :=
  let restored (kind : SpaceKind) : PagedSpace :=
    (heap.space kind).restoreUnswept (pages.filter fun page => decide (page.space = kind))
  { heap with spaces := ⟨restored .data, restored .pointer⟩ }

structure Batch where
  lists : BySpace FreeList
  pages : BySpace (List Page)
  totals : SweepTotals
  yielded : BatchYield
  deriving DecidableEq, Repr

def Batch.start (totals : SweepTotals) : Batch :=
  { lists := ⟨.empty, .empty⟩, pages := ⟨[], []⟩, totals, yielded := .zero }

def Batch.sweep (batch : Batch) : List Page → Except Fault Unit × Batch
  | [] => (.ok (), batch)
  | page :: rest =>
      match page.sweep (batch.lists.get page.space) with
      | .error fault => (.error fault, batch)
      | .ok (produced, page, list) =>
          let counted := { batch with totals := batch.totals.record produced }
          match counted.yielded.record produced with
          | (.error fault, _) => (.error fault, counted)
          | (.ok (), yielded) =>
              Batch.sweep
                { counted with
                  lists := counted.lists.set page.space list
                  pages := counted.pages.modify page.space (· ++ [page])
                  yielded }
                rest

def publishBatch (heap : Heap) (batch : Batch) (kind : SpaceKind) : Except Fault Unit × Heap :=
  if (batch.pages.get kind).isEmpty then (.ok (), heap)
  else heap.onSpace kind fun space => space.publish (batch.pages.get kind) (batch.lists.get kind)

/-- Sweeps pages into private lists, then publishes them space by space. A fault before that loses
the pages; the totals keep what was swept. -/
def sweepPages (heap : Heap) (pages : List Page) : Except Fault BatchYield × Heap :=
  let (result, batch) := (Batch.start heap.totals).sweep pages
  let heap := { heap with totals := batch.totals }
  match result with
  | .error fault => (.error fault, heap)
  | .ok () =>
      match heap.publishBatch batch .data with
      | (.error fault, heap) => (.error fault, heap)
      | (.ok (), heap) =>
          match heap.publishBatch batch .pointer with
          | (.error fault, heap) => (.error fault, heap)
          | (.ok (), heap) => (.ok batch.yielded, heap)

end Heap

end Reclaim
