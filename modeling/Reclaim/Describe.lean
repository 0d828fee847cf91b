import Reclaim.Heap
import Reclaim.Text.Record

/-! Descriptions of free lists, pages, spaces and heaps, field by field. -/

namespace Reclaim

open Text

def FreeBlock.describe (block : FreeBlock) : String :=
  describeRecord "FreeBlock"
    [("page", block.page.describe), ("offset", describeNat block.offset),
      ("size", describeNat block.size)]

def FreeList.describe (list : FreeList) : String :=
  describeRecord "FreeList"
    [("categories",
        describeList (Category.all.map fun category =>
          describeList ((list.blocksIn category).map FreeBlock.describe))),
      ("available", describeNat list.available),
      ("wasted", describeNat list.wasted)]

def HeapObject.describe (object : HeapObject) : String :=
  describeRecord "HeapObject"
    [("offset", describeNat object.offset), ("size", describeNat object.size),
      ("marked", describeBool object.marked)]

def Page.describe (page : Page) : String :=
  describeRecord "Page"
    [("id", page.id.describe), ("space", page.space.label),
      ("objects", describeList (page.objects.map HeapObject.describe)),
      ("top", describeNat page.top), ("swept", describeBool page.swept),
      ("sweep_count", describeNat page.sweeps)]

def describePages (pages : List Page) : String :=
  describeList (pages.map Page.describe)

def describeGuarded (value : String) : String :=
  describeRecord "Mutex" [("data", value)]

def PagedSpace.describe (space : PagedSpace) : String :=
  describeRecord "PagedSpace"
    [("kind", space.kind.label), ("unswept", describeGuarded (describePages space.unswept)),
      ("swept", describeGuarded (describePages space.swept)),
      ("free_list", describeGuarded space.free.describe)]

def SweepTotals.describe (totals : SweepTotals) : String :=
  describeRecord "SweepStats"
    [("pages_swept", describeNat totals.pages), ("bytes_freed", describeNat totals.freed),
      ("wasted_bytes", describeNat totals.wasted)]

def Heap.describe (heap : Heap) : String :=
  describeRecord "Heap"
    [("id", heap.id.describe),
      ("spaces", describeList (heap.spaces.toList.map PagedSpace.describe)),
      ("stats", heap.totals.describe), ("next_page_id", describeNat heap.nextPage)]

end Reclaim
