import Reclaim.FreeList.Basic
import Reclaim.Page.Basic
import Reclaim.Yield

/-! Sweeping a page: unmarked objects are dropped, and every gap between the survivors, the unused
end of the page included, goes to a free list. -/

namespace Reclaim

structure Gap where
  offset : Nat
  size : Nat
  deriving DecidableEq, Repr

namespace Page

def gapsFrom (cursor : Nat) : List HeapObject → List Gap
  | [] => if cursor < pageBytes then [⟨cursor, pageBytes - cursor⟩] else []
  | object :: rest =>
      if cursor < object.offset then ⟨cursor, object.offset - cursor⟩ :: gapsFrom object.stop rest
      else gapsFrom object.stop rest

def release (id : PageId) (total : PageYield) (list : FreeList) :
    List Gap → Except Fault (PageYield × FreeList)
  | [] => .ok (total, list)
  | gap :: rest =>
      match list.free { page := id, offset := gap.offset, size := gap.size } with
      | (.error fault, _) => .error fault
      | (.ok lost, list) =>
          if lost = 0 then
            release id
              { total with freed := total.freed + gap.size, largest := max total.largest gap.size }
              list rest
          else release id { total with wasted := total.wasted + lost } list rest

def retained (page : Page) (survivors : List HeapObject) (sweeps : Nat) : Page :=
  { page with
    objects := survivors.map fun object => { object with marked := false }
    top := pageBytes
    swept := true
    sweeps }

def sweep (page : Page) (list : FreeList) : Except Fault (PageYield × Page × FreeList) :=
  if page.swept then .error (.sweptTwice page.id)
  else
    let survivors := page.objects.filter (·.marked)
    let start : PageYield :=
      { freed := 0, wasted := 0, largest := 0, dropped := page.objects.length - survivors.length }
    match release page.id start list (gapsFrom headerBytes survivors) with
    | .error fault => .error fault
    | .ok (total, list) =>
        match Word.addHalf page.sweeps 1 with
        | .error fault => .error fault
        | .ok sweeps => .ok (total, page.retained survivors sweeps, list)

end Page

end Reclaim
