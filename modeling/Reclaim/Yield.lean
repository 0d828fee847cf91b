import Reclaim.Fault

/-! What sweeping produces: per page, and summed over a batch of pages. -/

namespace Reclaim

structure PageYield where
  freed : Nat
  wasted : Nat
  largest : Nat
  dropped : Nat
  deriving DecidableEq, Repr, Inhabited

structure BatchYield where
  pages : Nat
  freed : Nat
  wasted : Nat
  largest : Nat
  deriving DecidableEq, Repr, Inhabited

namespace BatchYield

def zero : BatchYield := ⟨0, 0, 0, 0⟩

/-- Adds page and byte totals, in the order in which an overflow shows. A fault keeps the sums made
before it. -/
def add (total : BatchYield) (pages freed wasted largest : Nat) : Except Fault Unit × BatchYield :=
  match Word.add total.pages pages with
  | .error fault => (.error fault, total)
  | .ok pages =>
      match Word.add total.freed freed with
      | .error fault => (.error fault, { total with pages })
      | .ok freed =>
          match Word.add total.wasted wasted with
          | .error fault => (.error fault, { total with pages, freed })
          | .ok wasted => (.ok (), { pages, freed, wasted, largest := max total.largest largest })

def record (total : BatchYield) (page : PageYield) : Except Fault Unit × BatchYield :=
  total.add 1 page.freed page.wasted page.largest

def merge (total other : BatchYield) : Except Fault Unit × BatchYield :=
  total.add other.pages other.freed other.wasted other.largest

end BatchYield

end Reclaim
