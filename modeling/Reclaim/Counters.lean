import Reclaim.Yield

/-! Counters that only grow, and wrap when they leave the word: the sweep totals of one heap, and
the totals of a whole process. -/

namespace Reclaim

structure SweepTotals where
  pages : Nat
  freed : Nat
  wasted : Nat
  deriving DecidableEq, Repr

def SweepTotals.zero : SweepTotals := ⟨0, 0, 0⟩

def SweepTotals.record (totals : SweepTotals) (page : PageYield) : SweepTotals :=
  { pages := Word.wrappingAdd totals.pages 1
    freed := Word.wrappingAdd totals.freed page.freed
    wasted := Word.wrappingAdd totals.wasted page.wasted }

structure Counters where
  rounds : Nat
  pages : Nat
  freed : Nat
  tasks : Nat
  deriving DecidableEq, Repr

namespace Counters

def zero : Counters := ⟨0, 0, 0, 0⟩

def recordRound (counters : Counters) (pages freed : Nat) : Counters :=
  { counters with
    rounds := Word.wrappingAdd counters.rounds 1
    pages := Word.wrappingAdd counters.pages pages
    freed := Word.wrappingAdd counters.freed freed }

def recordTask (counters : Counters) : Counters :=
  { counters with tasks := Word.wrappingAdd counters.tasks 1 }

end Counters

end Reclaim
