import Reclaim.Counters
import Reclaim.Page.Basic

/-! Sums of what sweeping produces. Merging is addition while the sums stay within the word, so it
does not matter how pages are grouped or in which order their totals are merged. The totals of a heap
wrap, and wrapping sums do not depend on the order either. -/

namespace Reclaim

theorem objectArea_room {pages : Nat} (few : pages ≤ Word.halfLimit) :
    objectAreaBytes * pages < Word.limit := by
  have area : objectAreaBytes = 4032 := rfl
  have half : Word.halfLimit = 2 ^ 32 := rfl
  have whole : Word.limit = 2 ^ 64 := rfl
  rw [area]
  omega

def PageYield.single (page : PageYield) : BatchYield := ⟨1, page.freed, page.wasted, page.largest⟩

namespace BatchYield

def plus (total other : BatchYield) : BatchYield :=
  ⟨total.pages + other.pages, total.freed + other.freed, total.wasted + other.wasted,
    max total.largest other.largest⟩

structure Fits (total : BatchYield) : Prop where
  pages : total.pages < Word.limit
  freed : total.freed < Word.limit
  wasted : total.wasted < Word.limit

def Modest (total : BatchYield) : Prop := total.freed + total.wasted ≤ objectAreaBytes * total.pages

theorem Modest.plus {total other : BatchYield} (modest : total.Modest) (small : other.Modest) :
    (total.plus other).Modest := by
  unfold Modest at modest small ⊢
  simp only [BatchYield.plus, Nat.mul_add]
  omega

theorem Modest.fits {total : BatchYield} (modest : total.Modest)
    (few : total.pages ≤ Word.halfLimit) : total.Fits := by
  have room := objectArea_room few
  have half : Word.halfLimit < Word.limit := by decide
  unfold Modest at modest
  constructor <;> omega

theorem Fits.of_plus_left {total other : BatchYield} (fits : (total.plus other).Fits) : total.Fits :=
  ⟨Nat.lt_of_le_of_lt (Nat.le_add_right _ _) fits.pages,
    Nat.lt_of_le_of_lt (Nat.le_add_right _ _) fits.freed,
    Nat.lt_of_le_of_lt (Nat.le_add_right _ _) fits.wasted⟩

theorem plus_assoc (first second third : BatchYield) :
    (first.plus second).plus third = first.plus (second.plus third) := by
  simp [plus, Nat.add_assoc, Nat.max_assoc]

theorem plus_comm (total other : BatchYield) : total.plus other = other.plus total := by
  simp [plus, Nat.add_comm, Nat.max_comm]

theorem zero_plus (total : BatchYield) : BatchYield.zero.plus total = total := by
  simp [plus, zero]

theorem plus_zero (total : BatchYield) : total.plus .zero = total := by
  simp [plus, zero]

theorem eq_zero_of_plus {total other : BatchYield} (none : total.plus other = .zero) :
    total = .zero ∧ other = .zero := by
  obtain ⟨pages, freed, wasted, largest⟩ := total
  obtain ⟨pages', freed', wasted', largest'⟩ := other
  simp only [plus, zero, mk.injEq] at none ⊢
  omega

theorem add_eq {total : BatchYield} {pages freed wasted largest : Nat}
    (fits : (total.plus ⟨pages, freed, wasted, largest⟩).Fits) :
    total.add pages freed wasted largest = (.ok (), total.plus ⟨pages, freed, wasted, largest⟩) := by
  have pagesFit : total.pages + pages < Word.limit := fits.pages
  have freedFit : total.freed + freed < Word.limit := fits.freed
  have wastedFit : total.wasted + wasted < Word.limit := fits.wasted
  simp [add, Word.add, pagesFit, freedFit, wastedFit, plus]

theorem record_eq {total : BatchYield} {page : PageYield} (fits : (total.plus page.single).Fits) :
    total.record page = (.ok (), total.plus page.single) := add_eq fits

theorem merge_eq {total other : BatchYield} (fits : (total.plus other).Fits) :
    total.merge other = (.ok (), total.plus other) := add_eq fits

end BatchYield

def SweepTotals.plus (totals : SweepTotals) (batch : BatchYield) : SweepTotals :=
  { pages := Word.wrappingAdd totals.pages batch.pages
    freed := Word.wrappingAdd totals.freed batch.freed
    wasted := Word.wrappingAdd totals.wasted batch.wasted }

theorem SweepTotals.record_eq (totals : SweepTotals) (page : PageYield) :
    totals.record page = totals.plus page.single := rfl

theorem SweepTotals.plus_plus (totals : SweepTotals) (first second : BatchYield) :
    (totals.plus first).plus second = totals.plus (first.plus second) := by
  simp [plus, BatchYield.plus, Word.wrappingAdd, Nat.add_assoc]

end Reclaim
