import Mathlib.Algebra.BigOperators.Group.List.Basic
import Mathlib.Algebra.GroupWithZero.Nat
import Reclaim.Proofs.Totals

/-! How totals come together. Pages are recorded and outcomes are merged in any order, grouping and
nesting. Every addition is checked, and no sum on the way exceeds the sum of everything. So an overflow
shows for every grouping or for none, and without one all groupings end in the same totals. -/

namespace Reclaim

inductive Grouping where
  | fresh
  | record (earlier : Grouping) (page : PageYield)
  | merge (earlier other : Grouping)

namespace BatchYield

def sums (pages : List PageYield) : BatchYield :=
  { pages := pages.length
    freed := (pages.map PageYield.freed).sum
    wasted := (pages.map PageYield.wasted).sum
    largest := (pages.map PageYield.largest).foldr max 0 }

theorem foldr_max_append (sizes more : List Nat) :
    (sizes ++ more).foldr max 0 = max (sizes.foldr max 0) (more.foldr max 0) := by
  induction sizes with
  | nil => exact (Nat.zero_max _).symm
  | cons size rest ih => simp only [List.cons_append, List.foldr_cons, ih, Nat.max_assoc]

theorem sums_append (pages more : List PageYield) :
    sums (pages ++ more) = (sums pages).plus (sums more) := by
  simp only [sums, plus, List.length_append, List.map_append, List.sum_append, foldr_max_append]

theorem sums_single (page : PageYield) : sums [page] = page.single := by
  simp [sums, PageYield.single]

theorem sums_perm {pages more : List PageYield} (same : pages.Perm more) : sums pages = sums more := by
  have largest : (pages.map PageYield.largest).foldr max 0 =
      (more.map PageYield.largest).foldr max 0 :=
    (same.map _).foldr_eq' (fun one _ other _ most => Nat.max_left_comm other one most) 0
  simp only [sums, same.length_eq, (same.map _).sum_eq, largest]

instance (total : BatchYield) : Decidable total.Fits :=
  decidable_of_iff
    (total.pages < Word.limit ∧ total.freed < Word.limit ∧ total.wasted < Word.limit)
    ⟨fun fit => ⟨fit.1, fit.2.1, fit.2.2⟩, fun fits => ⟨fits.pages, fits.freed, fits.wasted⟩⟩

def checked (total : BatchYield) : Except Fault BatchYield :=
  if total.Fits then .ok total else .error .addOverflow

def settled : Except Fault Unit × BatchYield → Except Fault BatchYield
  | (.ok (), total) => .ok total
  | (.error fault, _) => .error fault

theorem settled_add (total other : BatchYield) :
    settled (total.add other.pages other.freed other.wasted other.largest) =
      (total.plus other).checked := by
  by_cases fits : (total.plus other).Fits
  · rw [add_eq fits, checked, if_pos fits]
    rfl
  · rw [checked, if_neg fits]
    unfold add Word.add
    by_cases pages : total.pages + other.pages < Word.limit
    · by_cases freed : total.freed + other.freed < Word.limit
      · have wasted : ¬ total.wasted + other.wasted < Word.limit := fun wasted =>
          fits ⟨pages, freed, wasted⟩
        simp only [pages, freed, wasted, if_true, if_false, settled]
      · simp only [pages, freed, if_true, if_false, settled]
    · simp only [pages, if_false, settled]

theorem settled_record (total : BatchYield) (page : PageYield) :
    settled (total.record page) = (total.plus page.single).checked := settled_add total page.single

theorem settled_merge (total other : BatchYield) :
    settled (total.merge other) = (total.plus other).checked := settled_add total other

theorem checked_beyond {total other : BatchYield} (beyond : ¬ total.Fits) :
    (total.plus other).checked = .error .addOverflow :=
  if_neg fun fits => beyond fits.of_plus_left

end BatchYield

namespace Grouping

def pages : Grouping → List PageYield
  | fresh => []
  | record earlier page => earlier.pages ++ [page]
  | merge earlier other => earlier.pages ++ other.pages

def outcome : Grouping → Except Fault BatchYield
  | fresh => .ok .zero
  | record earlier page => do
      let total ← earlier.outcome
      BatchYield.settled (total.record page)
  | merge earlier other => do
      let total ← earlier.outcome
      let batch ← other.outcome
      BatchYield.settled (total.merge batch)

def batch (pages : List PageYield) : Grouping := pages.foldl record fresh

theorem batch_pages (pages : List PageYield) : (batch pages).pages = pages := by
  have grown (earlier : Grouping) :
      (pages.foldl record earlier).pages = earlier.pages ++ pages := by
    induction pages generalizing earlier with
    | nil => exact (List.append_nil _).symm
    | cons page rest ih => rw [List.foldl_cons, ih, Grouping.pages, List.append_assoc, List.singleton_append]
  exact grown fresh

-- The induction is on how the outcome is put together. An addition that comes after an overflow cannot
-- undo it, since the exact sums only grow.
theorem outcome_eq (grouping : Grouping) :
    grouping.outcome = (BatchYield.sums grouping.pages).checked := by
  induction grouping with
  | fresh => rfl
  | record earlier page ih =>
      rw [outcome, ih, pages, BatchYield.sums_append, BatchYield.sums_single]
      by_cases fits : (BatchYield.sums earlier.pages).Fits
      · rw [BatchYield.checked, if_pos fits]
        exact BatchYield.settled_record _ page
      · rw [BatchYield.checked_beyond fits, BatchYield.checked, if_neg fits]
        rfl
  | merge earlier other ih back =>
      rw [outcome, ih, back, pages, BatchYield.sums_append]
      by_cases fits : (BatchYield.sums earlier.pages).Fits
      · by_cases fit : (BatchYield.sums other.pages).Fits
        · rw [BatchYield.checked, if_pos fits, BatchYield.checked, if_pos fit]
          exact BatchYield.settled_merge _ _
        · rw [BatchYield.plus_comm, BatchYield.checked_beyond fit, BatchYield.checked, if_pos fits,
            BatchYield.checked, if_neg fit]
          rfl
      · rw [BatchYield.checked_beyond fits, BatchYield.checked, if_neg fits]
        rfl

/-- However pages are spread over batches and the batches merged, putting the outcome together overflows
exactly if the count of the pages or one of the sums of bytes reaches the limit. Otherwise it ends in
the exact sums. Both are as if all pages had been recorded in one outcome. -/
theorem outcome_sums {grouping : Grouping} {pages : List PageYield}
    (same : grouping.pages.Perm pages) :
    (grouping.outcome = .error .addOverflow ↔ Word.limit ≤ pages.length ∨
      Word.limit ≤ (pages.map PageYield.freed).sum ∨
      Word.limit ≤ (pages.map PageYield.wasted).sum) ∧
    (grouping.outcome ≠ .error .addOverflow → grouping.outcome = .ok
      { pages := pages.length
        freed := (pages.map PageYield.freed).sum
        wasted := (pages.map PageYield.wasted).sum
        largest := (pages.map PageYield.largest).foldr max 0 }) ∧
    grouping.outcome = (batch pages).outcome := by
  have whole : grouping.outcome = (BatchYield.sums pages).checked := by
    rw [outcome_eq, BatchYield.sums_perm same]
  have alone : (batch pages).outcome = (BatchYield.sums pages).checked := by
    rw [outcome_eq, batch_pages]
  rw [alone, whole]
  by_cases fits : (BatchYield.sums pages).Fits
  · obtain ⟨count, freed, wasted⟩ := id fits
    rw [BatchYield.checked, if_pos fits]
    refine ⟨⟨nofun, fun beyond => ?_⟩, fun _ => rfl, rfl⟩
    rcases beyond with beyond | beyond | beyond
    · exact absurd count (Nat.not_lt.mpr beyond)
    · exact absurd freed (Nat.not_lt.mpr beyond)
    · exact absurd wasted (Nat.not_lt.mpr beyond)
  · rw [BatchYield.checked, if_neg fits]
    refine ⟨⟨fun _ => ?_, fun _ => rfl⟩, fun lasting => absurd rfl lasting, rfl⟩
    by_contra below
    simp only [not_or, Nat.not_le] at below
    exact fits ⟨below.1, below.2.1, below.2.2⟩

def samplePages : List PageYield :=
  -- Two pages of half the word each, and a small one.
  [⟨Word.limit / 2, 0, 64, 1⟩, ⟨8, 24, 8, 0⟩, ⟨Word.limit / 2, 8, 4032, 2⟩]

def sampleGrouping : Grouping :=
  -- The small page and a large one are a batch, which is merged by way of another outcome.
  .merge (.merge .fresh (.merge .fresh (batch (samplePages.drop 1)))) (batch (samplePages.take 1))

/-- One large page goes in with the small one. With both, every order overflows in the end. -/
theorem sampleGrouping_sums : sampleGrouping.pages.Perm samplePages ∧
    sampleGrouping.outcome = .error .addOverflow ∧
    (batch samplePages).outcome = .error .addOverflow ∧
    (batch (samplePages.drop 1)).outcome = .ok ⟨2, Word.limit / 2 + 8, 32, 4032⟩ := by
  have same : sampleGrouping.pages.Perm samplePages := by decide
  obtain ⟨beyond, _, alone⟩ := outcome_sums same
  have ended := beyond.mpr (by decide)
  exact ⟨same, ended, alone ▸ ended, rfl⟩

end Grouping

end Reclaim
