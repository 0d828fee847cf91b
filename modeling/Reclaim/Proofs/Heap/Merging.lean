import Reclaim.Proofs.Heap.Harvest

/-! Private lists. A sweeper collects the blocks of its pages on a list of its own and concatenates
that list to the shared one. A sweep joins the ranges of a page to whatever list it is given, and
joining is associative, so the shared list comes out as if the pages had been swept straight into
it. -/

namespace Reclaim

namespace Page

def sweepAll (list : FreeList) : List Page → Except Fault (List (PageYield × Page) × FreeList)
  | [] => .ok ([], list)
  | page :: rest =>
      match page.sweep list with
      | .error fault => .error fault
      | .ok (produced, renewed, list) =>
          match sweepAll list rest with
          | .error fault => .error fault
          | .ok (results, list) => .ok ((produced, renewed) :: results, list)

def sweepBatches (list : FreeList) :
    List (List Page) → Except Fault (List (PageYield × Page) × FreeList)
  | [] => .ok ([], list)
  | batch :: rest =>
      match sweepAll .empty batch with
      | .error fault => .error fault
      | .ok (results, own) =>
          match list.concatenate own with
          | (.error fault, _) => .error fault
          | (.ok _, list, _) =>
              match sweepBatches list rest with
              | .error fault => .error fault
              | .ok (later, list) => .ok (results ++ later, list)

structure Merges (list : FreeList) (pages : List Page) : Prop where
  joined : ∀ results own, sweepAll .empty pages = .ok (results, own) →
    ∃ left, list.concatenate own = (.ok own.available, left, .empty) ∧
      sweepAll list pages = .ok (results, left)
  faults : ∀ fault, sweepAll .empty pages = .error fault ↔ sweepAll list pages = .error fault
  runs : (∀ page ∈ pages, page.sweeps + 1 < Word.halfLimit) →
    ∃ own, sweepAll .empty pages = .ok (pages.map fun page => (page.yielded, page.renewed), own)
  batched : ∀ batches, batches.flatten = pages →
    sweepBatches list batches = sweepAll list pages

theorem mapOf_renewed_counts (pages : List Page) :
    (mapOf (pages.map renewed)).available = (pages.map (·.yielded.freed)).sum ∧
      (mapOf (pages.map renewed)).wasted = (pages.map (·.yielded.wasted)).sum := by
  induction pages with
  | nil => exact ⟨rfl, rfl⟩
  | cons page rest ih =>
      obtain ⟨available, wasted⟩ := ih
      rw [mapOf_renewed_cons, List.map_cons, List.map_cons, List.sum_cons, List.sum_cons,
        ← available, ← wasted]
      exact ⟨rfl, rfl⟩

/-- What a sweep of several pages comes to does not depend on the blocks that the list has. -/
theorem sweepAll_eq {list : FreeList} {pages : List Page}
    (unswept : ∀ page ∈ pages, page.swept = false)
    (fits : (list.join (mapOf (pages.map renewed))).Fits) :
    sweepAll list pages =
      if ∀ page ∈ pages, page.sweeps + 1 < Word.halfLimit then
        .ok (pages.map fun page => (page.yielded, page.renewed),
          list.join (mapOf (pages.map renewed)))
      else .error .addOverflow := by
  induction pages generalizing list with
  | nil => simp [sweepAll, mapOf_nil, FreeList.join_empty]
  | cons page rest ih =>
      obtain ⟨first, others⟩ := List.forall_mem_cons.mp unswept
      rw [mapOf_renewed_cons, ← FreeList.join_assoc] at fits ⊢
      have all : (∀ other ∈ page :: rest, other.sweeps + 1 < Word.halfLimit) ↔
          page.sweeps + 1 < Word.halfLimit ∧ ∀ other ∈ rest, other.sweeps + 1 < Word.halfLimit :=
        List.forall_mem_cons
      rw [sweepAll, sweep_unswept first fits.of_join_left]
      by_cases young : page.sweeps + 1 < Word.halfLimit
      · rw [if_pos young]
        dsimp only
        rw [ih others fits]
        by_cases later : ∀ page ∈ rest, page.sweeps + 1 < Word.halfLimit
        · rw [if_pos later, if_pos (all.mpr ⟨young, later⟩)]
          rfl
        · rw [if_neg later, if_neg fun every => later (all.mp every).2]
      · rw [if_neg young, if_neg fun every => young (all.mp every).1]

theorem sweepAll_empty {pages : List Page} (unswept : ∀ page ∈ pages, page.swept = false)
    (fits : (mapOf (pages.map renewed)).Fits) :
    sweepAll .empty pages =
      if ∀ page ∈ pages, page.sweeps + 1 < Word.halfLimit then
        .ok (pages.map fun page => (page.yielded, page.renewed), mapOf (pages.map renewed))
      else .error .addOverflow := by
  have own : (FreeList.empty.join (mapOf (pages.map renewed))).Fits := by
    rw [FreeList.empty_join]
    exact fits
  rw [sweepAll_eq unswept own, FreeList.empty_join]

theorem sweepAll_append (list : FreeList) (pages more : List Page) :
    sweepAll list (pages ++ more) =
      match sweepAll list pages with
      | .error fault => .error fault
      | .ok (results, list) =>
          match sweepAll list more with
          | .error fault => .error fault
          | .ok (later, list) => .ok (results ++ later, list) := by
  induction pages generalizing list with
  | nil =>
      rw [List.nil_append, sweepAll]
      dsimp only
      cases sweepAll list more <;> rfl
  | cons page rest ih =>
      rw [List.cons_append, sweepAll, sweepAll]
      cases page.sweep list with
      | error fault => rfl
      | ok swept =>
          obtain ⟨produced, renewed, list⟩ := swept
          dsimp only
          rw [ih]
          cases sweepAll list rest with
          | error fault => rfl
          | ok swept =>
              dsimp only
              cases sweepAll swept.2 more <;> rfl

theorem sweepAll_apart {list : FreeList} {pages : List Page}
    (unswept : ∀ page ∈ pages, page.swept = false)
    (fits : (list.join (mapOf (pages.map renewed))).Fits) :
    (sweepAll .empty pages = .error .addOverflow ∧ sweepAll list pages = .error .addOverflow) ∨
      sweepAll .empty pages = .ok (pages.map fun page => (page.yielded, page.renewed),
        mapOf (pages.map renewed)) ∧
      sweepAll list pages = .ok (pages.map fun page => (page.yielded, page.renewed),
        list.join (mapOf (pages.map renewed))) := by
  rw [sweepAll_eq unswept fits, sweepAll_empty unswept fits.of_join_right]
  split
  · exact Or.inr ⟨rfl, rfl⟩
  · exact Or.inl ⟨rfl, rfl⟩

theorem sweepBatches_eq {list : FreeList} {batches : List (List Page)}
    (unswept : ∀ page ∈ batches.flatten, page.swept = false)
    (fits : (list.join (mapOf (batches.flatten.map renewed))).Fits) :
    sweepBatches list batches = sweepAll list batches.flatten := by
  induction batches generalizing list with
  | nil => rfl
  | cons batch rest ih =>
      rw [List.flatten_cons] at unswept fits ⊢
      obtain ⟨first, others⟩ := List.forall_mem_append.mp unswept
      rw [List.map_append, mapOf_append, ← FreeList.join_assoc] at fits
      rw [sweepAll_append, sweepBatches]
      obtain ⟨apart, direct⟩ | ⟨apart, direct⟩ := sweepAll_apart first fits.of_join_left
      · rw [apart, direct]
      · rw [apart, direct]
        dsimp only
        rw [FreeList.concatenate_eq fits.of_join_left]
        dsimp only
        rw [ih others fits]

/-- Sweeping into a private list that is then joined to the shared one comes to the same as sweeping
into the shared list, in one batch or in several. -/
theorem sweepAll_merges {list : FreeList} {pages : List Page}
    (unswept : ∀ page ∈ pages, page.swept = false)
    (available : list.available + (pages.map (·.yielded.freed)).sum < Word.limit)
    (wasted : list.wasted + (pages.map (·.yielded.wasted)).sum < Word.limit) :
    Merges list pages := by
  obtain ⟨kept, lost⟩ := mapOf_renewed_counts pages
  have fits : (list.join (mapOf (pages.map renewed))).Fits :=
    ⟨by rwa [← kept] at available, by rwa [← lost] at wasted⟩
  have apart := sweepAll_apart unswept fits
  refine ⟨fun results own swept => ?_, fun fault => ?_, fun young => ?_, ?_⟩
  · obtain ⟨faulted, _⟩ | ⟨whole, direct⟩ := apart
    · rw [faulted] at swept
      cases swept
    · rw [whole] at swept
      cases swept
      exact ⟨_, FreeList.concatenate_eq fits, direct⟩
  · obtain ⟨faulted, direct⟩ | ⟨whole, direct⟩ := apart
    · rw [faulted, direct]
    · rw [whole, direct]
      exact ⟨nofun, nofun⟩
  · exact ⟨_, by rw [sweepAll_empty unswept fits.of_join_right, if_pos young]⟩
  · rintro batches rfl
    exact sweepBatches_eq unswept fits

def usedList : FreeList :=
  ⟨[⟨⟨1⟩, 64, 24⟩, ⟨⟨2⟩, 96, 640⟩], [⟨⟨2⟩, 1000, 3000⟩], [], [], 3664, 12⟩

def usedPages : List Page :=
  -- A page with a gap too small to keep, a page of dead objects and a page that was never full.
  [⟨⟨4⟩, .data, [⟨64, 32, false⟩, ⟨96, 40, true⟩, ⟨136, 8, false⟩, ⟨144, 1000, true⟩], 1144, false, 3⟩,
    ⟨⟨5⟩, .data, [⟨64, 16, false⟩, ⟨80, 4016, false⟩], 4096, false, 0⟩,
    ⟨⟨6⟩, .data, [⟨64, 2000, true⟩], 2064, false, 1⟩]

def mergedList : FreeList :=
  ⟨[⟨⟨1⟩, 64, 24⟩, ⟨⟨2⟩, 96, 640⟩, ⟨⟨4⟩, 64, 32⟩, ⟨⟨6⟩, 2064, 2032⟩],
    [⟨⟨2⟩, 1000, 3000⟩, ⟨⟨4⟩, 1144, 2952⟩, ⟨⟨5⟩, 64, 4032⟩], [], [], 12712, 20⟩

theorem usedPages_merge : Merges usedList usedPages ∧
    sweepBatches usedList [usedPages.take 1, usedPages.drop 1] =
      .ok (usedPages.map fun page => (page.yielded, page.renewed), mergedList) :=
  ⟨sweepAll_merges (by decide) (by decide) (by decide), rfl⟩

end Page

/-- A heap that sweeps pages privately ends with the lists and pages that it would have got by
sweeping the pages of each space straight into the list of that space. -/
theorem Heap.sweepPages_direct {heap : Heap} {pages : List Page}
    (sweepable : ∀ page ∈ pages, page.Sweepable)
    (lists : ∀ kind, ((heap.space kind).free.join (mapOf (renewedIn kind pages))).Fits)
    (totals : (harvest pages).Fits) (kind : SpaceKind) :
    ∃ results, Page.sweepAll (heap.space kind).free
        (pages.filter fun page => decide (page.space = kind)) =
          .ok (results, ((heap.sweepPages pages).2.space kind).free) ∧
      ((heap.sweepPages pages).2.space kind).swept =
        (heap.space kind).swept ++ results.map Prod.snd := by
  have own {page : Page} (member : page ∈ pages.filter fun page => decide (page.space = kind)) :
      page.Sweepable := sweepable page (List.mem_filter.mp member).1
  rw [sweepPages_ok sweepable lists totals]
  dsimp only
  rw [space_reclaim,
    Page.sweepAll_eq (fun page member => (own member).unswept) (lists kind),
    if_pos fun page member => (own member).young]
  refine ⟨_, rfl, ?_⟩
  rw [List.map_map]
  rfl

end Reclaim
