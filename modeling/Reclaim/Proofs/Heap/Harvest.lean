import Reclaim.Proofs.Heap.Load

/-! What sweeping several pages comes to, as a function of the pages alone. Whatever the batches, the
free lists gain the ranges of the renewed pages and the totals gain what the pages yield; the order
of the pages shows in the order of pages and blocks only. -/

namespace Reclaim

def harvest (pages : List Page) : BatchYield :=
  pages.foldr (fun page total => page.yielded.single.plus total) .zero

def renewedIn (kind : SpaceKind) (pages : List Page) : List Page :=
  (pages.filter fun page => decide (page.space = kind)).map Page.renewed

def mapOf (pages : List Page) : FreeList := .ofBlocks (pages.flatMap Page.ranges)

def SweepTotals.after (totals : SweepTotals) (pages : List Page) : SweepTotals :=
  pages.foldl (fun totals page => totals.record page.yielded) totals

theorem harvest_cons (page : Page) (rest : List Page) :
    harvest (page :: rest) = page.yielded.single.plus (harvest rest) := rfl

theorem harvest_append (pages more : List Page) :
    harvest (pages ++ more) = (harvest pages).plus (harvest more) := by
  induction pages with
  | nil => exact (BatchYield.zero_plus _).symm
  | cons page rest ih => rw [List.cons_append, harvest_cons, harvest_cons, ih, BatchYield.plus_assoc]

theorem harvest_pages (pages : List Page) : (harvest pages).pages = pages.length := by
  induction pages with
  | nil => rfl
  | cons page rest ih =>
      rw [harvest_cons, List.length_cons, ← ih]
      exact Nat.add_comm _ _

theorem harvest_perm {pages more : List Page} (same : pages.Perm more) :
    harvest pages = harvest more := by
  refine same.foldr_eq' (fun page _ other _ total => ?_) _
  rw [← BatchYield.plus_assoc, ← BatchYield.plus_assoc,
    BatchYield.plus_comm page.yielded.single other.yielded.single]

theorem harvest_modest {pages : List Page} (sound : ∀ page ∈ pages, page.Sound) :
    (harvest pages).Modest := by
  induction pages with
  | nil => exact Nat.zero_le _
  | cons page rest ih =>
      have later := ih fun other member => sound other (by simp [member])
      exact BatchYield.Modest.plus (Load.yielded_modest (sound page (by simp))) later

theorem SweepTotals.after_append (totals : SweepTotals) (pages more : List Page) :
    totals.after (pages ++ more) = (totals.after pages).after more := List.foldl_append

theorem SweepTotals.after_perm (totals : SweepTotals) {pages more : List Page}
    (same : pages.Perm more) : totals.after pages = totals.after more := by
  refine same.foldl_eq' (fun page _ other _ totals => ?_) totals
  rw [record_eq, record_eq, record_eq, record_eq, plus_plus, plus_plus, BatchYield.plus_comm]

theorem renewedIn_append (kind : SpaceKind) (pages more : List Page) :
    renewedIn kind (pages ++ more) = renewedIn kind pages ++ renewedIn kind more := by
  simp [renewedIn]

theorem renewedIn_same (page : Page) : renewedIn page.space [page] = [page.renewed] := by
  simp [renewedIn]

theorem renewedIn_other {kind : SpaceKind} {page : Page} (distinct : kind ≠ page.space) :
    renewedIn kind [page] = [] := by
  simp [renewedIn, Ne.symm distinct]

theorem mapOf_append (pages more : List Page) :
    mapOf (pages ++ more) = (mapOf pages).join (mapOf more) := by
  rw [mapOf, List.flatMap_append, FreeList.ofBlocks_append]
  rfl

theorem mapOf_nil : mapOf [] = .empty := rfl

theorem mapOf_renewed_cons (page : Page) (rest : List Page) :
    mapOf ((page :: rest).map Page.renewed) =
      (FreeList.ofBlocks page.renewed.ranges).join (mapOf (rest.map Page.renewed)) := by
  rw [mapOf, List.map_cons, List.flatMap_cons, FreeList.ofBlocks_append]
  rfl

def PagedSpace.receive (space : PagedSpace) (pages : List Page) : PagedSpace :=
  { space with swept := space.swept ++ pages, free := space.free.join (mapOf pages) }

theorem PagedSpace.receive_nil (space : PagedSpace) : space.receive [] = space := by
  rw [receive, mapOf_nil, FreeList.join_empty, List.append_nil]

theorem PagedSpace.receive_receive (space : PagedSpace) (pages more : List Page) :
    (space.receive pages).receive more = space.receive (pages ++ more) := by
  simp only [receive, mapOf_append, FreeList.join_assoc, List.append_assoc]

namespace Heap

def Batch.harvested (batch : Batch) (pages : List Page) : Batch :=
  { lists :=
      ⟨batch.lists.data.join (mapOf (renewedIn .data pages)),
        batch.lists.pointer.join (mapOf (renewedIn .pointer pages))⟩
    pages :=
      ⟨batch.pages.data ++ renewedIn .data pages, batch.pages.pointer ++ renewedIn .pointer pages⟩
    totals := batch.totals.after pages
    yielded := batch.yielded.plus (harvest pages) }

theorem Batch.harvested_get (batch : Batch) (pages : List Page) (kind : SpaceKind) :
    (batch.harvested pages).pages.get kind = batch.pages.get kind ++ renewedIn kind pages ∧
      (batch.harvested pages).lists.get kind =
        (batch.lists.get kind).join (mapOf (renewedIn kind pages)) := by
  cases kind <;> exact ⟨rfl, rfl⟩

theorem Batch.harvested_single (batch : Batch) (page : Page) :
    batch.harvested [page] = Load.gained batch batch.totals page := by
  have totals : batch.totals.after [page] = batch.totals.record page.yielded := rfl
  have yielded : batch.yielded.plus (harvest [page]) = batch.yielded.plus page.yielded.single :=
    congrArg _ (BatchYield.plus_zero _)
  have list (kind : SpaceKind) (list : FreeList) : list.join (mapOf (renewedIn kind [page])) =
      if page.space = kind then list.join (.ofBlocks page.renewed.ranges) else list := by
    by_cases same : page.space = kind
    · subst same
      rw [renewedIn_same, if_pos rfl, mapOf, List.flatMap_singleton]
    · rw [renewedIn_other (Ne.symm same), if_neg same, mapOf_nil, FreeList.join_empty]
  have grown (kind : SpaceKind) (pages : List Page) : pages ++ renewedIn kind [page] =
      if page.space = kind then pages ++ [page.renewed] else pages := by
    by_cases same : page.space = kind
    · subst same
      rw [renewedIn_same, if_pos rfl]
    · rw [renewedIn_other (Ne.symm same), if_neg same, List.append_nil]
  simp only [harvested, totals, yielded, list, grown, Load.gained, BySpace.modify]
  cases page.space <;> rfl

theorem Batch.harvested_cons (batch : Batch) (page : Page) (rest : List Page) :
    (batch.harvested [page]).harvested rest = batch.harvested (page :: rest) := by
  have split : page :: rest = [page] ++ rest := rfl
  simp only [harvested, split, renewedIn_append, mapOf_append, harvest_append, FreeList.join_assoc,
    List.append_assoc, BatchYield.plus_assoc, SweepTotals.after_append]

theorem Batch.sweep_eq (batch : Batch) {pages : List Page}
    (sweepable : ∀ page ∈ pages, page.Sweepable)
    (lists : ∀ kind, ((batch.lists.get kind).join (mapOf (renewedIn kind pages))).Fits)
    (totals : (batch.yielded.plus (harvest pages)).Fits) :
    batch.sweep pages = (.ok (), batch.harvested pages) := by
  induction pages generalizing batch with
  | nil =>
      have bare (list : FreeList) (kind : SpaceKind) : list.join (mapOf (renewedIn kind [])) = list :=
        list.join_empty
      simp only [Batch.sweep, harvested, bare]
      simp [renewedIn, harvest, BatchYield.plus_zero, SweepTotals.after]
  | cons page rest ih =>
      have split : page :: rest = [page] ++ rest := rfl
      have first := lists page.space
      rw [split, renewedIn_append, renewedIn_same, mapOf_append, ← FreeList.join_assoc] at first
      rw [harvest_cons, ← BatchYield.plus_assoc] at totals
      have single := Load.sweep_single batch (sweepable page (by simp))
        (by simpa [mapOf] using first.of_join_left) totals.of_plus_left
      rw [← harvested_single] at single
      have later := ih (batch.harvested [page])
        (fun other member => sweepable other (by simp [member]))
        (fun kind => by
          rw [(harvested_get batch [page] kind).2, FreeList.join_assoc, ← mapOf_append,
            ← renewedIn_append]
          exact lists kind)
        (by
          rw [harvested_single]
          exact totals)
      rw [harvested_cons] at later
      rw [Load.sweep_cons, single]
      exact later

def reclaim (heap : Heap) (pages : List Page) : Heap :=
  { heap with
    spaces :=
      ⟨(heap.space .data).receive (renewedIn .data pages),
        (heap.space .pointer).receive (renewedIn .pointer pages)⟩
    totals := heap.totals.after pages }

theorem space_reclaim (heap : Heap) (pages : List Page) (kind : SpaceKind) :
    (heap.reclaim pages).space kind = (heap.space kind).receive (renewedIn kind pages) := by
  cases kind <;> rfl

theorem publishBatch_eq (heap : Heap) {batch : Batch} {kind : SpaceKind} {pages : List Page}
    (held : batch.pages.get kind = pages) (mapped : batch.lists.get kind = mapOf pages)
    (fits : ((heap.space kind).free.join (mapOf pages)).Fits) :
    heap.publishBatch batch kind = (.ok (), heap.setSpace kind ((heap.space kind).receive pages)) := by
  unfold publishBatch
  rw [held, mapped]
  by_cases none : pages = []
  · rw [none, PagedSpace.receive_nil, setSpace_self]
    rfl
  · have some : pages.isEmpty = false := by simpa using none
    simp only [some, Bool.false_eq_true, if_false, onSpace, PagedSpace.publish_eq fits]
    rfl

theorem sweepPages_ok {heap : Heap} {pages : List Page}
    (sweepable : ∀ page ∈ pages, page.Sweepable)
    (lists : ∀ kind, ((heap.space kind).free.join (mapOf (renewedIn kind pages))).Fits)
    (totals : (harvest pages).Fits) :
    heap.sweepPages pages = (.ok (harvest pages), heap.reclaim pages) := by
  have start (kind : SpaceKind) : (Batch.start heap.totals).pages.get kind = [] ∧
      (Batch.start heap.totals).lists.get kind = .empty := by cases kind <;> exact ⟨rfl, rfl⟩
  have swept := Batch.sweep_eq (Batch.start heap.totals) sweepable
    (fun kind => by
      rw [(start kind).2, FreeList.empty_join]
      exact (lists kind).of_join_right)
    (by
      rw [show (Batch.start heap.totals).yielded = .zero from rfl, BatchYield.zero_plus]
      exact totals)
  have held (kind : SpaceKind) :
      ((Batch.start heap.totals).harvested pages).pages.get kind = renewedIn kind pages ∧
      ((Batch.start heap.totals).harvested pages).lists.get kind = mapOf (renewedIn kind pages) := by
    obtain ⟨grown, list⟩ := Batch.harvested_get (Batch.start heap.totals) pages kind
    rw [(start kind).1, List.nil_append] at grown
    rw [(start kind).2, FreeList.empty_join] at list
    exact ⟨grown, list⟩
  let counted : Heap := { heap with totals := heap.totals.after pages }
  have data := publishBatch_eq counted (held .data).1 (held .data).2 (lists .data)
  have pointer := publishBatch_eq
    (counted.setSpace .data ((counted.space .data).receive (renewedIn .data pages)))
    (held .pointer).1 (held .pointer).2 (lists .pointer)
  have whole : ((Batch.start heap.totals).harvested pages).totals = heap.totals.after pages := rfl
  have yielded : ((Batch.start heap.totals).harvested pages).yielded = harvest pages :=
    BatchYield.zero_plus _
  unfold sweepPages
  rw [swept]
  dsimp only
  rw [whole, yielded, data]
  dsimp only
  rw [pointer]
  rfl

end Heap

/-! Sound pages, swept at once. -/

theorem Mapped.ofRenewed {pages : List Page} (sound : ∀ page ∈ pages, page.Sound) :
    Mapped (pages.map Page.renewed) (mapOf (pages.map Page.renewed)) := by
  induction pages with
  | nil => exact Mapped.nil
  | cons page rest ih =>
      have later := ih fun other member => sound other (by simp [member])
      rw [mapOf_renewed_cons]
      exact (Mapped.renewed (sound page (by simp))).append later

theorem renewedIn_all (pages : List Page) :
    (renewedIn .data pages ++ renewedIn .pointer pages).Perm (pages.map Page.renewed) := by
  rw [renewedIn, renewedIn, ← List.map_append]
  exact (Heap.filter_space_perm pages).map _

theorem Heap.Sound.reclaim {heap : Heap} {pages : List Page} (sound : heap.Sound)
    (waiting : ∀ page ∈ pages, page.Sound) :
    (heap.reclaim pages).Sound ∧
      (heap.reclaim pages).pages.Perm (pages.map Page.renewed ++ heap.pages) := by
  refine ⟨⟨fun kind => ?_, fun kind => ?_⟩, ?_⟩
  · rw [Heap.space_reclaim]
    exact sound.kind kind
  · rw [Heap.space_reclaim]
    have old := sound.space kind
    refine ⟨old.waiting, ?_, fun page member => ?_⟩
    · exact old.mapped.append (Mapped.ofRenewed fun page member =>
        waiting page (List.mem_filter.mp member).1)
    · simp only [PagedSpace.pages, PagedSpace.receive, List.mem_append] at member
      rcases member with before | swept | added
      · exact old.own page (List.mem_append_left _ before)
      · exact old.own page (List.mem_append_right _ swept)
      · obtain ⟨origin, inside, rfl⟩ := List.mem_map.mp added
        have own : origin.space = kind := by simpa using (List.mem_filter.mp inside).2
        exact own.trans (sound.kind kind).symm
  · refine List.perm_iff_count.mpr fun page => ?_
    have parted := List.perm_iff_count.mp (renewedIn_all pages) page
    simp only [Heap.pages, Heap.space_reclaim, PagedSpace.pages, PagedSpace.receive,
      List.count_append] at parted ⊢
    omega

end Reclaim
