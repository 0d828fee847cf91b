import Reclaim.Proofs.Runs
import Reclaim.Proofs.World.Turn

/-! Histories of a world. Clients create pages, fill and mark them, add them to the heap, allocate and
begin new cycles; the unswept pages are taken in batches of any kind and swept by any number of
parties at once. Whatever the order of these deeds, the world stays sound and none of them faults. -/

namespace Reclaim

inductive Edit : Page → Deed → Page → Prop
  | bump (page : Page) (request : Nat) :
      Edit page (.bump page request (page.bump request).1) (page.bump request).2
  | mark (page : Page) (offset : Nat) :
      Edit page (.mark page offset (page.mark offset).1) (page.mark offset).2

/-- One deed. Page numbers stay within half a word, and so does the number of times that a page is
swept; a new cycle begins only when no page is on its way. -/
inductive Step : World → Deed → World → Prop
  | create {world : World} (kind : SpaceKind)
      (room : world.heap.nextPage + 1 < Word.halfLimit) :
      Step world (.create (world.heap.newPage kind).1)
        { world with
          heap := (world.heap.newPage kind).2
          loose := world.loose ++ [(world.heap.newPage kind).1] }
  | editLoose {heap : Heap} {early late : List Page} {loads : List Load} {page edited : Page}
      {deed : Deed} (edit : Edit page deed edited) :
      Step ⟨heap, early ++ page :: late, loads⟩ deed ⟨heap, early ++ edited :: late, loads⟩
  | editUnswept {world : World} {kind : SpaceKind} {early late : List Page} {page edited : Page}
      {deed : Deed} (edit : Edit page deed edited)
      (waiting : (world.heap.space kind).unswept = early ++ page :: late) :
      Step world deed
        { world with
          heap := world.heap.setSpace kind
            { world.heap.space kind with unswept := early ++ edited :: late } }
  | add {heap : Heap} {early late : List Page} {loads : List Load} (page : Page) :
      Step ⟨heap, early ++ page :: late, loads⟩
        (.add page ((heap.addPage page).map fun _ => ()))
        ⟨(heap.addPage page).toOption.getD heap, early ++ late, loads⟩
  | allocate {world : World} (kind : SpaceKind) (request : Nat) :
      Step world (.allocate kind request (world.heap.allocate kind request).1)
        { world with heap := (world.heap.allocate kind request).2 }
  | take {world : World} (parts : List (List Page))
      (parted : parts.flatten.Perm world.heap.takeUnswept.1) :
      Step world .take
        { world with
          heap := world.heap.takeUnswept.2
          loads := world.loads ++ parts.map Load.ofPages }
  | restore {heap : Heap} {loose : List Page} {before after : List Load} (pages : List Page) :
      Step ⟨heap, loose, before ++ Load.ofPages pages :: after⟩ .restore
        ⟨heap.restoreUnswept pages, loose, before ++ after⟩
  | sweep {heap : Heap} {loose : List Page} {before after : List Load} {load : Load} {page : Page}
      {left : List Page} (next : load.left = page :: left)
      (young : page.sweeps + 1 < Word.halfLimit) :
      Step ⟨heap, loose, before ++ load :: after⟩ (.sweep page (load.sweepNext heap).1)
        ⟨(load.sweepNext heap).2.2, loose, before ++ (load.sweepNext heap).2.1 :: after⟩
  | publish {heap : Heap} {loose : List Page} {before after : List Load} {load : Load}
      (kind : SpaceKind) (done : load.left = []) :
      Step ⟨heap, loose, before ++ load :: after⟩ (.publish kind (load.publish heap kind).1)
        ⟨(load.publish heap kind).2.2, loose, before ++ (load.publish heap kind).2.1 :: after⟩
  | prepare {world : World} (settled : ∀ load ∈ world.loads, load.pages = []) :
      Step world .prepare { world with heap := world.heap.prepare }

abbrev History (id : HeapId) (deeds : List Deed) (world : World) : Prop :=
  Runs Step ⟨.fresh id, [], []⟩ deeds world

theorem Edit.turn {page edited : Page} {deed : Deed} (edit : Edit page deed edited)
    (sound : page.Sound) :
    edited.Sound ∧ edited.id = page.id ∧ edited.space = page.space ∧ edited.swept = page.swept ∧
      edited.sweeps = page.sweeps ∧ deed.fault? = none ∧ deed.born = [] ∧
      ∀ {before after}, Turned page edited before after → Turn before deed after := by
  cases edit with
  | bump request =>
      refine ⟨sound.bump rfl, ?_⟩
      rcases page.bump_eq request with same | ⟨size, unswept, positive, rounded, fits, grown⟩
      · rw [same]
        exact ⟨rfl, rfl, rfl, rfl, rfl, rfl, fun turned => .alike ⟨rfl, rfl, rfl⟩ turned (.refl page)⟩
      · rw [grown]
        refine ⟨rfl, rfl, rfl, rfl, rfl, rfl, fun {_ _} turned => ?_⟩
        have obtained : (Deed.bump page request (some page.top)).obtained? =
            some ⟨page.id, page.top, size⟩ := by simp [Deed.obtained?, rounded]
        have gains : page.Gains ⟨page.top, size, false⟩
            (page.objects ++ [⟨page.top, size, false⟩]) :=
          ⟨page.objects, [], by simp, sound.below, by simp, rfl⟩
        exact .placed turned rfl gains obtained rfl
  | mark offset =>
      refine ⟨sound.mark rfl, ?_⟩
      rcases page.mark_eq offset with same | ⟨position, changed⟩
      · rw [same]
        exact ⟨rfl, rfl, rfl, rfl, rfl, rfl, fun turned => .alike ⟨rfl, rfl, rfl⟩ turned (.refl page)⟩
      · rw [changed]
        refine ⟨rfl, rfl, rfl, rfl, rfl, rfl, fun {_ _} turned => ?_⟩
        exact .alike ⟨rfl, rfl, rfl⟩ turned ⟨rfl, map_modify fun _ => rfl⟩

namespace World

structure Numbered (world : World) : Prop where
  numbers : (world.pages.map (·.id)).Perm ((List.range world.heap.nextPage).map PageId.mk)
  bounded : world.heap.nextPage < Word.halfLimit

namespace Numbered

variable {world next : World}

theorem length (numbered : world.Numbered) : world.pages.length = world.heap.nextPage := by
  have same := numbered.numbers.length_eq
  simpa using same

theorem unused (numbered : world.Numbered) :
    ⟨world.heap.nextPage⟩ ∉ world.pages.map (·.id) := by
  rw [numbered.numbers.mem_iff]
  simp

theorem of_ids (numbered : world.Numbered)
    (ids : (next.pages.map (·.id)).Perm (world.pages.map (·.id)))
    (same : next.heap.nextPage = world.heap.nextPage) : next.Numbered where
  numbers := by
    rw [same]
    exact ids.trans numbered.numbers
  bounded := by
    rw [same]
    exact numbered.bounded

theorem create (numbered : world.Numbered) {page : Page} (first : page.id = ⟨world.heap.nextPage⟩)
    (grown : next.pages.Perm (page :: world.pages))
    (number : next.heap.nextPage = world.heap.nextPage + 1)
    (room : world.heap.nextPage + 1 < Word.halfLimit) : next.Numbered where
  numbers := by
    refine (grown.map _).trans ?_
    rw [number, List.range_succ, List.map_append, List.map_cons, first]
    exact (numbered.numbers.cons _).trans (List.perm_append_singleton _ _).symm
  bounded := by
    rw [number]
    exact room

end Numbered

theorem Sound.deal {world : World} (sound : world.Sound) {parts : List (List Page)}
    (parted : parts.flatten.Perm world.heap.takeUnswept.1) :
    (World.mk world.heap.takeUnswept.2 world.loose (world.loads ++ parts.map Load.ofPages)).Sound ∧
      (World.mk world.heap.takeUnswept.2 world.loose
        (world.loads ++ parts.map Load.ofPages)).pages.Perm world.pages := by
  have flat : (parts.map Load.ofPages).flatMap Load.pages = parts.flatten := by
    rw [List.flatMap_map, ← List.flatMap_id]
    simp [Load.ofPages_pages]
  have members : ∀ load ∈ parts.map Load.ofPages, load.Sound := by
    intro load member
    obtain ⟨pages, inside, rfl⟩ := List.mem_map.mp member
    refine Load.ofPages_sound fun page found => ?_
    exact sound.heap.takeUnswept.2.2 page (parted.mem_iff.mp (List.mem_flatten_of_mem inside found))
  refine World.Sound.take sound (world.loads ++ parts.map Load.ofPages) ?_ ?_
  · intro load member
    exact (List.mem_append.mp member).elim (sound.loads load) (members load)
  · rw [List.flatMap_append, flat]
    exact (parted.append_left _).trans List.perm_append_comm

end World

/-- A deed in a sound world does not fault, and the world stays sound. -/
theorem Step.sound {world next : World} {deed : Deed} (step : Step world deed next)
    (sound : world.Sound) (numbered : world.Numbered) :
    next.Sound ∧ next.Numbered ∧ deed.fault? = none ∧ Turn world.pages deed next.pages := by
  cases step with
  | create kind room =>
      have number : (world.heap.nextPage + 1) % Word.halfLimit = world.heap.nextPage + 1 :=
        Nat.mod_eq_of_lt room
      have bounded := numbered.bounded
      obtain ⟨created, grown⟩ := World.Sound.create sound (Page.fresh_sound ⟨world.heap.nextPage⟩ kind)
        rfl (world.heap.newPage kind).2 rfl numbered.unused (by rw [numbered.length]; omega)
      exact ⟨created, numbered.create rfl grown number room, rfl, .born grown⟩
  | @editLoose heap early late loads page edited deed edit =>
      obtain ⟨pageSound, _⟩ := sound.loose page (by simp)
      obtain ⟨editedSound, id, _, swept, _, calm, unborn, turn⟩ := edit.turn pageSound
      obtain ⟨nextSound, turned⟩ := sound.editLoose id editedSound swept
      exact ⟨nextSound, numbered.of_ids (turned.map (·.id) id) rfl, calm, turn turned⟩
  | @editUnswept _ kind early late page edited deed edit waiting =>
      have member : page ∈ (world.heap.space kind).unswept := by simp [waiting]
      obtain ⟨editedSound, id, space, swept, _, calm, unborn, turn⟩ :=
        edit.turn ((sound.heap.space kind).waiting page member).1
      obtain ⟨nextSound, turned⟩ :=
        World.Sound.editUnswept sound waiting id editedSound space swept
      exact ⟨nextSound, numbered.of_ids (turned.map (·.id) id) rfl, calm, turn turned⟩
  | add page =>
      obtain ⟨added, accepted, number, nextSound, moved⟩ := sound.addPage
      rw [accepted]
      exact ⟨nextSound, numbered.of_ids (moved.map _) number, rfl, .still ⟨rfl, rfl, rfl⟩ moved⟩
  | allocate kind request =>
      rcases World.Sound.allocate sound kind request with
        refused | ⟨page, objects, object, served, found, rounded, gains, number, _, nextSound,
          turned⟩
      · rw [refused]
        exact ⟨sound, numbered, rfl, .still ⟨rfl, rfl, rfl⟩ (List.Perm.refl _)⟩
      · rw [found]
        have obtained : (Deed.allocate kind request
            (.ok (some ⟨kind, page.id, object.offset⟩))).obtained? =
              some ⟨page.id, object.offset, object.size⟩ := by simp [Deed.obtained?, rounded]
        exact ⟨nextSound, numbered.of_ids (turned.map (·.id) rfl) number, rfl,
          .placed turned rfl gains obtained rfl⟩
  | take parts parted =>
      obtain ⟨nextSound, moved⟩ := sound.deal parted
      exact ⟨nextSound, numbered.of_ids (moved.map _) rfl, rfl, .still ⟨rfl, rfl, rfl⟩ moved⟩
  | @restore heap loose before after pages =>
      have whole := sound.loads (Load.ofPages pages) (by simp)
      obtain ⟨nextSound, moved⟩ := sound.restore (before ++ after) whole.waiting
        (fun load member => sound.loads load (by
          rcases List.mem_append.mp member with inBefore | inAfter
          · simp [inBefore]
          · simp [inAfter]))
        (by
          simp only [List.flatMap_append, List.flatMap_cons, Load.ofPages_pages]
          exact List.perm_append_comm_assoc _ _ _)
      exact ⟨nextSound, numbered.of_ids (moved.map _) rfl, rfl, .still ⟨rfl, rfl, rfl⟩ moved⟩
  | sweep first young =>
      obtain ⟨done, _, nextSound, turned⟩ := sound.sweep first young
      rw [done]
      exact ⟨nextSound, numbered.of_ids (turned.map (·.id) rfl) rfl, rfl, .swept turned⟩
  | publish kind done =>
      obtain ⟨published, joined, number, _, nextSound, moved⟩ := sound.publish done kind
      rw [joined]
      exact ⟨nextSound, numbered.of_ids (moved.map _) number, rfl, .still ⟨rfl, rfl, rfl⟩ moved⟩
  | prepare settled =>
      obtain ⟨nextSound, waiting, done, old, new⟩ := World.Sound.prepare sound
      have turn : Turn world.pages .prepare
          (World.mk world.heap.prepare world.loose world.loads).pages := by
        refine .quiet ⟨rfl, rfl, rfl⟩ old new (List.rel_append (alike_refl waiting) ?_)
        exact List.forall₂_map_right_iff.mpr (List.forall₂_same.mpr fun page _ => ⟨rfl, rfl⟩)
      exact ⟨nextSound, numbered.of_ids turn.ids rfl, rfl, turn⟩

namespace History

variable {id : HeapId} {deeds : List Deed} {world : World}

theorem fresh (id : HeapId) :
    (World.mk (.fresh id) [] []).Sound ∧ (World.mk (.fresh id) [] []).Numbered := by
  have empty : (World.mk (.fresh id) [] []).pages = [] := rfl
  refine ⟨⟨Heap.fresh_sound id, by simp, by simp, ?_, ?_⟩, ⟨?_, ?_⟩⟩
  · rw [empty]
    exact List.nodup_nil
  · rw [empty]
    exact Nat.zero_le _
  · exact List.Perm.refl _
  · have room : 0 < Word.halfLimit := by decide
    exact room

theorem sure (history : History id deeds world) :
    (∀ deed ∈ deeds, deed.fault? = none) ∧ world.Sound ∧ world.Numbered := by
  refine history.keeps_while (fun world => world.Sound ∧ world.Numbered) (fresh id)
    (fun _ _ => trivial) fun step _ kept => ?_
  obtain ⟨sound, numbered, calm, _⟩ := step.sound kept.1 kept.2
  exact ⟨calm, sound, numbered⟩

theorem invariant (history : History id deeds world) : world.Sound ∧ world.Numbered := history.sure.2

theorem sweepEach {heap : Heap} {loose pages : List Page} {before after : List Load} {load : Load}
    (history : History id deeds ⟨heap, loose, before ++ load :: after⟩) (left : load.left = pages)
    (young : ∀ page ∈ pages, page.sweeps + 1 < Word.halfLimit) :
    ∃ swept next more, load.sweepEach heap pages.length = (.ok (), swept, next) ∧
      swept.left = [] ∧ History id (deeds ++ more) ⟨next, loose, before ++ swept :: after⟩ := by
  induction pages generalizing heap load deeds with
  | nil => exact ⟨load, heap, [], rfl, left, by rwa [List.append_nil]⟩
  | cons page rest ih =>
      obtain ⟨sound, _⟩ := history.invariant
      obtain ⟨done, _⟩ := sound.sweep left (young page (by simp))
      have longer := history.snoc (.sweep left (young page (by simp)))
      rw [done] at longer
      dsimp only at longer
      obtain ⟨swept, next, more, all, empty, whole⟩ :=
        ih longer rfl fun other member => young other (by simp [member])
      refine ⟨swept, next, .sweep page (.ok ()) :: more, ?_, empty, ?_⟩
      · rw [List.length_cons, Load.sweepEach, done]
        exact all
      · rwa [List.append_assoc, List.singleton_append] at whole

/-- Sweeping a batch as a whole is part of a history too, and it succeeds. -/
theorem sweepPages {heap : Heap} {loose pages : List Page} {before after : List Load}
    (history : History id deeds ⟨heap, loose, before ++ Load.ofPages pages :: after⟩)
    (young : ∀ page ∈ pages, page.sweeps + 1 < Word.halfLimit) :
    ∃ outcome next load more, heap.sweepPages pages = (.ok outcome, next) ∧ load.left = [] ∧
      History id (deeds ++ more) ⟨next, loose, before ++ load :: after⟩ := by
  obtain ⟨swept, middle, more, all, empty, whole⟩ := history.sweepEach rfl young
  obtain ⟨data, first, _⟩ := whole.invariant.1.publish empty .data
  have published := whole.snoc (.publish .data empty)
  rw [first] at published
  dsimp only at published
  obtain ⟨pointer, second, _⟩ := (invariant published).1.publish (by exact empty) .pointer
  have last := published.snoc (.publish .pointer (by exact empty))
  rw [second] at last
  dsimp only at last
  have steps : heap.sweepPages pages = (.ok swept.batch.yielded, pointer) := by
    have left : (Load.ofPages pages).left = pages := rfl
    rw [left] at all
    rw [Load.sweepPages_eq, all]
    simp only [first, second]
    rfl
  rw [List.append_assoc, List.append_assoc] at last
  exact ⟨_, pointer, (swept.without .data).without .pointer, _, steps, empty, last⟩

end History

/-! A short history. -/

def samplePage (objects : List HeapObject) (top : Nat) : Page :=
  { id := ⟨0⟩, space := .data, objects, top, swept := false, sweeps := 0 }

def filledPage : Page := samplePage [⟨64, 24, false⟩, ⟨88, 104, true⟩] 192

def sampleDeeds : List Deed :=
  -- Two objects are put on a page and one of them is marked; the page is added, taken, swept
  -- and published; then the place of the other object is given out again.
  [.create (samplePage [] 64), .bump (samplePage [] 64) 20 (some 64),
    .bump (samplePage [⟨64, 24, false⟩] 88) 100 (some 88),
    .mark (samplePage [⟨64, 24, false⟩, ⟨88, 104, false⟩] 192) 88 true,
    .add filledPage (.ok ()), .take, .sweep filledPage (.ok ()), .publish .data (.ok ()),
    .allocate .data 10 (.ok (some ⟨.data, ⟨0⟩, 64⟩))]

def waitingHeap : Heap :=
  { id := ⟨0⟩
    spaces :=
      ⟨{ kind := .data, unswept := [filledPage], swept := [], free := .empty }, .fresh .pointer⟩
    totals := .zero
    nextPage := 1 }

def publishedHeap : Heap :=
  { id := ⟨0⟩
    spaces :=
      ⟨{ kind := .data
         unswept := []
         swept := [filledPage.renewed]
         free := ⟨[⟨⟨0⟩, 64, 24⟩], [⟨⟨0⟩, 192, 3904⟩], [], [], 3928, 0⟩ }, .fresh .pointer⟩
    totals := ⟨1, 3928, 0⟩
    nextPage := 1 }

def sampleHeap : Heap :=
  { id := ⟨0⟩
    spaces :=
      ⟨{ kind := .data
         unswept := []
         swept := [{ id := ⟨0⟩, space := .data, objects := [⟨64, 16, false⟩, ⟨88, 104, false⟩],
                     top := pageBytes, swept := true, sweeps := 1 }]
         free := ⟨[], [⟨⟨0⟩, 192, 3904⟩], [], [], 3904, 8⟩ }, .fresh .pointer⟩
    totals := ⟨1, 3928, 0⟩
    nextPage := 1 }

def sampleWorld : World :=
  { heap := sampleHeap
    loose := []
    loads := [⟨[], ⟨⟨.empty, .empty⟩, ⟨[], []⟩, ⟨1, 3928, 0⟩, ⟨1, 3928, 0, 3904⟩⟩⟩] }

theorem filledPage_marked :
    Edit (samplePage [⟨64, 24, false⟩, ⟨88, 104, false⟩] 192)
      (.mark (samplePage [⟨64, 24, false⟩, ⟨88, 104, false⟩] 192) 88 true) filledPage := by
  have marked : (samplePage [⟨64, 24, false⟩, ⟨88, 104, false⟩] 192).mark 88 =
      (true, filledPage) := by cbv
  have edit := Edit.mark (samplePage [⟨64, 24, false⟩, ⟨88, 104, false⟩] 192) 88
  rw [marked] at edit
  exact edit

theorem sampleWorld_allocated :
    Step { sampleWorld with heap := publishedHeap }
      (.allocate .data 10 (.ok (some ⟨.data, ⟨0⟩, 64⟩))) sampleWorld := by
  have served : publishedHeap.allocate .data 10 = (.ok (some ⟨.data, ⟨0⟩, 64⟩), sampleHeap) := by
    cbv
  have step : Step { sampleWorld with heap := publishedHeap } _ _ := .allocate .data 10
  dsimp only at step
  rw [served] at step
  exact step

theorem waitingHeap_history : History ⟨0⟩ (sampleDeeds.take 5) ⟨waitingHeap, [], []⟩ := by
  have created : History ⟨0⟩ _ _ := .snoc .nil (.create .data (by decide))
  have first : History ⟨0⟩ _ _ := .snoc created (@Step.editLoose _ [] [] _ _ _ _ (.bump _ 20))
  have second : History ⟨0⟩ _ _ := .snoc first (@Step.editLoose _ [] [] _ _ _ _ (.bump _ 100))
  have marked : History ⟨0⟩ _ _ := .snoc second (@Step.editLoose _ [] [] _ _ _ _ filledPage_marked)
  exact .snoc marked (@Step.add _ [] [] _ filledPage)

theorem sample_history : History ⟨0⟩ sampleDeeds sampleWorld := by
  have taken : History ⟨0⟩ _ _ := .snoc waitingHeap_history (.take [[filledPage]] (List.Perm.refl _))
  have swept : History ⟨0⟩ _ _ :=
    .snoc taken (@Step.sweep _ _ [] [] _ filledPage [] rfl (by decide))
  have published : History ⟨0⟩ _ _ := .snoc swept (@Step.publish _ _ [] [] _ .data rfl)
  exact .snoc published sampleWorld_allocated

end Reclaim
