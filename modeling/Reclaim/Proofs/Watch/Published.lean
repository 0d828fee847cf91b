import Reclaim.Proofs.Watch.Rounds

/-! Where the pages of a round are. A page of a batch is in the slot, in the hands of its sweeper, or with
the swept pages of the heap; it leaves the slot and the hands only for the heap, and nothing but a new
cycle takes it from there. -/

namespace Reclaim

def Heap.published (heap : Heap) : List Page :=
  (heap.space .data).swept ++ (heap.space .pointer).swept

theorem Heap.published_unswept (heap : Heap) (kind : SpaceKind) (unswept : List Page) :
    (heap.setSpace kind { heap.space kind with unswept }).published = heap.published := by
  cases kind <;> rfl

namespace World

variable {heap later : Heap} {loose : List Page} {loads others : List Load}

theorem published_perm (before after : List Load) {held taken : List Page}
    (same : ((World.mk later loose others).pages.map (·.id)).Perm
      ((World.mk heap loose loads).pages.map (·.id)))
    (unswept : ∀ kind, (later.space kind).unswept.map (·.id) = (heap.space kind).unswept.map (·.id))
    (old : (loads.flatMap Load.pages).Perm (held ++ (before ++ after).flatMap Load.pages))
    (new : (others.flatMap Load.pages).Perm (taken ++ (before ++ after).flatMap Load.pages)) :
    ((later.published ++ taken).map (·.id)).Perm ((heap.published ++ held).map (·.id)) := by
  refine List.perm_iff_count.mpr fun id => ?_
  have whole := List.perm_iff_count.mp same id
  have data := congrArg (List.count id) (unswept .data)
  have pointer := congrArg (List.count id) (unswept .pointer)
  have loaded := List.perm_iff_count.mp (old.map (·.id)) id
  have unloaded := List.perm_iff_count.mp (new.map (·.id)) id
  simp only [pages, Heap.pages, PagedSpace.pages, Heap.published, List.map_append,
    List.count_append] at whole loaded unloaded ⊢
  omega

theorem published_grown (same : ((World.mk later loose others).pages.map (·.id)).Perm
      ((World.mk heap loose loads).pages.map (·.id)))
    (unswept : ∀ kind, (later.space kind).unswept.map (·.id) = (heap.space kind).unswept.map (·.id))
    (fewer : ∀ id, ((others.flatMap Load.pages).map (·.id)).count id ≤
      ((loads.flatMap Load.pages).map (·.id)).count id) :
    heap.published.map (·.id) ⊆ later.published.map (·.id) := by
  intro id member
  have whole := List.perm_iff_count.mp same id
  have data := congrArg (List.count id) (unswept .data)
  have pointer := congrArg (List.count id) (unswept .pointer)
  have fewer := fewer id
  rw [← List.count_pos_iff] at member ⊢
  simp only [pages, Heap.pages, PagedSpace.pages, Heap.published, List.map_append,
    List.count_append] at whole member ⊢
  omega

end World

def Sweeper.held (sweeper : Sweeper) (load : Load) : List Page :=
  sweeper.assignment.pages ++ load.pages

theorem Move.published {stop : Bool} {sweeper next : Sweeper} {load taken : Load}
    {site later : Site} {chore : Chore} {loose : List Page} {before after : List Load}
    (move : Move stop sweeper load site chore next taken later)
    (young : ∀ page ∈ chore.sweeps, page.sweeps + 1 < Word.halfLimit)
    (shake : Handshake stop sweeper load)
    (sound : (World.mk site.heap loose
      (before ++ .ofPages sweeper.assignment.pages :: load :: after)).Sound) :
    site.heap.published.map (·.id) ⊆ later.heap.published.map (·.id) ∧
      ((later.heap.published ++ next.held taken).map (·.id)).Perm
        ((site.heap.published ++ sweeper.held load).map (·.id)) := by
  obtain ⟨calm, new, parts, _, advanced, _, waiting, _⟩ := move.world young shake sound rfl
  subst parts
  constructor
  · have shifted : (World.mk site.heap loose
        ((before ++ [.ofPages sweeper.assignment.pages]) ++ load :: after)).Sound := by
      rwa [List.append_assoc, List.singleton_append]
    cases move with
    | sweep phase first =>
        rw [shifted.regular _ _ first (young _ (by simp [Chore.sweeps]))]
        exact List.Subset.refl _
    | publish kind phase done some =>
        obtain ⟨heap, joined, _, unswept, _, moved⟩ := shifted.publish done kind
        rw [joined]
        refine World.published_grown (moved.map _) (fun kind => congrArg _ (unswept kind))
          fun id => ?_
        have parted := List.perm_iff_count.mp ((load.without_pages_perm kind).map (·.id)) id
        simp only [List.flatMap_append, List.flatMap_cons, List.map_append,
          List.count_append] at parted ⊢
        omega
    | _ => exact List.Subset.refl _
  · refine World.published_perm before after advanced.ids
      (fun kind => congrArg _ (waiting kind)) ?_ ?_
    · refine List.perm_iff_count.mpr fun page => ?_
      simp only [Sweeper.held, List.flatMap_append, List.flatMap_cons, Load.ofPages_pages,
        List.count_append]
      omega
    · refine List.perm_iff_count.mpr fun page => ?_
      simp only [Sweeper.held, List.flatMap_append, List.flatMap_cons, Load.ofPages_pages,
        List.count_append]
      omega

/-- Clients leave published pages where they are, as long as they begin no new cycle. -/
theorem Step.published {world next : World} {deed : Deed} (step : Reclaim.Step world deed next)
    (sound : world.Sound) (client : deed.byClient = true) (same : deed ≠ .prepare) :
    world.heap.published.map (·.id) ⊆ next.heap.published.map (·.id) := by
  cases step with
  | create | editLoose => exact List.Subset.refl _
  | editUnswept =>
      dsimp only
      rw [Heap.published_unswept]
      exact List.Subset.refl _
  | add page =>
      rw [Heap.addPage_eq sound.heap page]
      simp only [Except.toOption, Option.getD_some, Heap.published_unswept]
      exact List.Subset.refl _
  | allocate kind request =>
      rcases World.Sound.allocate sound kind request with
        refused | ⟨_, _, _, served, found, _, _, _, unswept, _, turned⟩
      · rw [refused]
        exact List.Subset.refl _
      · rw [found]
        exact World.published_grown (turned.map (·.id) rfl) (fun kind => congrArg _ (unswept kind))
          fun _ => Nat.le_refl _
  | prepare => exact absurd rfl same
  | take | restore | sweep | publish => cases client

namespace Berth

variable {berth after : Berth} {site later : Site} {happening : Happening}

def held (berth : Berth) : List PageId := (berth.sweeper.held berth.load).map (·.id)

theorem Attend.held (attend : berth.Attend happening after) : after.held = berth.held := by
  obtain ⟨_, load, _, assignment, _⟩ := attend.kept
  simp only [Berth.held, Sweeper.held, load, assignment]

theorem Launching.held (launching : berth.Launching happening after) (ordered : berth.Ordered) :
    berth.held ⊆ after.held := by
  cases launching
  case fill batch assigned stage accepted =>
    obtain ⟨_, _, _, _, _, _, empty, hand⟩ := (ordered.at_stage stage).pledged
    simp [Berth.held, Sweeper.held, empty, hand]
  all_goals exact List.Subset.refl _

theorem Step.published {early late : List Berth} {loose : List Page}
    (step : berth.Step site happening after later)
    (young : ∀ page ∈ happening.sweeps, page.sweeps + 1 < Word.halfLimit)
    (sound : (Watch.mk (early ++ berth :: late) site loose).Sound) :
    site.heap.published.map (·.id) ⊆ later.heap.published.map (·.id) ∧
      berth.held ⊆ later.heap.published.map (·.id) ++ after.held := by
  have ordered := sound.at_berth
  cases step with
  | chore move =>
      obtain ⟨_, _, _, _, _, _, shake⟩ := Order.working ordered move.working
      have whole := sound.world
      rw [Watch.world, Watch.loadsOf_hand] at whole
      obtain ⟨grown, moved⟩ := move.published young shake whole
      refine ⟨grown, fun id member => ?_⟩
      rw [Berth.held, ← List.map_append, moved.mem_iff, List.map_append]
      exact List.mem_append_right _ member
  | attend attend =>
      rw [attend.held]
      exact ⟨List.Subset.refl _, List.subset_append_right _ _⟩
  | launching launching =>
      exact ⟨List.Subset.refl _,
        List.Subset.trans (launching.held ordered) (List.subset_append_right _ _)⟩

end Berth

namespace Watch

variable {watch next first : Watch} {moment : Moment} {moments more : List Moment} {index : Nat}
  {berth after : Berth}

def published (watch : Watch) : List PageId := watch.site.heap.published.map (·.id)

theorem Step.grown (step : Step watch moment next) (sound : watch.Sound) (young : moment.Young)
    (same : moment.isPrepare = false) : watch.published ⊆ next.published := by
  cases step with
  | here step _ => exact (step.published young sound).1
  | start | refuse => exact List.Subset.refl _
  | @deed watch deed world step client =>
      refine step.published sound.world client ?_
      rintro rfl
      cases same
  | books heap =>
      simp only [published, heap]
      exact List.Subset.refl _

theorem Step.delivers (step : Step watch moment next) (sound : watch.Sound) (young : moment.Young)
    (same : moment.isPrepare = false) (here : watch.berths[index]? = some berth)
    (there : next.berths[index]? = some after) :
    watch.published ++ berth.held ⊆ next.published ++ after.held := by
  refine List.append_subset.mpr
    ⟨List.Subset.trans (step.grown sound young same) (List.subset_append_left _ _), ?_⟩
  rcases step.at_index sound here with ⟨happening, other, rfl, found, inner, _⟩ |
    ⟨_, other, found, rfl | ⟨_, batch, rfl⟩⟩
  · obtain rfl := Option.some.inj (found.symm.trans there)
    obtain ⟨known, rfl⟩ := List.getElem?_eq_some_iff.mp here
    have split : watch.berths =
        watch.berths.take index ++ watch.berths[index] :: watch.berths.drop (index + 1) := by simp
    have whole : (Watch.mk (watch.berths.take index ++ watch.berths[index] ::
        watch.berths.drop (index + 1)) watch.site watch.loose).Sound := by
      rw [← split]
      exact sound
    exact (inner.published young whole).2
  · obtain rfl := Option.some.inj (found.symm.trans there)
    exact List.subset_append_right _ _
  · obtain rfl := Option.some.inj (found.symm.trans there)
    exact List.subset_append_right _ _

/-- Until a new cycle begins, every page of a batch is with its sweeper or in the heap. -/
theorem Run.delivers {batch : Assignment}
    (run : Run first (moments ++ .here index (.nudge batch) :: more) watch) (sound : first.Sound)
    (young : ∀ moment ∈ moments ++ .here index (.nudge batch) :: more, moment.Young)
    (same : ∀ moment ∈ more, moment.isPrepare = false) (there : watch.berths[index]? = some after) :
    batch.pages.map (·.id) ⊆ watch.published ++ after.held := by
  rw [List.append_cons] at run young
  obtain ⟨opened, earlier, later⟩ := run.split
  obtain ⟨started, before, nudge⟩ := earlier.last
  have kept := (Run.sound before sound fun moment member => young moment (by simp [member])).2
  have youth : ∀ moment ∈ more, moment.Young := fun moment member => young moment (by simp [member])
  have sure := (nudge.sound kept (young _ (by simp))).2
  obtain ⟨berth, _, _, rfl, here⟩ := nudge.nudged
  clear run young
  induction later generalizing after with
  | nil =>
      obtain rfl := Option.some.inj (here.symm.trans there)
      refine List.Subset.trans ?_ (List.subset_append_right _ _)
      rw [Berth.held, Sweeper.held, List.map_append]
      exact List.subset_append_left _ _
  | @snoc more moment watch next run step ih =>
      have fresh : ∀ moment ∈ more, moment.Young := fun moment member => youth moment (by simp [member])
      obtain ⟨middle, held⟩ := step.before there
      have earlier := ih (fun moment member => same moment (by simp [member])) held fresh
      exact List.Subset.trans earlier (step.delivers (Run.sound run sure fresh).2 (youth moment (by simp))
        (same moment (by simp)) held there)

end Watch

end Reclaim
