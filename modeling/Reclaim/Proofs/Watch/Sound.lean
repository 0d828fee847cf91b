import Reclaim.Proofs.Batches
import Reclaim.Proofs.Watch.Order
import Reclaim.Proofs.World.Moves

/-! A watch stays sound. The pages that a start has yet to deal out, those in the slots and those in the
hands of the sweepers are loads on their way to the heap; so a watch has a world, and no step of
anybody faults, nor does an assertion of a start ever fail. -/

namespace Reclaim

namespace World

variable {heap : Heap} {loose : List Page} {loads others : List Load}

theorem Sound.shuffle (sound : (World.mk heap loose loads).Sound) (same : others.Perm loads) :
    (World.mk heap loose others).Sound ∧
      (World.mk heap loose others).pages.Perm (World.mk heap loose loads).pages := by
  have moved : (World.mk heap loose others).pages.Perm (World.mk heap loose loads).pages :=
    ((same.flatMap_right _).append_left _).append_left _
  exact ⟨sound.moved moved sound.heap sound.loose fun load member =>
    sound.loads load (same.mem_iff.mp member), moved⟩

end World

theorem Step.loads_eq {world next : World} {deed : Deed} (step : Reclaim.Step world deed next)
    (client : deed.byClient = true) : next.loads = world.loads := by
  cases step with
  | editLoose edit | add | create | editUnswept | allocate | prepare => rfl
  | take | restore | sweep | publish => cases client

namespace Berth

variable {berth next : Berth} {site later : Site} {happening : Happening}

theorem Attend.frame (attend : berth.Attend happening next) :
    next.loads = berth.loads ∧ happening.fault? = none ∧ happening.launches = false := by
  cases attend
  case acquire acquired | borrow acquired =>
    obtain ⟨_, rfl⟩ := Sweeper.acquireEnd?_some acquired
    exact ⟨rfl, rfl, rfl⟩
  all_goals exact ⟨rfl, rfl, rfl⟩

theorem Launching.loads (launching : berth.Launching happening next) (ordered : berth.Ordered) :
    next.loads.Perm berth.loads := by
  obtain ⟨sweeper, load, launch, queued, waiter, polls, poller⟩ := berth
  cases launching <;> dsimp only at *
  case fill stage accepted =>
    subst stage
    obtain ⟨_, _, _, _, _, _, empty, _⟩ := Order.pledged ordered
    obtain rfl := Order.assigned ordered accepted
    dsimp only at empty
    simp only [Berth.loads, pledged, empty]
    exact List.Perm.swap _ _ _
  case renew stage | fly stage _ | nudge stage =>
    subst stage
    exact List.Perm.refl _

end Berth

namespace Watch

variable {watch next : Watch} {moment : Moment} {moments : List Moment}

structure Sound (watch : Watch) : Prop where
  ordered : ∀ berth ∈ watch.berths, berth.Ordered
  world : watch.world.Sound
  numbered : watch.world.Numbered

theorem loadsOf_middle (early late : List Berth) (berth : Berth) :
    loadsOf (early ++ berth :: late) = loadsOf early ++ (berth.loads ++ loadsOf late) := by
  simp [loadsOf]

theorem loadsOf_hand (early late : List Berth) (berth : Berth) :
    loadsOf (early ++ berth :: late) =
      (loadsOf early ++ [.ofPages berth.pledged]) ++
        .ofPages berth.sweeper.assignment.pages :: berth.load :: loadsOf late := by
  simp [loadsOf, Berth.loads]

theorem loadsOf_pledged {berths : List Berth} {parts : List (List Page)} (round : Nat)
    (rest : ∀ berth ∈ berths, berth.Resting) (same : parts.length = berths.length) :
    let pledged := loadsOf (List.zipWith (fun berth part =>
      ({ berth with launch := some (.fill ⟨round, part⟩) } : Berth)) berths parts)
    (pledged.flatMap Load.pages).Perm (parts.flatten ++ (loadsOf berths).flatMap Load.pages) ∧
      ∀ load ∈ pledged, load ∈ loadsOf berths ∨ ∃ part ∈ parts, load = .ofPages part := by
  induction berths generalizing parts with
  | nil =>
      obtain rfl := List.eq_nil_of_length_eq_zero same
      exact ⟨List.Perm.refl _, nofun⟩
  | cons berth berths ih =>
      cases parts with
      | nil => cases same
      | cons part parts =>
          obtain ⟨parted, members⟩ := ih (fun other member => rest other (by simp [member]))
            (by simpa using same)
          have none := (rest berth (by simp)).unlaunched
          constructor
          · refine List.perm_iff_count.mpr fun page => ?_
            have counted := List.perm_iff_count.mp parted page
            simp only [loadsOf, List.zipWith_cons_cons, List.flatMap_cons, List.flatMap_append,
              Berth.loads, Berth.pledged, none, Load.ofPages_pages, List.flatten_cons,
              List.count_append, List.flatMap_nil, List.count_nil] at counted ⊢
            omega
          · intro load member
            simp only [loadsOf, List.zipWith_cons_cons, List.flatMap_cons, List.mem_append] at member
            rcases member with here | later
            · simp only [Berth.loads, Berth.pledged, List.mem_cons, List.not_mem_nil,
                or_false] at here
              rcases here with rfl | rfl | rfl
              · exact Or.inr ⟨part, by simp, rfl⟩
              · exact Or.inl (by simp [loadsOf, Berth.loads])
              · exact Or.inl (by simp [loadsOf, Berth.loads])
            · rcases members load later with old | ⟨other, inside, rfl⟩
              · exact Or.inl (by
                  rw [loadsOf, List.flatMap_cons]
                  exact List.mem_append_right _ old)
              · exact Or.inr ⟨other, by simp [inside], rfl⟩

namespace Sound

variable {early late : List Berth} {berth after : Berth} {site later : Site} {loose : List Page}

theorem replace (sound : (Watch.mk (early ++ berth :: late) site loose).Sound)
    (ordered : after.Ordered) (loads : after.loads.Perm berth.loads) :
    (Watch.mk (early ++ after :: late) site loose).Sound := by
  have same : (loadsOf (early ++ after :: late)).Perm (loadsOf (early ++ berth :: late)) := by
    rw [loadsOf_middle, loadsOf_middle]
    exact (loads.append_right _).append_left _
  obtain ⟨world, moved⟩ := World.Sound.shuffle sound.world same
  refine ⟨?_, world, sound.numbered.of_ids (moved.map _) rfl⟩
  obtain ⟨front, _, back⟩ := forall_mem_middle.mp sound.ordered
  exact forall_mem_middle.mpr ⟨front, ordered, back⟩

theorem at_berth (sound : (Watch.mk (early ++ berth :: late) site loose).Sound) : berth.Ordered :=
  (forall_mem_middle.mp sound.ordered).2.1

theorem regular (sound : (Watch.mk (early ++ berth :: late) site loose).Sound) :
    berth.load.Regular site.heap := by
  have split : loadsOf (early ++ berth :: late) = (loadsOf early ++ [.ofPages berth.pledged,
      .ofPages berth.sweeper.assignment.pages]) ++ berth.load :: loadsOf late := by
    simp [loadsOf, Berth.loads]
  have whole := sound.world
  rw [Watch.world, split] at whole
  exact whole.regular

theorem chore {next : Sweeper} {taken : Load} {work : Chore}
    (sound : (Watch.mk (early ++ berth :: late) site loose).Sound)
    (move : Move false berth.sweeper berth.load site work next taken later)
    (young : ∀ page ∈ work.sweeps, page.sweeps + 1 < Word.halfLimit) :
    work.fault? = none ∧
      (Watch.mk (early ++ { berth with sweeper := next, load := taken } :: late) later loose).Sound := by
  have ordered := sound.at_berth
  obtain ⟨_, _, _, _, _, _, shake⟩ := Order.working ordered move.working
  have split : (Watch.mk (early ++ berth :: late) site loose).world =
      ⟨site.heap, loose, _⟩ := congrArg (World.mk site.heap loose) (loadsOf_hand early late berth)
  obtain ⟨calm, new, parts, world, advanced, _, _, number⟩ :=
    move.world young shake sound.world split
  have whole : (Watch.mk (early ++ { berth with sweeper := next, load := taken } :: late) later
      loose).world = new := by
    rw [parts, Watch.world, loadsOf_hand]
    rfl
  refine ⟨calm, ?_, ?_, ?_⟩
  · obtain ⟨front, _, back⟩ := forall_mem_middle.mp sound.ordered
    exact forall_mem_middle.mpr ⟨front, Order.chore ordered move calm, back⟩
  · rw [whole]
    exact world
  · rw [whole]
    refine sound.numbered.of_ids advanced.ids ?_
    rw [parts]
    exact number

theorem start {parts : List (List Page)} (sound : watch.Sound)
    (rest : ∀ berth ∈ watch.berths, berth.Resting)
    (parted : batches watch.site.heap.takeUnswept.1 watch.berths.length = .ok parts) :
    (Watch.mk
      (List.zipWith (fun berth part =>
        { berth with launch := some (.fill ⟨watch.site.nextRound, part⟩) }) watch.berths parts)
      { watch.site with
        heap := watch.site.heap.takeUnswept.2
        nextRound := Word.wrappingAdd watch.site.nextRound 1 } watch.loose).Sound := by
  obtain ⟨flat, same⟩ := batches_some parted
  obtain ⟨pages, members⟩ := loadsOf_pledged watch.site.nextRound rest same
  have waiting := (sound.world.heap.takeUnswept).2.2
  rw [flat] at pages
  obtain ⟨world, moved⟩ := World.Sound.take sound.world _ (by
    intro load member
    rcases members load member with old | ⟨part, inside, rfl⟩
    · exact sound.world.loads load old
    · exact Load.ofPages_sound fun page found =>
        waiting page (flat ▸ List.mem_flatten_of_mem inside found)) pages
  refine ⟨?_, world, sound.numbered.of_ids (moved.map _) rfl⟩
  intro after member
  obtain ⟨index, known, rfl⟩ := List.getElem_of_mem member
  rw [List.getElem_zipWith]
  have inside := List.getElem_mem (l := watch.berths) (n := index) (by simp at known; omega)
  exact (rest _ inside).ordered (sound.ordered _ inside) _

end Sound

/-- No step faults, and no assertion of a start fails. -/
theorem Step.sound (step : Step watch moment next) (sound : watch.Sound) (young : moment.Young) :
    moment.fault? = none ∧ next.Sound := by
  cases step with
  | here step inOrder =>
      have ordered := sound.at_berth
      cases step with
      | chore move => exact sound.chore move young
      | attend attend =>
          obtain ⟨loads, calm, _⟩ := attend.frame
          exact ⟨calm, sound.replace (attend.ordered ordered) (.of_eq loads)⟩
      | launching launching =>
          refine ⟨?_, sound.replace (launching.ordered ordered) (launching.loads ordered)⟩
          cases launching <;> rfl
  | start rest parted => exact ⟨rfl, sound.start rest parted⟩
  | refuse inOrder refused =>
      rw [sound.at_berth.accepted] at refused
      cases refused
  | @deed watch deed world step client =>
      obtain ⟨nextSound, numbered, calm, _⟩ := Reclaim.Step.sound step sound.world sound.numbered
      have whole : (Watch.mk watch.berths { watch.site with heap := world.heap } world.loose).world =
          world := by
        rw [Watch.world, ← show world.loads = loadsOf watch.berths from step.loads_eq client]
      exact ⟨calm, sound.ordered, whole ▸ nextSound, whole ▸ numbered⟩
  | @books watch later same =>
      have whole : (Watch.mk watch.berths later watch.loose).world = watch.world := by
        simp only [Watch.world, same]
      exact ⟨rfl, sound.ordered, whole ▸ sound.world, whole ▸ sound.numbered⟩

theorem opened_sound {id : HeapId} {deeds : List Deed} {site : Site} {loose : List Page}
    (history : History id deeds ⟨site.heap, loose, []⟩) (threads : Nat) :
    (opened site loose threads).Sound := by
  obtain ⟨sound, numbered⟩ := history.invariant
  have empty : ∀ load ∈ loadsOf ((List.range threads).map Berth.fresh), load = .ofPages [] := by
    intro load member
    obtain ⟨berth, inside, here⟩ := List.mem_flatMap.mp member
    obtain ⟨index, _, rfl⟩ := List.mem_map.mp inside
    simpa [Berth.loads, Berth.pledged, Berth.fresh, Sweeper.fresh, Assignment.none] using here
  have same : (opened site loose threads).world.pages = (World.mk site.heap loose []).pages := by
    have none : (loadsOf ((List.range threads).map Berth.fresh)).flatMap Load.pages = [] :=
      List.flatMap_eq_nil_iff.mpr fun load member => by
        rw [empty load member]
        rfl
    simp only [World.pages, Watch.world, opened, none]
    rfl
  refine ⟨?_, ?_, numbered.of_ids (.of_eq (congrArg _ same)) rfl⟩
  · intro berth member
    obtain ⟨index, _, rfl⟩ := List.mem_map.mp member
    exact Berth.fresh_ordered index
  · refine sound.moved (.of_eq same) sound.heap sound.loose fun load member => ?_
    rw [empty load member]
    exact Load.ofPages_sound (by simp)

theorem Run.sound {first : Watch} (run : Run first moments watch) (sound : first.Sound)
    (young : ∀ moment ∈ moments, moment.Young) :
    (∀ moment ∈ moments, moment.fault? = none) ∧ watch.Sound :=
  run.keeps_while Watch.Sound sound young fun step youth kept => step.sound kept youth

end Watch

end Reclaim
