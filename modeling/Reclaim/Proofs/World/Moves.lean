import Reclaim.Proofs.Sweeper.Dues
import Reclaim.Proofs.World.Basic

/-! Chores of a sweeper in a sound world. What waits in its slot and what it has in hand are loads on
their way to the heap; a chore moves pages between these places or sweeps one of them, so the world
stays sound and nothing faults. -/

namespace Reclaim

def Page.owner (page : Page) : PageId × SpaceKind := (page.id, page.space)

structure Page.Followed (page later : Page) : Prop where
  owner : later.owner = page.owner
  sweeps : page.sweeps ≤ later.sweeps
  once : later.sweeps + (if later.swept then 0 else 1) =
    page.sweeps + if page.swept then 0 else 1

namespace Page

theorem Followed.refl (page : Page) : page.Followed page := ⟨rfl, Nat.le_refl _, rfl⟩

theorem Followed.trans {page later last : Page} (first : page.Followed later)
    (second : later.Followed last) : page.Followed last :=
  ⟨second.owner.trans first.owner, Nat.le_trans first.sweeps second.sweeps,
    second.once.trans first.once⟩

theorem Followed.swept {page later : Page} (followed : page.Followed later)
    (swept : page.swept = true) : later.swept = true := by
  have sweeps := followed.sweeps
  have once := followed.once
  rw [if_pos swept] at once
  by_contra unswept
  rw [if_neg unswept] at once
  omega

theorem followed_renewed {page : Page} (unswept : page.swept = false) :
    page.Followed page.renewed := by
  refine ⟨rfl, Nat.le_succ _, ?_⟩
  simp [renewed, retained, unswept]

end Page

structure Advanced (before after : List Page) : Prop where
  owners : (after.map Page.owner).Perm (before.map Page.owner)
  follows : ∀ page ∈ before, ∃ later ∈ after, page.Followed later

namespace Advanced

variable {before after : List Page}

theorem ids (advanced : Advanced before after) :
    (after.map (·.id)).Perm (before.map (·.id)) := by
  have names := advanced.owners.map Prod.fst
  rwa [List.map_map, List.map_map] at names

theorem of_perm (same : after.Perm before) : Advanced before after where
  owners := same.map _
  follows page member := ⟨page, same.mem_iff.mpr member, .refl page⟩

theorem of_turned {page edited : Page} (turned : Turned page edited before after)
    (followed : page.Followed edited) : Advanced before after where
  owners := turned.map Page.owner followed.owner
  follows other member := by
    obtain ⟨rest, old, new⟩ := turned
    rcases List.mem_cons.mp (old.mem_iff.mp member) with rfl | inRest
    · exact ⟨edited, new.mem_iff.mpr (by simp), followed⟩
    · exact ⟨other, new.mem_iff.mpr (by simp [inRest]), .refl other⟩

theorem of_renewed {pages others : List Page} (unswept : ∀ page ∈ pages, page.swept = false)
    (old : before.Perm (pages ++ others)) (new : after.Perm (pages.map Page.renewed ++ others)) :
    Advanced before after where
  owners := by
    have owners : (pages.map Page.renewed).map Page.owner = pages.map Page.owner := by
      rw [List.map_map]
      rfl
    refine (new.map _).trans (List.Perm.trans ?_ (old.map _).symm)
    rw [List.map_append, owners, ← List.map_append]
  follows page member := by
    rcases List.mem_append.mp (old.mem_iff.mp member) with swept | other
    · refine ⟨page.renewed, new.mem_iff.mpr ?_, Page.followed_renewed (unswept page swept)⟩
      exact List.mem_append_left _ (List.mem_map_of_mem swept)
    · exact ⟨page, new.mem_iff.mpr (List.mem_append_right _ other), .refl page⟩

end Advanced

namespace World.Sound

variable {heap : Heap} {loose : List Page} {before after : List Load} {load : Load}

theorem regular (sound : (World.mk heap loose (before ++ load :: after)).Sound) : load.Regular heap :=
  fun _ _ first young => (World.Sound.sweep sound first young).1

theorem unpack {pages : List Page}
    (sound : (World.mk heap loose (before ++ .ofPages pages :: load :: after)).Sound)
    (empty : load.pages = []) :
    (World.mk heap loose (before ++ .ofPages [] :: .ofPages pages :: after)).Sound ∧
      (World.mk heap loose (before ++ .ofPages [] :: .ofPages pages :: after)).pages.Perm
        (World.mk heap loose (before ++ .ofPages pages :: load :: after)).pages := by
  have same : (World.mk heap loose (before ++ .ofPages [] :: .ofPages pages :: after)).pages.Perm
      (World.mk heap loose (before ++ .ofPages pages :: load :: after)).pages := by
    refine List.perm_iff_count.mpr fun page => ?_
    simp only [World.pages, List.flatMap_append, List.flatMap_cons, Load.ofPages_pages, empty,
      List.count_append, List.count_nil]
    omega
  refine ⟨sound.moved same sound.heap sound.loose ?_, same⟩
  intro member inside
  simp only [List.mem_append, List.mem_cons] at inside
  rcases inside with inBefore | rfl | rfl | inAfter
  · exact sound.loads member (by simp [inBefore])
  · exact Load.ofPages_sound (by simp)
  · exact sound.loads _ (by simp)
  · exact sound.loads member (by simp [inAfter])

end World.Sound

namespace Move

variable {stop : Bool} {sweeper next : Sweeper} {load taken : Load} {site later : Site}
  {chore : Chore} {loose : List Page} {before after : List Load}

theorem world (move : Move stop sweeper load site chore next taken later)
    (young : ∀ page ∈ chore.sweeps, page.sweeps + 1 < Word.halfLimit)
    (shake : Handshake stop sweeper load) {old : World} (sound : old.Sound)
    (parts : old =
      ⟨site.heap, loose, before ++ .ofPages sweeper.assignment.pages :: load :: after⟩) :
    chore.fault? = none ∧ ∃ new : World, new =
        ⟨later.heap, loose, before ++ .ofPages next.assignment.pages :: taken :: after⟩ ∧
      new.Sound ∧ Advanced old.pages new.pages ∧
      ((chore.sweeps.map (·.id)).Nodup ∧ ∀ page ∈ chore.sweeps,
        page ∈ old.pages ∧ page.swept = false ∧ page.renewed ∈ new.pages) ∧
      (∀ kind, (later.heap.space kind).unswept = (site.heap.space kind).unswept) ∧
      later.heap.nextPage = site.heap.nextPage := by
  subst parts
  have shifted (other : Load) : before ++ Load.ofPages sweeper.assignment.pages :: other :: after =
      (before ++ [.ofPages sweeper.assignment.pages]) ++ other :: after := by simp
  have still {other : Sweeper} (same : other.assignment = sweeper.assignment)
      (idle : chore.sweeps = []) :
      ∃ new : World, new =
          ⟨site.heap, loose, before ++ .ofPages other.assignment.pages :: load :: after⟩ ∧
        new.Sound ∧ Advanced (World.mk site.heap loose
          (before ++ .ofPages sweeper.assignment.pages :: load :: after)).pages new.pages ∧
        ((chore.sweeps.map (·.id)).Nodup ∧ ∀ page ∈ chore.sweeps, page ∈ (World.mk site.heap loose
          (before ++ .ofPages sweeper.assignment.pages :: load :: after)).pages ∧
          page.swept = false ∧ page.renewed ∈ new.pages) ∧
        (∀ kind, (site.heap.space kind).unswept = (site.heap.space kind).unswept) ∧
        site.heap.nextPage = site.heap.nextPage := by
    rw [same, idle]
    exact ⟨_, rfl, sound, .of_perm (List.Perm.refl _), by simp, fun _ => rfl, rfl⟩
  cases move with
  | wake taken =>
      obtain ⟨_, _, rfl⟩ := Sweeper.takePermit?_some taken
      exact ⟨rfl, still rfl rfl⟩
  | heed phase => exact ⟨rfl, still (by simp only [Sweeper.heed, phase]) rfl⟩
  | take phase =>
      simp only [Sweeper.takeBatch, phase]
      obtain ⟨unpacked, same⟩ := sound.unpack (shake.hand (by rw [phase]; rfl))
      exact ⟨rfl, _, rfl, unpacked, .of_perm same, by simp [Chore.sweeps], fun _ => rfl, rfl⟩
  | @sweep _ _ _ page left phase first =>
      rw [shifted] at sound ⊢
      obtain ⟨done, unswept, nextSound, turned⟩ :=
        World.Sound.sweep sound first (young page (by simp [Chore.sweeps]))
      rw [done]
      have endured : sweeper.endure (.ok ()) = sweeper := rfl
      simp only [endured, shifted]
      refine ⟨rfl, _, rfl, nextSound, .of_turned turned (Page.followed_renewed unswept),
        ⟨by simp [Chore.sweeps], fun other member => ?_⟩, fun _ => rfl, trivial⟩
      obtain rfl := List.mem_singleton.mp member
      exact ⟨turned.mem.1, unswept, turned.mem.2⟩
  | publish kind phase done some =>
      rw [shifted] at sound ⊢
      obtain ⟨published, joined, number, waiting, nextSound, moves⟩ :=
        World.Sound.publish sound done kind
      rw [joined]
      have endured : sweeper.endure (.ok ()) = sweeper := rfl
      simp only [endured, shifted]
      exact ⟨rfl, _, rfl, nextSound, .of_perm moves, by simp [Chore.sweeps], waiting, number⟩
  | conclude phase done =>
      exact ⟨rfl, still (by simp only [Sweeper.concludeBatch, phase]) rfl⟩
  | leave phase => exact ⟨rfl, still (by simp only [Sweeper.leaveOutcome, phase]) rfl⟩
  | signal phase => exact ⟨rfl, still (by simp only [Sweeper.signalEnd, phase]) rfl⟩
  | acknowledge phase => exact ⟨rfl, still (by simp only [Sweeper.acknowledge, phase]) rfl⟩

end Move

end Reclaim
