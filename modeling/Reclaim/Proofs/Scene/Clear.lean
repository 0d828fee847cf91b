import Reclaim.Proofs.Scene.Opening

/-! Scenes with nothing on its way. Every page is with its space, and tells whether it has been
swept. -/

namespace Reclaim

namespace Scene

def Clear (scene : Scene) : Prop :=
  ∀ index, scene.pagesAt (.slot index) = [] ∧ scene.pagesAt (.hand index) = []

theorem Clear.of_all {scene : Scene}
    (slots : ∀ sweeper ∈ scene.coordinator.sweepers, sweeper.assignment.pages = [])
    (hands : ∀ load ∈ scene.hands, load.pages = []) : scene.Clear := by
  intro index
  constructor
  · cases found : scene.coordinator.sweepers[index]? with
    | none => simp only [pagesAt, found, Option.elim_none]
    | some sweeper =>
        simp only [pagesAt, found, Option.elim_some]
        exact slots sweeper (List.mem_of_getElem? found)
  · cases found : scene.hands[index]? with
    | none => simp only [pagesAt, found, Option.elim_none]
    | some load =>
        simp only [pagesAt, found, Option.elim_some]
        exact hands load (List.mem_of_getElem? found)

theorem Sound.at_heap {scene : Scene} (sound : scene.Sound) (clear : scene.Clear) {page : Page}
    (member : page ∈ scene.pages) :
    page ∈ (scene.heap.space page.space).unswept ∨ page ∈ (scene.heap.space page.space).swept := by
  obtain ⟨place, here⟩ := (mem_pages sound.hands_length).mp member
  cases place with
  | unswept kind =>
      rw [sound.kinds (Or.inl here)]
      exact Or.inl here
  | swept kind =>
      rw [sound.kinds (Or.inr here)]
      exact Or.inr here
  | slot index =>
      rw [(clear index).1] at here
      cases here
  | hand index =>
      rw [(clear index).2] at here
      cases here

theorem Run.swept_follows {first last : Scene} {acts : List Act} (run : Run first acts last)
    (sound : first.Sound) (young : ∀ act ∈ acts, act.Young)
    (cycle : ∀ act ∈ acts, act.isPrepare = false) {page : Page}
    (member : page ∈ acts.flatMap Act.sweeps) :
    ∃ held ∈ last.pages, page.renewed.Followed held := by
  obtain ⟨act, inside, swept⟩ := List.mem_flatMap.mp member
  obtain ⟨early, late, rfl⟩ := List.append_of_mem inside
  obtain ⟨scene, next, before, step, rest⟩ := run.at_event
  obtain ⟨youngBefore, later⟩ := List.forall_mem_append.mp young
  obtain ⟨here, youngLater⟩ := List.forall_mem_cons.mp later
  obtain ⟨_, nextSound, shift⟩ := step.sound (Run.sound before sound youngBefore).2 here
  have renewed := (shift.sweeps.2 page swept).2.2
  exact Run.follows rest nextSound youngLater (fun act member => cycle act (by simp [member])) renewed

theorem Sound.rest {scene : Scene} (sound : scene.Sound)
    (running : scene.coordinator.stopped = false) (rest : scene.coordinator.inProgress = false) :
    scene.Clear := by
  have team := sound.staffed.team
  rw [running] at team
  obtain ⟨slots, hands, _⟩ := team.rest (Coordinator.inProgress_false.mp rest)
  exact .of_all slots hands

/-- When a new cycle begins while no round is started, every page waits again. -/
theorem Run.recycled {first last : Scene} {acts : List Act} (run : Run first acts last)
    (sound : first.Sound) (young : ∀ act ∈ acts, act.Young)
    (quiet : ∀ act ∈ acts, act.isStart = false) (running : last.coordinator.stopped = false)
    (again : ∃ act ∈ acts, act.isPrepare = true) {page : Page}
    (member : page.owner ∈ first.pages.map Page.owner) :
    page.id ∈ (last.heap.space page.space).unswept.map (·.id) := by
  obtain ⟨act, inside, prepares⟩ := again
  obtain ⟨early, late, rfl⟩ := List.append_of_mem inside
  obtain ⟨scene, next, before, step, rest⟩ := run.at_event
  obtain ⟨youngBefore, later⟩ := List.forall_mem_append.mp young
  obtain ⟨here, youngLater⟩ := List.forall_mem_cons.mp later
  have sceneSound := (Run.sound before sound youngBefore).2
  obtain ⟨_, nextSound, _⟩ := step.sound sceneSound here
  have begun := step.running sceneSound here (Run.running rest nextSound youngLater running)
  have there : page.owner ∈ scene.pages.map Page.owner := by
    refine (Run.owners before sound youngBefore).mem_iff.mpr ?_
    rw [List.map_append]
    exact List.mem_append_right _ member
  obtain ⟨held, found, same⟩ := List.mem_map.mp there
  have name : held.id = page.id := congrArg Prod.fst same
  have kind : held.space = page.space := congrArg Prod.snd same
  refine Run.waiting rest nextSound youngLater (fun act member => quiet act (by simp [member])) _ ?_
  cases step with
  | @prepare coordinator hands idle =>
      have waits := sceneSound.at_heap (sceneSound.rest begun idle) found
      have recycled : ((Scene.mk (coordinator.withHeap coordinator.site.heap.prepare) hands
          .free).heap.space page.space).unswept =
          (coordinator.site.heap.space page.space).unswept ++
            (coordinator.site.heap.space page.space).swept.map Page.markUnswept :=
        congrArg PagedSpace.unswept (Heap.space_prepare _ _)
      rw [kind] at waits
      rw [recycled, List.map_append, ← name]
      rcases waits with unswept | swept
      · exact List.mem_append_left _ (List.mem_map_of_mem unswept)
      · refine List.mem_append_right _ ?_
        rw [List.map_map]
        exact List.mem_map.mpr ⟨held, swept, rfl⟩
  | _ => cases prepares

theorem Run.swept_pages {threads : Nat} {opened acts : List Act} {whole : List Page}
    {opening last : Scene} (run : Run opening acts last)
    (begun : Opened threads opened whole opening) (young : ∀ act ∈ acts, act.Young)
    (cycle : ∀ act ∈ acts, act.isPrepare = false) (clear : last.Clear) {page : Page}
    (member : page ∈ opened.flatMap Act.sweeps ++ acts.flatMap Act.sweeps) :
    ∃ held ∈ (last.heap.space page.space).swept,
      held.id = page.id ∧ held.sweeps = page.sweeps + 1 := by
  obtain ⟨held, inside, followed⟩ : ∃ held ∈ last.pages, page.renewed.Followed held := by
    rcases List.mem_append.mp member with here | later
    · exact run.follows begun.sound young cycle (begun.swept page here)
    · exact run.swept_follows begun.sound young cycle later
  have sound := (run.sound begun.sound young).2
  have done : held.swept = true := followed.swept (Page.renewed_swept page)
  have kind : held.space = page.space := congrArg Prod.snd followed.owner
  have once := followed.once
  rw [if_pos done, if_pos (Page.renewed_swept page)] at once
  refine ⟨held, ?_, congrArg Prod.fst followed.owner, once⟩
  rcases sound.at_heap clear inside with waits | swept
  · have unswept := ((sound.world.heap.space held.space).waiting held waits).2
    rw [done] at unswept
    cases unswept
  · rwa [kind] at swept

end Scene

end Reclaim
