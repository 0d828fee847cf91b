import Reclaim.Proofs.Bureau.Basic
import Reclaim.Proofs.Floor.Schedule

/-! Calls that nobody interrupts. What the platform does in one go for a post, for the work of its pool and
for a shutdown is one run of the bureau. -/

namespace Reclaim

theorem Desk.join_cons (desk : Desk) (worker : WorkerState) (crew : Crew) :
    desk.join (worker :: crew) = (desk.join [worker]).join crew := by
  have count : Crew.dead (worker :: crew) = Crew.dead [worker] + Crew.dead crew :=
    Crew.dead_append [worker] crew
  rw [join, join, join, count, ← List.replicate_append_replicate, List.foldl_append]

theorem Platform.append_accepted (platform : Platform) (task : Task) :
    (platform.append task).1 = .accepted ↔ platform.desk.queue.answer task = .ok () := by
  cases terminated : platform.desk.queue.terminated with
  | false => simp [append, Desk.append_open terminated, TaskQueue.answer_open terminated]
  | true => simp [append, Desk.append_closed terminated, TaskQueue.answer_closed terminated]

namespace Bureau

variable {first bureau : Bureau} {beats : List Beat} {platform : Platform} {calls : List Request}
  {hands : List Hand}

theorem Run.post (run : Run first beats bureau) (task : Task) : ∃ more last answer, Run first more last ∧
    last.platform = (bureau.platform.postBackground .main task).2 ∧
    last.calls = bureau.calls ++ [.post task (.replied answer)] ∧
    ((bureau.platform.postBackground .main task).1 = .accepted ↔ answer = .ok ()) := by
  obtain ⟨platform, squads, calls⟩ := bureau
  have announced := run.snoc (.announce task)
  have ready := announced.snoc (.ready calls.length List.getElem?_concat_length)
  dsimp only at ready
  rw [set_concat_length] at ready
  have appended := ready.snoc (.append calls.length List.getElem?_concat_length)
  rw [set_concat_length] at appended
  refine ⟨_, _, _, appended, rfl, rfl, ?_⟩
  exact Platform.append_accepted _ task

theorem Run.works (platform : Platform) {now later : Desk × Squad} (works : Squad.Works now later)
    (run : Run first beats ⟨worked platform now.1 now.2, [now.2], calls⟩) :
    ∃ more, Run first more ⟨worked platform later.1 later.2, [later.2], calls⟩ := by
  induction works with
  | refl => exact ⟨beats, run⟩
  | @tail middle last _ labors ih =>
      obtain ⟨more, run⟩ := ih
      obtain ⟨_, _, _, step⟩ := labors
      have again : worked (worked platform middle.1 middle.2) last.1 last.2 =
          worked platform last.1 last.2 := by
        simp [worked, Function.comp_def]
      have step : Step ⟨worked platform middle.1 middle.2, [middle.2], calls⟩ _
          ⟨worked (worked platform middle.1 middle.2) last.1 last.2, [last.2], calls⟩ :=
        .labor 0 rfl rfl step
      rw [again] at step
      exact ⟨_, run.snoc step⟩

theorem set_same {who : Nat} {request : Request} (here : calls[who]? = some request) :
    calls.set who request = calls := by
  obtain ⟨early, late, split, _, replaced⟩ := getElem?_split here
  rw [replaced, split]

section

variable {desk next : Desk} {cores size who : Nat} {squad changed : Squad} {stint : Stint}
  {deal : Option (Deal Task)}

theorem Run.part (run : Run first beats ⟨⟨desk, cores, size, none, true⟩, [squad], calls⟩)
    (here : calls[who]? = some (.shutdown (.dropping 0))) (owner : stint.isLabor = false)
    (step : squad.Step desk stint deal next changed) : ∃ more, Run first more
      ⟨⟨next, cores, size, none, true⟩, [changed],
        calls.set who (.shutdown (.parted 0 stint))⟩ := by
  have step : Step ⟨⟨desk, cores, size, none, true⟩, [squad], calls⟩ _
      ⟨⟨next, cores, size, none, true⟩, [changed], calls.set who (.shutdown (.parted 0 stint))⟩ :=
    .part who here rfl owner step
  exact ⟨_, run.snoc step⟩

theorem Run.joins (early : List Hand) {late : List Hand} (run : Run first beats
      ⟨⟨desk, cores, size, none, true⟩, [⟨.pool, early ++ late, .leaving early.length⟩], calls⟩)
    (here : calls[who]? = some (.shutdown (.dropping 0)))
    (gone : ∀ hand ∈ late, hand.state ≠ .running) :
    ∃ more, Run first more ⟨⟨desk.join (late.map Hand.state), cores, size, none, true⟩,
      [⟨.pool, early ++ late, .leaving (early ++ late).length⟩], calls⟩ := by
  induction late generalizing early desk beats with
  | nil => exact ⟨beats, by simpa [Desk.join, Crew.dead] using run⟩
  | cons hand late ih =>
      obtain ⟨more, joined⟩ := run.part here rfl (.join (gone hand (by simp)))
      rw [show Closing.parted 0 (.join hand.state) = .dropping 0 from rfl, set_same here,
        List.append_cons, ← List.length_singleton, ← List.length_append] at joined
      rw [List.append_cons, List.map_cons, Desk.join_cons]
      exact ih _ joined fun other member => gone other (List.mem_cons_of_mem _ member)

end

theorem Run.settle {dead alive : Nat} (run : Run first beats
      ⟨platform, [⟨.pool, Squad.line dead alive, .held⟩], calls⟩)
    (placed : platform.pool = some ((Squad.line dead alive).map Hand.state)) :
    ∃ more hands, Run first more ⟨platform.settle, [⟨.pool, hands, .held⟩], calls⟩ ∧
      platform.settle.pool = some (hands.map Hand.state) := by
  obtain ⟨desk, cores, size, pool, shutDown⟩ := platform
  obtain rfl : pool = some _ := placed
  obtain ⟨hands, works, states, _⟩ := Squad.works_workOff .pool .held rfl desk dead alive
  let crew := (Squad.line dead alive).map Hand.state
  obtain ⟨more, settled⟩ := Run.works ⟨desk, cores, size, some crew, shutDown⟩ works run
  refine ⟨more, hands, ?_, congrArg some states.symm⟩
  have same : Platform.settle ⟨desk, cores, size, some crew, shutDown⟩ =
      ⟨(desk.workOff crew).2, cores, size, some (hands.map Hand.state), shutDown⟩ := by
    rw [states]
    rfl
  rw [same]
  exact settled

/-- A shutdown that takes the pool, with nobody else around. -/
theorem Run.shutdown {dead alive : Nat} (run : Run first beats
      ⟨platform, [⟨.pool, Squad.line dead alive, .held⟩], calls⟩)
    (placed : platform.pool = some ((Squad.line dead alive).map Hand.state)) :
    ∃ more hands, Run first more ⟨platform.shutdown, [⟨.pool, hands, .released⟩],
      calls ++ [.shutdown (.returned true)]⟩ := by
  obtain ⟨desk, cores, size, pool, shutDown⟩ := platform
  obtain rfl : pool = some _ := placed
  have terminated := run.snoc .terminate
  have closed := terminated.snoc (.close calls.length List.getElem?_concat_length)
  rw [set_concat_length] at closed
  have here : (calls ++ [.shutdown (.dropping 0)])[calls.length]? = some (.shutdown (.dropping 0)) :=
    List.getElem?_concat_length
  obtain ⟨_, dropped⟩ := Run.part closed here rfl .dropPool
  rw [set_concat_length] at dropped
  obtain ⟨hands, works, states, gone⟩ :=
    Squad.works_workOff .pool (.leaving 0) rfl desk.terminate dead alive
  obtain ⟨_, worked⟩ := Run.works ⟨desk.terminate, cores, size, none, true⟩ works dropped
  obtain ⟨_, joined⟩ := Run.joins [] worked here (gone rfl)
  obtain ⟨more, released⟩ := Run.part joined here rfl .release
  rw [set_concat_length] at released
  refine ⟨more, hands, ?_⟩
  rw [states] at released
  exact released

end Bureau

end Reclaim
