import Reclaim.Proofs.Forum.Basic

/-! The size of the pool, at a platform that clients call, pump and shut down. It is within its bounds at any
time. Once the pool has been started it is the number of the workers, and it stays so until somebody sets
it after a shutdown has taken the pool away. -/

namespace Reclaim

theorem Platform.ensurePool_poolSize (platform : Platform) :
    platform.ensurePool.poolSize = platform.poolSize := by
  unfold ensurePool
  split
  · rfl
  · split <;> rfl

namespace Bureau

variable {bureau next : Bureau} {made : List Beat}

theorem Step.size (step : Step bureau made next) :
    next.platform.poolSize = bureau.platform.poolSize ∨
      ∃ requested, next = { bureau with platform := bureau.platform.setPoolSize requested } := by
  cases step with
  | resize requested => exact .inr ⟨requested, rfl⟩
  | ensure | ready => exact .inl (Platform.ensurePool_poolSize _)
  | append =>
      rw [Platform.append_eq]
      exact .inl rfl
  | announce | terminate | close | part | labor => exact .inl rfl

theorem Step.started (started : bureau.squads ≠ []) (step : Step bureau made next) :
    next.squads ≠ [] := by
  have changed {squads : List Squad} (any : squads ≠ []) (number : Nat) (squad : Squad) :
      squads.set number squad ≠ [] := by simpa using any
  cases step with
  | resize | announce | append | terminate | close => exact started
  | ensure | ready => exact List.append_ne_nil_of_left_ne_nil started _
  | part | labor => exact changed started _ _

theorem Sound.withDesk (sound : bureau.Sound) {desk : Desk}
    (lasting : bureau.platform.desk.queue.terminated = true → desk.queue.terminated = true) :
    (bureau.withDesk desk).Sound := by
  have advances : bureau.Advances (bureau.withDesk desk) := ⟨id, lasting, id⟩
  exact ⟨sound.size, sound.phase.pass lasting,
    fun call member => (sound.calls call member).later advances⟩

/-! What the phase of the pool says about the number of its workers. -/

section

variable {size : Nat} {closed shutDown : Bool} {pool : Option Crew} {squads : List Squad}
  {drops : List Closing}

theorem Phase.workers {crew : Crew} (phase : Phase size closed (some crew) shutDown squads drops) :
    crew.length = size := by
  cases phase with
  | placed full => exact (List.length_map _).trans full

theorem Phase.taken (phase : Phase size closed none shutDown squads drops) (started : squads ≠ []) :
    shutDown = true := by
  cases phase with
  | early => exact absurd rfl started
  | unneeded | dropping | dropped => rfl

theorem Phase.staff (phase : Phase size closed pool false squads drops) {squad : Squad}
    (member : squad ∈ squads) : squad.hands.length = size := by
  cases phase with
  | early => cases member
  | placed full =>
      rw [List.mem_singleton.mp member]
      exact full

end

end Bureau

namespace Forum

variable {first forum next last : Forum} {acts made more : List (Dispatch Task)} {setting : PoolSetting}
  {cores : Nat}

def size (forum : Forum) : Nat := forum.bureau.platform.poolSize

def resize (forum : Forum) (requested : Nat) : Forum :=
  { forum with bureau :=
    { forum.bureau with platform := forum.bureau.platform.setPoolSize requested } }

/-- Since then somebody has set the size after a shutdown had taken the pool, and it is as it was set last. -/
def Reset (forum last : Forum) : Prop :=
  ∃ requested before middle after, Run forum before middle ∧
    middle.bureau.platform.shutDown = true ∧ Run (middle.resize requested) after last ∧
    last.size = poolSizeFor requested middle.bureau.platform.cores

/-- What steps of the forum do to the bureau, apart from those of the bureau itself. -/
theorem Step.beside (step : Step forum made next) :
    (∃ beats, forum.bureau.Step beats next.bureau ∧ next.pumps = forum.pumps) ∨
      ∃ desk, next.bureau = forum.bureau.withDesk desk ∧
        (forum.bureau.platform.desk.queue.terminated = true → desk.queue.terminated = true) := by
  cases step with
  | bureau step => exact .inl ⟨_, step, rfl⟩
  | post context task => exact .inr ⟨_, rfl, id⟩
  | miss context nothing => exact .inr ⟨_, rfl, id⟩
  | hit context popped => exact .inr ⟨_, rfl, id⟩
  | work who here step => exact .inr ⟨_, rfl, step.frame.passes.terminated⟩

theorem Step.sound (sound : forum.bureau.Sound) (step : Step forum made next) : next.bureau.Sound := by
  rcases step.beside with ⟨beats, step, _⟩ | ⟨desk, same, lasting⟩
  · exact (step.sound sound).1
  · rw [same]
    exact sound.withDesk lasting

theorem Run.sound (run : Run first acts forum) (sound : first.bureau.Sound) : forum.bureau.Sound :=
  run.keeps (·.bureau.Sound) sound fun step kept => step.sound kept

theorem Step.started (step : Step forum made next) (started : forum.bureau.squads ≠ []) :
    next.bureau.squads ≠ [] := by
  rcases step.beside with ⟨beats, step, _⟩ | ⟨desk, same, _⟩
  · exact step.started started
  · rw [same]
    exact started

theorem Run.started (run : Run first acts forum) (started : first.bureau.squads ≠ []) :
    forum.bureau.squads ≠ [] :=
  run.keeps (·.bureau.squads ≠ []) started fun step kept => step.started kept

theorem Step.size (step : Step forum made next) :
    next.size = forum.size ∨ ∃ requested, next = forum.resize requested := by
  rcases step.beside with ⟨beats, step, pumps⟩ | ⟨desk, same, _⟩
  · refine step.size.imp id fun ⟨requested, same⟩ => ⟨requested, ?_⟩
    rw [resize, ← same, ← pumps]
  · refine .inl ?_
    rw [Forum.size, same]
    rfl

theorem Reset.snoc (reset : forum.Reset last) (step : Step last made next)
    (same : next.size = last.size) : forum.Reset next := by
  obtain ⟨requested, before, middle, after, earlier, shut, later, set⟩ := reset
  exact ⟨requested, before, middle, _, earlier, shut, later.snoc step, same.trans set⟩

theorem Run.reset (run : Run forum more last) (sound : forum.bureau.Sound)
    (started : forum.bureau.squads ≠ []) : last.size = forum.size ∨ forum.Reset last := by
  -- A call that finds a pool in place leaves the size as it is. Where a pool that has been started is not in
  -- place any more, a shutdown has taken it.
  induction run using Emits.induction with
  | nil => exact .inl rfl
  | @snoc acts made now next earlier step ih =>
      have kept (same : next.size = now.size) : next.size = forum.size ∨ forum.Reset next :=
        ih.imp same.trans fun reset => reset.snoc step same
      rcases step.size with same | ⟨requested, rfl⟩
      · exact kept same
      · cases pool : now.bureau.platform.pool with
        | some crew => exact kept (by simp [size, resize, Platform.setPoolSize, pool])
        | none =>
            have phase := (Run.sound earlier sound).phase
            rw [pool] at phase
            have shut := phase.taken (Run.started earlier started)
            refine .inr ⟨requested, _, now, [], earlier, shut, .nil, ?_⟩
            simp [size, resize, Platform.setPoolSize, pool]

structure Sized (forum : Forum) : Prop where
  bounds : 1 ≤ forum.size ∧ forum.size ≤ maxPoolSize
  placed : ∀ crew, forum.bureau.platform.pool = some crew → crew.length = forum.size
  fixed : ∀ squad ∈ forum.bureau.squads, forum.bureau.platform.shutDown = false →
    forum.size = squad.hands.length ∧ ∀ more last, Run forum more last →
      last.size = squad.hands.length ∨ forum.Reset last

/-- As long as no shutdown has taken the pool, the size that is set is the number of its workers;
somebody may set it again afterwards. -/
theorem Run.sized (run : Run (opened setting cores) acts forum) : Sized forum := by
  have sound : forum.bureau.Sound :=
    run.sound ⟨poolSizeFor_bounds setting.threads cores, .early, nofun⟩
  have phase := sound.phase
  refine ⟨sound.size, fun crew placed => ?_, fun squad member standing => ?_⟩
  · rw [placed] at phase
    exact phase.workers
  · rw [standing] at phase
    have full : squad.hands.length = forum.size := phase.staff member
    refine ⟨full.symm, fun more last later => ?_⟩
    rw [full]
    exact later.reset sound (List.ne_nil_of_mem member)

/-- The pool is asked for with three workers, started by a post, and asked for with one. -/
theorem sampleSizes_sized : ∃ acts forum, Run (opened ⟨2⟩ 8) acts forum ∧ forum.size = 3 ∧
    forum.bureau.squads.map (fun squad => squad.hands.length) = [3] ∧ Sized forum := by
  have asked : Run (opened ⟨2⟩ 8) _ _ := .snoc .nil (.bureau (.resize 3))
  have announced : Run (opened ⟨2⟩ 8) _ _ :=
    .snoc asked (.bureau (.announce (.make 1 [] [] .short false false)))
  have started : Run (opened ⟨2⟩ 8) _ _ := .snoc announced (.bureau (.ready 0 rfl))
  have run : Run (opened ⟨2⟩ 8) _ _ := .snoc started (.bureau (.resize 1))
  exact ⟨_, _, run, rfl, rfl, run.sized⟩

/-- A pool of two workers is started. The size cannot be set while it is in place, but it can be after a
shutdown has taken it, dropped it and returned. -/
theorem sampleSizes_changed : ∃ acts forum more last, Run (opened ⟨2⟩ 8) acts forum ∧
    forum.bureau.squads.map (fun squad => squad.hands.length) = [2] ∧ (forum.resize 4).size = 2 ∧
    Run forum more last ∧ last.bureau.calls = [.shutdown (.returned true)] ∧
    last.bureau.squads.map (·.tenure) = [.released] ∧ last.bureau.platform.shutDown = true ∧
    last.bureau.platform.pool = none ∧ last.size = 4 := by
  have started : Run (opened ⟨2⟩ 8) _ _ := .snoc .nil (.bureau .ensure)
  have terminated : Run ⟨(Bureau.opened ⟨2⟩ 8).ensure, []⟩ _ _ := .snoc .nil (.bureau .terminate)
  have closed : Run _ _ _ := .snoc terminated (.bureau (.close 0 rfl))
  have dropped : Run _ _ _ := .snoc closed (.bureau (.part 0 rfl rfl rfl .dropPool))
  have left : Run _ _ _ :=
    .snoc dropped (.bureau (.labor 0 rfl rfl (.labor_at 0 rfl (.leave rfl))))
  have gone : Run _ _ _ := .snoc left (.bureau (.labor 0 rfl rfl (.labor_at 1 rfl (.leave rfl))))
  have joined : Run _ _ _ := .snoc gone (.bureau (.part 0 rfl rfl rfl (.join_at 0 rfl nofun)))
  have both : Run _ _ _ := .snoc joined (.bureau (.part 0 rfl rfl rfl (.join_at 1 rfl nofun)))
  have released : Run _ _ _ := .snoc both (.bureau (.part 0 rfl rfl rfl .release))
  have last : Run ⟨(Bureau.opened ⟨2⟩ 8).ensure, []⟩ _ _ := .snoc released (.bureau (.resize 4))
  exact ⟨_, _, _, _, started, rfl, rfl, last, rfl, rfl, rfl, rfl, rfl⟩

end Forum

end Reclaim
