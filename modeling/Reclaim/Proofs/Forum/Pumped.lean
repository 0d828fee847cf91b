import Reclaim.Proofs.Forum.Basic

/-! What pumps do, whoever else is at the platform. Each context gets its tasks in the order of their posts,
each of them once and by a pump of that context, and what is done in other contexts makes no difference
to it. -/

namespace Reclaim

open Foreground

namespace Pump

/-- The thread of a pump runs the task that the pump has taken and nothing else, and it is through with it in
the way in which the task ends. -/
def Faithful (pump : Pump) : Prop :=
  match pump.task, pump.hand with
  | none, hand => hand = .free
  | some task, .busy running due => running = task ∧ ∃ done, task.duties .platform = done ++ due
  | some task, .free => task.fails = false
  | some task, .died => task.fails = true
  | some _, .finished => False

theorem begun_faithful (context : ContextId) (answer : Option Task) :
    (begun context .platform answer).Faithful := by
  cases answer with
  | none => rfl
  | some task => exact ⟨rfl, [], rfl⟩

def call (pump : Pump) : ContextId × Option Task := (pump.context, pump.task)

end Pump

namespace Dispatch

def call? : Dispatch Task → Option (ContextId × Option Task)
  | .post _ _ => none
  | .pump context answer => some (context, answer)

end Dispatch

namespace Forum

variable {forum next : Forum} {acts made : List (Dispatch Task)} {setting : PoolSetting} {cores : Nat}

theorem no_call_of_posts (posts : ∀ act ∈ made, act.isPost = true) :
    made.filterMap Dispatch.call? = [] := by
  apply List.filterMap_eq_nil_iff.mpr
  intro act member
  have post := posts act member
  cases act with
  | post => rfl
  | pump => cases post

theorem Step.calls (step : Step forum made next) :
    next.pumps.map Pump.call = forum.pumps.map Pump.call ++ made.filterMap Dispatch.call? := by
  cases step with
  | bureau step =>
      rw [no_call_of_posts fun _ => Beat.dispatches_post, List.append_nil]
  | post context task => exact (List.append_nil _).symm
  | miss context nothing =>
      rw [List.map_append]
      rfl
  | hit context popped =>
      rw [List.map_append]
      rfl
  | @work bureau pumps context taken task due labor deal after changed who here step =>
      obtain ⟨early, late, split, _, replaced⟩ := getElem?_split here
      rw [no_call_of_posts fun _ => Labor.dispatches_post, List.append_nil, replaced, split,
        List.map_append, List.map_append]
      rfl

theorem Run.calls (run : Run (opened setting cores) acts forum) :
    forum.pumps.map Pump.call = acts.filterMap Dispatch.call? := by
  induction run using Emits.induction with
  | nil => rfl
  | snoc _ step ih => rw [step.calls, ih, List.filterMap_append]

theorem Step.faithful (step : Step forum made next) (host : forum.desk.host = .platform)
    (before : ∀ pump ∈ forum.pumps, pump.Faithful) : ∀ pump ∈ next.pumps, pump.Faithful := by
  cases step with
  | bureau step => exact before
  | post context task => exact before
  | @miss bureau pumps context nothing =>
      intro pump member
      rcases List.mem_append.mp member with earlier | added
      · exact before pump earlier
      · obtain rfl := List.mem_singleton.mp added
        rfl
  | @hit bureau pumps task left context popped =>
      intro pump member
      rcases List.mem_append.mp member with earlier | added
      · exact before pump earlier
      · obtain rfl := List.mem_singleton.mp added
        have same : bureau.platform.desk.host = .platform := host
        rw [same]
        exact Pump.begun_faithful context (some task)
  | @work bureau pumps context taken task due labor deal after changed who here step =>
      intro pump member
      rcases List.mem_or_eq_of_mem_set member with earlier | rfl
      · exact before pump earlier
      · have faithful := before _ (List.mem_of_getElem? here)
        cases taken with
        | none => cases faithful
        | some taken =>
            obtain ⟨rfl, done, split⟩ := faithful
            cases step with
            | @perform _ duty left =>
                refine ⟨rfl, done ++ [duty], ?_⟩
                rw [split, List.append_assoc]
                rfl
            | finish succeeds => exact succeeds
            | fail fails => exact fails

theorem Run.faithful (run : Run (opened setting cores) acts forum) :
    ∀ pump ∈ forum.pumps, pump.Faithful := by
  induction run using Emits.induction with
  | nil => exact nofun
  | snoc earlier step ih => exact step.faithful (Run.host earlier) ih

theorem step_pump (forum : Forum) (context : ContextId) :
    ∃ next, Step forum [.pump context (forum.pendingIn context).head?] next := by
  obtain ⟨bureau, pumps⟩ := forum
  unfold pendingIn
  dsimp only
  cases popped : bureau.queues.pop context with
  | none =>
      rw [pop_eq_none.mp popped]
      exact ⟨_, .miss context popped⟩
  | some found =>
      obtain ⟨task, left⟩ := found
      rw [(pop_eq_some popped).1]
      exact ⟨_, .hit context popped⟩

theorem Step.pumps {context : ContextId} {answer : Option Task} (step : Step forum made next)
    (member : .pump context answer ∈ made) : made = [.pump context answer] ∧
      Foreground.Step forum.bureau.queues (.pump context answer) next.bureau.queues ∧
      next.pumps = forum.pumps ++ [.begun context forum.desk.host answer] := by
  cases step with
  | bureau step => cases Beat.dispatches_post member
  | post other task => cases List.mem_singleton.mp member
  | miss other nothing =>
      cases List.mem_singleton.mp member
      exact ⟨rfl, .miss nothing, rfl⟩
  | hit other popped =>
      cases List.mem_singleton.mp member
      exact ⟨rfl, .hit popped, rfl⟩
  | work who here step => cases Labor.dispatches_post member

/-- The end of a task is a step that leaves everything else as it is, also when the task fails. -/
theorem step_end {who : Nat} {context : ContextId} {task : Task}
    (here : forum.pumps[who]? = some ⟨context, some task, .busy task []⟩) :
    Step forum [] ⟨forum.bureau, forum.pumps.set who
      ⟨context, some task, if task.fails then .died else .free⟩⟩ := by
  obtain ⟨bureau, pumps⟩ := forum
  cases fails : task.fails with
  | false => exact .work who here (.finish fails)
  | true => exact .work who here (.fail fails)

structure Pumped (acts : List (Dispatch Task)) (forum : Forum) : Prop where
  fifo : ∀ context, ranIn context acts ++ forum.pendingIn context = postedTo context acts
  ready : ∀ context, ∃ next, Step forum [.pump context (forum.pendingIn context).head?] next
  answers : ∀ made next context answer, Step forum made next → .pump context answer ∈ made →
    made = [.pump context answer] ∧ answer = (forum.pendingIn context).head? ∧
      next.pendingIn context = (forum.pendingIn context).tail ∧
      next.pumps = forum.pumps ++ [.begun context .platform answer]
  untouched : ∀ made next context, Step forum made next → (∀ act ∈ made, act.context ≠ context) →
    next.pendingIn context = forum.pendingIn context
  isolated : ∀ setting cores others other, Run (opened setting cores) others other → ∀ context,
    shownTo context others = shownTo context acts →
      answersIn context others = answersIn context acts ∧
        other.pendingIn context = forum.pendingIn context
  calls : forum.pumps.map Pump.call = acts.filterMap Dispatch.call?
  faithful : ∀ pump ∈ forum.pumps, pump.Faithful
  ends : ∀ (who : Nat) context task,
    forum.pumps[who]? = some ⟨context, some task, .busy task []⟩ →
      Step forum [] ⟨forum.bureau, forum.pumps.set who
        ⟨context, some task, if task.fails then .died else .free⟩⟩
  background : ∀ beats next, forum.bureau.Step beats next → ∀ context,
    next.queues.pendingIn context =
      forum.pendingIn context ++ postedTo context (beats.flatMap Beat.dispatches)
  pump : ∀ context, (forum.bureau.platform.pump context).1 =
      (forum.pendingIn context).head?.map (fun task => task.result (!task.fails)) ∧
    ∀ other, (forum.bureau.platform.pump context).2.desk.foreground.pendingIn other =
      (if other = context then (forum.pendingIn context).tail else forum.pendingIn other) ++
      (forum.pendingIn context).head?.toList.flatMap fun task => postedTo other task.dispatches
  shutdown : ∃ tasks : List Task, ∀ context,
    forum.bureau.platform.shutdown.desk.foreground.pendingIn context =
      forum.pendingIn context ++ postedTo context (tasks.flatMap Task.dispatches)

/-- In each context the tasks that have been taken are the first ones that have come, in their
order. A pump is answered with the first task that waits there, and what other contexts do makes no
difference to it. -/
theorem Run.pumped (run : Run (opened setting cores) acts forum) : Pumped acts forum := by
  constructor
  · intro context
    exact run.dispatches.pending context
  · intro context
    exact step_pump forum context
  · intro made next context answer step member
    obtain ⟨rfl, pumped, pumps⟩ := step.pumps member
    obtain ⟨answer, left⟩ := pumped.answer
    rw [run.host] at pumps
    exact ⟨rfl, answer, left, pumps⟩
  · intro made next context step apart
    exact step.dispatches.untouched apart
  · intro setting cores others other run' context same
    have here := run.dispatches.alone context
    have there := run'.dispatches.alone context
    rw [same] at there
    obtain ⟨pending, answers⟩ := Prod.mk.inj (there.symm.trans here)
    exact ⟨answers, pending⟩
  · exact run.calls
  · exact run.faithful
  · intro who context task here
    exact step_end here
  · intro beats next step context
    exact step.dispatches.grows (fun _ => Beat.dispatches_post) context
  · intro context
    exact forum.bureau.platform.pump_eq context
  · obtain ⟨tasks, posts⟩ := forum.bureau.platform.shutdown_dispatches
    refine ⟨tasks, ?_⟩
    intro context
    refine posts.grows ?_ context
    intro act member
    obtain ⟨task, _, made⟩ := List.mem_flatMap.mp member
    exact Task.dispatches_post made

def sampleTask : Task := .make 1 [] [(⟨1⟩, .make 3 [] [] .long false false)] .short false true

def sampleActs : List (Dispatch Task) :=
  -- Two contexts, the second of which gets a task from a client and one from a task of the
  -- first. Between the pumps the platform is shut down.
  [.post ⟨0⟩ sampleTask, .post ⟨1⟩ (.make 2 [] [] .short false false),
    .pump ⟨0⟩ (some sampleTask), .post ⟨1⟩ (.make 3 [] [] .long false false),
    .pump ⟨1⟩ (some (.make 2 [] [] .short false false)),
    .pump ⟨1⟩ (some (.make 3 [] [] .long false false)), .pump ⟨0⟩ none]

theorem sampleActs_pumped : ∃ forum, Run (opened ⟨2⟩ 8) sampleActs forum ∧
    forum.bureau.platform.shutDown = true ∧ Pumped sampleActs forum := by
  have first : Run (opened ⟨2⟩ 8) _ _ := .snoc .nil (.post ⟨0⟩ sampleTask)
  have second : Run (opened ⟨2⟩ 8) _ _ := .snoc first (.post ⟨1⟩ (.make 2 [] [] .short false false))
  have pumped : Run (opened ⟨2⟩ 8) _ _ := .snoc second (.hit ⟨0⟩ rfl)
  have posted : Run (opened ⟨2⟩ 8) _ _ := .snoc pumped (.work 0 rfl .perform)
  have failed : Run (opened ⟨2⟩ 8) _ _ := .snoc posted (.work 0 rfl (.fail rfl))
  have other : Run (opened ⟨2⟩ 8) _ _ := .snoc failed (.hit ⟨1⟩ rfl)
  have finished : Run (opened ⟨2⟩ 8) _ _ := .snoc other (.work 1 rfl (.finish rfl))
  have terminated : Run (opened ⟨2⟩ 8) _ _ := .snoc finished (.bureau .terminate)
  have closed : Run (opened ⟨2⟩ 8) _ _ := .snoc terminated (.bureau (.close 0 rfl))
  have last : Run (opened ⟨2⟩ 8) _ _ := .snoc closed (.hit ⟨1⟩ rfl)
  have run : Run (opened ⟨2⟩ 8) sampleActs _ := .snoc last (.miss ⟨0⟩ rfl)
  exact ⟨_, run, rfl, run.pumped⟩

end Forum

end Reclaim
