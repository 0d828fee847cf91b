import Reclaim.Proofs.Runs
import Reclaim.Task.Foreground

/-! Foreground queues under any order of posts and pumps. Each context has a queue of its own. What is posted
to it comes out in the order of the posts, only by pumps of the context, and as if there were no other
contexts. -/

namespace Reclaim

variable {α : Type}

inductive Dispatch (α : Type) where
  | post (context : ContextId) (task : α)
  | pump (context : ContextId) (answer : Option α)

namespace Dispatch

def context : Dispatch α → ContextId
  | .post context _ | .pump context _ => context

def brings (context : ContextId) : Dispatch α → Option α
  | .post other task => if other = context then some task else none
  | .pump _ _ => none

def takes (context : ContextId) : Dispatch α → Option α
  | .post _ _ => none
  | .pump other answer => if other = context then answer else none

def answers (context : ContextId) : Dispatch α → Option (Option α)
  | .post _ _ => none
  | .pump other answer => if other = context then some answer else none

def shows (context : ContextId) : Dispatch α → Option (Option α)
  | .post other task => if other = context then some (some task) else none
  | .pump other _ => if other = context then some none else none

end Dispatch

namespace Foreground

inductive Step : Foreground α → Dispatch α → Foreground α → Prop
  | post {queues : Foreground α} (context : ContextId) (task : α) :
      Step queues (.post context task) (queues.push context task)
  | miss {queues : Foreground α} {context : ContextId} (nothing : queues.pop context = none) :
      Step queues (.pump context none) queues
  | hit {queues next : Foreground α} {context : ContextId} {task : α}
      (popped : queues.pop context = some (task, next)) :
      Step queues (.pump context (some task)) next

abbrev Run (first : Foreground α) (dispatches : List (Dispatch α)) (last : Foreground α) : Prop :=
  Runs Step first dispatches last

def postedTo (context : ContextId) (dispatches : List (Dispatch α)) : List α :=
  dispatches.filterMap (·.brings context)

def ranIn (context : ContextId) (dispatches : List (Dispatch α)) : List α :=
  dispatches.filterMap (·.takes context)

def answersIn (context : ContextId) (dispatches : List (Dispatch α)) : List (Option α) :=
  dispatches.filterMap (·.answers context)

def shownTo (context : ContextId) (dispatches : List (Dispatch α)) : List (Option α) :=
  dispatches.filterMap (·.shows context)

variable {first queues next : Foreground α} {dispatches more : List (Dispatch α)}
  {dispatch : Dispatch α} {context other : ContextId} {task : α}

theorem pendingIn_same (context : ContextId) (pending : List α) (rest : Foreground α) :
    pendingIn ((context, pending) :: rest) context = pending := by
  unfold pendingIn
  rw [List.lookup_cons_self]
  rfl

theorem pendingIn_other (differs : other ≠ context) (pending : List α) (rest : Foreground α) :
    pendingIn ((other, pending) :: rest) context = pendingIn rest context := by
  have apart : (context == other) = false := beq_eq_false_iff_ne.mpr differs.symm
  unfold pendingIn
  rw [List.lookup_cons, apart]

theorem pendingIn_push_same (queues : Foreground α) (context : ContextId) (task : α) :
    (queues.push context task).pendingIn context = queues.pendingIn context ++ [task] := by
  induction queues with
  | nil => exact pendingIn_same context [task] []
  | cons entry rest ih =>
      obtain ⟨owner, pending⟩ := entry
      unfold push
      by_cases same : owner = context
      · subst same
        rw [if_pos rfl, pendingIn_same, pendingIn_same]
      · rw [if_neg same, pendingIn_other same, pendingIn_other same]
        exact ih

theorem pendingIn_push_other (queues : Foreground α) (differs : context ≠ other) (task : α) :
    (queues.push context task).pendingIn other = queues.pendingIn other := by
  induction queues with
  | nil => exact pendingIn_other differs [task] []
  | cons entry rest ih =>
      obtain ⟨owner, pending⟩ := entry
      unfold push
      by_cases same : owner = context
      · subst same
        rw [if_pos rfl, pendingIn_other differs, pendingIn_other differs]
      · rw [if_neg same]
        by_cases here : owner = other
        · subst here
          rw [pendingIn_same, pendingIn_same]
        · rw [pendingIn_other here, pendingIn_other here]
          exact ih

theorem pop_eq_none : queues.pop context = none ↔ queues.pendingIn context = [] := by
  induction queues with
  | nil =>
      constructor
      · intro _
        rfl
      · intro _
        rfl
  | cons entry rest ih =>
      obtain ⟨owner, pending⟩ := entry
      unfold pop
      by_cases same : owner = context
      · subst same
        rw [if_pos rfl, pendingIn_same]
        cases pending with
        | nil => simp
        | cons task later => simp
      · rw [if_neg same, pendingIn_other same, Option.map_eq_none_iff]
        exact ih

theorem pop_eq_some (popped : queues.pop context = some (task, next)) :
    queues.pendingIn context = task :: next.pendingIn context ∧
      ∀ other, context ≠ other → next.pendingIn other = queues.pendingIn other := by
  induction queues generalizing next with
  | nil => cases popped
  | cons entry rest ih =>
      obtain ⟨owner, pending⟩ := entry
      unfold pop at popped
      by_cases same : owner = context
      · subst same
        rw [if_pos rfl] at popped
        cases pending with
        | nil => cases popped
        | cons first later =>
            cases popped
            rw [pendingIn_same, pendingIn_same]
            refine ⟨rfl, ?_⟩
            intro other differs
            rw [pendingIn_other differs, pendingIn_other differs]
      · rw [if_neg same] at popped
        obtain ⟨⟨found, left⟩, inRest, equal⟩ := Option.map_eq_some_iff.mp popped
        cases equal
        obtain ⟨here, others⟩ := ih inRest
        rw [pendingIn_other same, pendingIn_other same]
        refine ⟨here, ?_⟩
        intro other differs
        by_cases owned : owner = other
        · subst owned
          rw [pendingIn_same, pendingIn_same]
        · rw [pendingIn_other owned, pendingIn_other owned]
          exact others other differs

theorem Step.pending (step : Step queues dispatch next) (context : ContextId) :
    (dispatch.takes context).toList ++ next.pendingIn context =
      queues.pendingIn context ++ (dispatch.brings context).toList := by
  cases step with
  | post owner task =>
      by_cases same : owner = context
      · subst same
        simp [Dispatch.takes, Dispatch.brings, pendingIn_push_same]
      · simp [Dispatch.takes, Dispatch.brings, same, pendingIn_push_other queues same]
  | miss => simp [Dispatch.takes, Dispatch.brings]
  | @hit _ owner task popped =>
      obtain ⟨here, others⟩ := pop_eq_some popped
      by_cases same : owner = context
      · subst same
        simp [Dispatch.takes, Dispatch.brings, here]
      · simp [Dispatch.takes, Dispatch.brings, same, others context same]

theorem Step.answer {answer : Option α} (step : Step queues (.pump context answer) next) :
    answer = (queues.pendingIn context).head? ∧
      next.pendingIn context = (queues.pendingIn context).tail := by
  cases step with
  | miss nothing =>
      rw [pop_eq_none.mp nothing]
      exact ⟨rfl, rfl⟩
  | hit popped =>
      rw [(pop_eq_some popped).1]
      exact ⟨rfl, rfl⟩

theorem filterMap_snoc {β : Type} (view : Dispatch α → Option β) (dispatches : List (Dispatch α))
    (dispatch : Dispatch α) : (dispatches ++ [dispatch]).filterMap view =
      dispatches.filterMap view ++ (view dispatch).toList := by
  cases seen : view dispatch with
  | none => simp [seen]
  | some item => simp [seen]

/-- The tasks that have been taken and those that wait are the tasks that have come, in their order. -/
theorem Run.pending (run : Run first dispatches queues) (context : ContextId) :
    ranIn context dispatches ++ queues.pendingIn context =
      first.pendingIn context ++ postedTo context dispatches := by
  induction run with
  | nil => exact (List.append_nil _).symm
  | @snoc dispatches dispatch queues next _ step ih =>
      unfold ranIn postedTo at ih ⊢
      rw [filterMap_snoc, filterMap_snoc, List.append_assoc, step.pending, ← List.append_assoc, ih,
        List.append_assoc]

theorem Run.untouched (run : Run first dispatches queues) {context : ContextId}
    (apart : ∀ dispatch ∈ dispatches, dispatch.context ≠ context) :
    queues.pendingIn context = first.pendingIn context := by
  have pending := run.pending context
  have nothing : ranIn context dispatches = [] := by
    apply List.filterMap_eq_nil_iff.mpr
    intro dispatch member
    have differs := apart dispatch member
    cases dispatch with
    | post => rfl
    | pump => exact if_neg differs
  have none : postedTo context dispatches = [] := by
    apply List.filterMap_eq_nil_iff.mpr
    intro dispatch member
    have differs := apart dispatch member
    cases dispatch with
    | post => exact if_neg differs
    | pump => rfl
  rwa [nothing, none, List.nil_append, List.append_nil] at pending

/-- What a queue that is alone makes of a task that comes and of a pump: the tasks that wait, and the answers
so far. -/
def heed (state : List α × List (Option α)) : Option α → List α × List (Option α)
  | some task => (state.1 ++ [task], state.2)
  | none => (state.1.tail, state.2 ++ [state.1.head?])

theorem Step.alone (step : Step queues dispatch next) (context : ContextId)
    (answered : List (Option α)) :
    (dispatch.shows context).toList.foldl heed (queues.pendingIn context, answered) =
      (next.pendingIn context, answered ++ (dispatch.answers context).toList) := by
  have moved := step.pending context
  cases dispatch with
  | post owner task =>
      cases step
      by_cases same : owner = context
      · subst same
        simp [Dispatch.shows, Dispatch.answers, heed, pendingIn_push_same]
      · simp [Dispatch.shows, Dispatch.answers, same, pendingIn_push_other queues same]
  | pump owner answer =>
      by_cases same : owner = context
      · subst same
        obtain ⟨rfl, left⟩ := step.answer
        simp [Dispatch.shows, Dispatch.answers, heed, left]
      · have unmoved : next.pendingIn context = queues.pendingIn context := by
          simpa [Dispatch.takes, Dispatch.brings, same] using moved
        simp [Dispatch.shows, Dispatch.answers, same, unmoved]

/-- Each context behaves like a queue that is alone. -/
theorem Run.alone (run : Run first dispatches queues) (context : ContextId) :
    (shownTo context dispatches).foldl heed (first.pendingIn context, []) =
      (queues.pendingIn context, answersIn context dispatches) := by
  induction run with
  | nil => rfl
  | snoc _ step ih =>
      unfold shownTo answersIn at ih ⊢
      rw [filterMap_snoc, filterMap_snoc, List.foldl_append, ih]
      exact step.alone context _

end Foreground

end Reclaim
