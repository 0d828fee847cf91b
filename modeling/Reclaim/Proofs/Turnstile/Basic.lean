import Reclaim.Proofs.Items
import Reclaim.Proofs.Runs
import Reclaim.Semaphore

/-! A turnstile: one semaphore and the threads that go through it. A thread has a plan, the calls that it
makes one after another; after a call that may fail the plan depends on the answer. As long as a thread
holds the lock no other one moves, so a step is what a thread does from taking the lock to giving it
back, which a thread that parks does as it parks. A signal calls one parked thread before it gives the
lock back. A called thread looks for a permit when it gets the lock again, and others may have been
faster. -/

namespace Reclaim

inductive Plan where
  | done
  | signal (rest : Plan)
  | wait (rest : Plan)
  | waitFor (taken missed : Plan)
  | tryWait (taken missed : Plan)
  deriving DecidableEq, Repr

namespace Plan

def waits : Plan → Bool
  | .wait _ | .waitFor _ _ => true
  | _ => false

def timed : Plan → Bool
  | .waitFor _ _ => true
  | _ => false

end Plan

inductive Stand where
  | outside
  | parked
  | called
  | expired
  deriving DecidableEq, Repr

structure Visitor where
  stand : Stand
  plan : Plan
  deriving DecidableEq, Repr

inductive Motion where
  | signal
  | wait
  | waitFor (taken : Bool)
  | tryWait (taken : Bool)
  | park
  | expire
  | stir
  deriving DecidableEq, Repr

namespace Motion

def takes : Motion → Bool
  | .wait => true
  | .waitFor taken | .tryWait taken => taken
  | _ => false

def refuses : Motion → Bool
  | .waitFor taken | .tryWait taken => !taken
  | _ => false

def unbidden : Motion → Bool
  | .expire | .stir => true
  | _ => false

end Motion

namespace Visitor

/-- What a thread can do to the semaphore, apart from the call that goes with a signal. -/
inductive Step : Semaphore → Visitor → Motion → Semaphore → Visitor → Prop
  | signal {semaphore next : Semaphore} {rest : Plan} (sent : semaphore.signal = .ok next) :
      Step semaphore ⟨.outside, .signal rest⟩ .signal next ⟨.outside, rest⟩
  | wait {semaphore next : Semaphore} {stand : Stand} {rest : Plan} (awake : stand ≠ .parked)
      (acquired : semaphore.acquire? = some next) :
      Step semaphore ⟨stand, .wait rest⟩ .wait next ⟨.outside, rest⟩
  | waitFor {semaphore next : Semaphore} {stand : Stand} {taken missed : Plan}
      (awake : stand ≠ .parked) (acquired : semaphore.acquire? = some next) :
      Step semaphore ⟨stand, .waitFor taken missed⟩ (.waitFor true) next ⟨.outside, taken⟩
  | giveUp {semaphore : Semaphore} {taken missed : Plan} (empty : semaphore.acquire? = none) :
      Step semaphore ⟨.expired, .waitFor taken missed⟩ (.waitFor false) semaphore ⟨.outside, missed⟩
  | tryWait {semaphore next : Semaphore} {got : Bool} {taken missed : Plan}
      (tried : semaphore.tryAcquire = (got, next)) :
      Step semaphore ⟨.outside, .tryWait taken missed⟩ (.tryWait got) next
        ⟨.outside, if got then taken else missed⟩
  | park {semaphore : Semaphore} {stand : Stand} {plan : Plan}
      (looks : stand = .outside ∨ stand = .called) (waits : plan.waits = true)
      (empty : semaphore.acquire? = none) :
      Step semaphore ⟨stand, plan⟩ .park semaphore ⟨.parked, plan⟩
  | expire {semaphore : Semaphore} {taken missed : Plan} :
      Step semaphore ⟨.parked, .waitFor taken missed⟩ .expire semaphore
        ⟨.expired, .waitFor taken missed⟩
  | stir {semaphore : Semaphore} {plan : Plan} :
      Step semaphore ⟨.parked, plan⟩ .stir semaphore ⟨.called, plan⟩

end Visitor

structure Passage where
  who : Nat
  motion : Motion
  whom : Option Nat
  deriving DecidableEq, Repr

structure Turnstile where
  semaphore : Semaphore
  visitors : List Visitor
  deriving DecidableEq, Repr

namespace Turnstile

inductive Step : Turnstile → Passage → Turnstile → Prop
  | alone {semaphore next : Semaphore} {visitors : List Visitor} {old new : Visitor} {motion : Motion}
      (who : Nat) (here : visitors[who]? = some old) (step : old.Step semaphore motion next new)
      (nobody : motion = .signal → ∀ visitor ∈ visitors, visitor.stand ≠ .parked) :
      Step ⟨semaphore, visitors⟩ ⟨who, motion, none⟩ ⟨next, visitors.set who new⟩
  | calls {semaphore next : Semaphore} {visitors : List Visitor} {old new : Visitor} {plan : Plan}
      (who whom : Nat) (here : visitors[who]? = some old)
      (step : old.Step semaphore .signal next new) (there : visitors[whom]? = some ⟨.parked, plan⟩) :
      Step ⟨semaphore, visitors⟩ ⟨who, .signal, some whom⟩
        ⟨next, (visitors.set who new).set whom ⟨.called, plan⟩⟩

abbrev Run (first : Turnstile) (passages : List Passage) (last : Turnstile) : Prop :=
  Runs Step first passages last

def opened (permits : Nat) (plans : List Plan) : Turnstile :=
  ⟨⟨permits⟩, plans.map fun plan => ⟨.outside, plan⟩⟩

def total (measure : Visitor → Nat) (turnstile : Turnstile) : Nat :=
  (turnstile.visitors.map measure).sum

def number (stand : Stand) (turnstile : Turnstile) : Nat :=
  turnstile.total fun visitor => if visitor.stand = stand then 1 else 0

end Turnstile

namespace Semaphore

variable {semaphore next : Semaphore} {got : Bool}

theorem signal_eq_ok : semaphore.signal = .ok next ↔
    semaphore.permits + 1 < Word.limit ∧ next.permits = semaphore.permits + 1 := by
  unfold signal
  split
  next failed =>
    have full : ¬ semaphore.permits + 1 < Word.limit := by
      intro room
      rw [Word.add, if_pos room] at failed
      cases failed
    simp [full]
  next permits sum =>
    obtain ⟨room, rfl⟩ := Word.add_eq_ok.mp sum
    obtain ⟨count⟩ := next
    simp [room, eq_comm]

theorem acquire?_eq_some : semaphore.acquire? = some next ↔
    semaphore.permits = next.permits + 1 := by
  obtain ⟨count⟩ := next
  unfold acquire?
  split
  · simp only [Option.some.injEq, mk.injEq]
    omega
  · simp only [reduceCtorEq, false_iff]
    omega

theorem acquire?_eq_none : semaphore.acquire? = none ↔ semaphore.permits = 0 := by
  unfold acquire?
  split
  · simp only [reduceCtorEq, false_iff]
    omega
  · simp only [true_iff]
    omega

theorem tryAcquire_eq (tried : semaphore.tryAcquire = (got, next)) :
    semaphore.permits = next.permits + got.toNat ∧ (got = false → semaphore.permits = 0) := by
  unfold tryAcquire at tried
  split at tried
  next empty =>
    cases tried
    exact ⟨rfl, fun _ => acquire?_eq_none.mp empty⟩
  next acquired =>
    cases tried
    exact ⟨acquire?_eq_some.mp acquired, nofun⟩

end Semaphore

namespace Visitor

variable {semaphore after : Semaphore} {old new : Visitor} {motion : Motion}

structure Proper (visitor : Visitor) : Prop where
  inside : visitor.stand ≠ .outside → visitor.plan.waits = true
  late : visitor.stand = .expired → visitor.plan.timed = true

theorem Step.permits (step : old.Step semaphore motion after new) :
    after.permits + motion.takes.toNat = semaphore.permits + (decide (motion = .signal)).toNat := by
  cases step with
  | signal sent => exact (Semaphore.signal_eq_ok.mp sent).2
  | wait _ acquired | waitFor _ acquired => exact (Semaphore.acquire?_eq_some.mp acquired).symm
  | tryWait tried => exact (Semaphore.tryAcquire_eq tried).1.symm
  | giveUp | park | expire | stir => rfl

theorem Step.refused (step : old.Step semaphore motion after new) (refused : motion.refuses = true) :
    semaphore.permits = 0 ∧ after = semaphore := by
  cases step with
  | giveUp empty => exact ⟨Semaphore.acquire?_eq_none.mp empty, rfl⟩
  | @tryWait after got _ _ tried =>
      have missed : got = false := by simpa [Motion.refuses] using refused
      obtain ⟨same, empty⟩ := Semaphore.tryAcquire_eq tried
      refine ⟨empty missed, ?_⟩
      obtain ⟨before⟩ := semaphore
      obtain ⟨count⟩ := after
      rw [missed] at same
      exact congrArg Semaphore.mk same.symm
  | signal | wait | waitFor | park | expire | stir => cases refused

theorem Step.proper (step : old.Step semaphore motion after new) (proper : old.Proper) :
    new.Proper := by
  cases step with
  | park _ waits _ => exact ⟨fun _ => waits, nofun⟩
  | expire => exact ⟨fun _ => rfl, fun _ => rfl⟩
  | stir => exact ⟨fun _ => proper.inside nofun, nofun⟩
  | signal | wait | waitFor | giveUp | tryWait => exact ⟨fun inside => absurd rfl inside, nofun⟩

/-- A thread that is neither parked nor done can go on, as long as there is room for its permit. -/
theorem Proper.goes {visitor : Visitor} (proper : visitor.Proper) (awake : visitor.stand ≠ .parked)
    (busy : visitor ≠ ⟨.outside, .done⟩)
    (room : ∀ rest, visitor = ⟨.outside, .signal rest⟩ → semaphore.permits + 1 < Word.limit) :
    ∃ motion after new, motion.unbidden = false ∧ visitor.Step semaphore motion after new := by
  obtain ⟨stand, plan⟩ := visitor
  have looks : semaphore.acquire? = none ∨ ∃ next, semaphore.acquire? = some next := by
    cases semaphore.acquire? with
    | none => exact Or.inl rfl
    | some next => exact Or.inr ⟨next, rfl⟩
  by_cases waits : plan.waits = true
  · rcases looks with empty | ⟨next, acquired⟩
    · by_cases late : stand = .expired
      · subst late
        have timed := proper.late rfl
        cases plan with
        | waitFor taken missed => exact ⟨_, _, _, rfl, .giveUp empty⟩
        | done | signal | wait | tryWait => cases timed
      · have inTime : stand = .outside ∨ stand = .called := by
          cases stand with
          | outside => exact Or.inl rfl
          | called => exact Or.inr rfl
          | parked => exact absurd rfl awake
          | expired => exact absurd rfl late
        exact ⟨_, _, _, rfl, .park inTime waits empty⟩
    · cases plan with
      | wait rest => exact ⟨_, _, _, rfl, .wait awake acquired⟩
      | waitFor taken missed => exact ⟨_, _, _, rfl, .waitFor awake acquired⟩
      | done | signal | tryWait => cases waits
  · have out : stand = .outside := by
      by_contra inside
      exact waits (proper.inside inside)
    subst out
    cases plan with
    | signal rest =>
        have fits := room rest rfl
        exact ⟨_, ⟨semaphore.permits + 1⟩, _, rfl, .signal (Semaphore.signal_eq_ok.mpr ⟨fits, rfl⟩)⟩
    | tryWait taken missed => exact ⟨_, _, _, rfl, .tryWait rfl⟩
    | done => exact absurd rfl busy
    | wait | waitFor => exact absurd rfl waits

end Visitor

namespace Turnstile

variable {first turnstile next : Turnstile} {passages : List Passage} {passage : Passage}
  {visitors : List Visitor} {semaphore after : Semaphore} {old new : Visitor} {who whom : Nat}
  {plan : Plan}

theorem total_set (measure : Visitor → Nat) (semaphore after : Semaphore)
    (here : visitors[who]? = some old) (new : Visitor) :
    total measure ⟨after, visitors.set who new⟩ + measure old =
      total measure ⟨semaphore, visitors⟩ + measure new :=
  sum_set measure here new

theorem total_calls (measure : Visitor → Nat) (here : visitors[who]? = some old)
    (act : old.Step semaphore .signal after new) (there : visitors[whom]? = some ⟨.parked, plan⟩) :
    total measure ⟨after, (visitors.set who new).set whom ⟨.called, plan⟩⟩ + measure old +
        measure ⟨.parked, plan⟩ =
      total measure ⟨semaphore, visitors⟩ + measure new + measure ⟨.called, plan⟩ := by
  have apart : who ≠ whom := by
    rintro rfl
    rw [here] at there
    cases there
    cases act
  have parked : (visitors.set who new)[whom]? = some ⟨.parked, plan⟩ := by
    rw [List.getElem?_set_ne apart, there]
  have moved := total_set measure semaphore after here new
  have called := total_set measure after after parked ⟨.called, plan⟩
  omega

theorem number_eq_zero {stand : Stand} :
    turnstile.number stand = 0 ↔ ∀ visitor ∈ turnstile.visitors, visitor.stand ≠ stand := by
  unfold number total
  rw [List.sum_eq_zero_iff_forall_eq_nat, List.forall_mem_map]
  refine forall₂_congr ?_
  intro visitor _
  by_cases there : visitor.stand = stand
  · simp [there]
  · simp [there]

theorem Step.acts (step : Step turnstile passage next) :
    ∃ old new, old ∈ turnstile.visitors ∧
      old.Step turnstile.semaphore passage.motion next.semaphore new ∧
      ∀ measure : Plan → Nat, next.total (fun visitor => measure visitor.plan) + measure old.plan =
        turnstile.total (fun visitor => measure visitor.plan) + measure new.plan := by
  cases step with
  | @alone semaphore after visitors old new _ who here act nobody =>
      refine ⟨old, new, List.mem_of_getElem? here, act, ?_⟩
      intro measure
      exact total_set (fun visitor => measure visitor.plan) semaphore after here new
  | @calls semaphore after visitors old new plan who whom here act there =>
      refine ⟨old, new, List.mem_of_getElem? here, act, ?_⟩
      intro measure
      have moved := total_calls (fun visitor => measure visitor.plan) here act there
      dsimp only at moved ⊢
      omega

/-- What every thread keeps, whether it moves or is called, all of them keep. -/
theorem Step.keeps {Keeps : Visitor → Prop} (step : Step turnstile passage next)
    (moves : ∀ {semaphore after : Semaphore} {old new : Visitor} {motion : Motion},
      old.Step semaphore motion after new → Keeps old → Keeps new)
    (heeds : ∀ plan, Keeps ⟨.parked, plan⟩ → Keeps ⟨.called, plan⟩)
    (before : ∀ visitor ∈ turnstile.visitors, Keeps visitor) :
    ∀ visitor ∈ next.visitors, Keeps visitor := by
  cases step with
  | alone who here act _ =>
      intro visitor member
      rcases List.mem_or_eq_of_mem_set member with old | rfl
      · exact before visitor old
      · exact moves act (before _ (List.mem_of_getElem? here))
  | calls who whom here act there =>
      intro visitor member
      rcases List.mem_or_eq_of_mem_set member with moved | rfl
      · rcases List.mem_or_eq_of_mem_set moved with old | rfl
        · exact before visitor old
        · exact moves act (before _ (List.mem_of_getElem? here))
      · exact heeds _ (before _ (List.mem_of_getElem? there))

theorem Step.proper (step : Step turnstile passage next)
    (before : ∀ visitor ∈ turnstile.visitors, visitor.Proper) :
    ∀ visitor ∈ next.visitors, visitor.Proper := by
  refine step.keeps (fun act proper => act.proper proper) ?_ before
  intro plan proper
  exact ⟨fun _ => proper.inside nofun, nofun⟩

theorem Run.proper {permits : Nat} {plans : List Plan}
    (run : Run (opened permits plans) passages turnstile) :
    ∀ visitor ∈ turnstile.visitors, visitor.Proper := by
  refine run.keeps (fun state => ∀ visitor ∈ state.visitors, visitor.Proper) ?_ fun step kept =>
    step.proper kept
  intro visitor member
  obtain ⟨plan, _, rfl⟩ := List.mem_map.mp member
  exact ⟨fun inside => absurd rfl inside, nofun⟩

end Turnstile

end Reclaim
