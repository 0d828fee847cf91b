import Mathlib.Algebra.Order.BigOperators.Group.List
import Mathlib.Algebra.Order.Group.Nat
import Reclaim.Proofs.Turnstile.Wakeups

/-! Where a turnstile comes to rest. The permits that the plans bring and those that the waiting threads ask
for are known before anybody has begun. Whatever the order, the turnstile comes to rest, and then as
many have been served as there are permits, or all of them. A thread that takes a permit only to give it
back makes no difference. -/

namespace Reclaim

namespace Plan

def rise : Plan → Nat
  | .done => 0
  | .signal rest => rest.rise + 1
  | .wait rest => rest.rise - 1
  | .waitFor taken missed | .tryWait taken missed => max (taken.rise - 1) missed.rise

def brings : Plan → Nat
  | .done => 0
  | .signal rest => rest.brings + 1
  | .wait rest => rest.brings
  | .waitFor _ missed | .tryWait _ missed => missed.brings

def asks : Plan → Nat
  | .done => 0
  | .signal rest => rest.asks
  | .wait rest => rest.asks + 1
  | .waitFor _ missed | .tryWait _ missed => missed.asks

/-- The plan gives back every permit that it has not waited for, and parks only when it has brought all that it
brings. -/
def Orderly : Plan → Prop
  | .done => True
  | .signal rest => rest.Orderly
  | .wait rest => rest.brings = 0 ∧ rest.Orderly
  | .waitFor taken missed => missed.brings = 0 ∧ taken.brings = 1 ∧ taken.asks = missed.asks ∧
      taken.Orderly ∧ missed.Orderly
  | .tryWait taken missed => taken.brings = missed.brings + 1 ∧ taken.asks = missed.asks ∧
      taken.Orderly ∧ missed.Orderly

def calls : Plan → Nat
  | .done => 0
  | .signal rest | .wait rest => rest.calls + 1
  | .waitFor taken missed | .tryWait taken missed => max taken.calls missed.calls + 1

def poll (rest : Plan) : Plan := .tryWait (.signal rest) rest

theorem poll_orderly {rest : Plan} (orderly : rest.Orderly) :
    (poll rest).Orderly ∧ (poll rest).brings = rest.brings ∧ (poll rest).asks = rest.asks :=
  ⟨⟨rfl, rfl, orderly, orderly⟩, rfl, rfl⟩

theorem Orderly.brings_of_waits {plan : Plan} (orderly : plan.Orderly) (waits : plan.waits = true) :
    plan.brings = 0 := by
  cases plan with
  | wait | waitFor => exact orderly.1
  | done | signal | tryWait => cases waits

end Plan

namespace Visitor

variable {semaphore after : Semaphore} {old new : Visitor} {motion : Motion}

theorem Step.rise (step : old.Step semaphore motion after new) :
    after.permits + new.plan.rise ≤ semaphore.permits + old.plan.rise := by
  cases step with
  | signal sent =>
      have more := (Semaphore.signal_eq_ok.mp sent).2
      simp only [Plan.rise]
      omega
  | wait _ acquired | waitFor _ acquired =>
      have fewer := Semaphore.acquire?_eq_some.mp acquired
      simp only [Plan.rise]
      omega
  | giveUp =>
      simp only [Plan.rise]
      omega
  | @tryWait _ got _ _ tried =>
      have fewer := (Semaphore.tryAcquire_eq tried).1
      simp only [Plan.rise]
      cases got with
      | false =>
          simp only [Bool.toNat_false] at fewer
          simp only [Bool.false_eq_true, if_false]
          omega
      | true =>
          simp only [Bool.toNat_true] at fewer
          simp only [if_true]
          omega
  | park | expire | stir => exact Nat.le_refl _

/-- A permit is left over, still to be brought, or gone to a thread that waited for it. -/
theorem Step.dealings (step : old.Step semaphore motion after new) (orderly : old.plan.Orderly) :
    new.plan.Orderly ∧
      after.permits + new.plan.brings + (decide (motion = .wait)).toNat =
        semaphore.permits + old.plan.brings ∧
      new.plan.asks + (decide (motion = .wait)).toNat = old.plan.asks := by
  cases step with
  | signal sent =>
      have more := (Semaphore.signal_eq_ok.mp sent).2
      refine ⟨orderly, ?_, rfl⟩
      simp only [Plan.brings, reduceCtorEq, decide_false, Bool.toNat_false]
      omega
  | wait _ acquired =>
      have fewer := Semaphore.acquire?_eq_some.mp acquired
      refine ⟨orderly.2, ?_, rfl⟩
      simp only [Plan.brings, decide_true, Bool.toNat_true]
      omega
  | waitFor _ acquired =>
      obtain ⟨none, one, same, orderly, _⟩ := orderly
      have fewer := Semaphore.acquire?_eq_some.mp acquired
      refine ⟨orderly, ?_, same⟩
      simp only [Plan.brings, reduceCtorEq, decide_false, Bool.toNat_false]
      omega
  | giveUp => exact ⟨orderly.2.2.2.2, rfl, rfl⟩
  | @tryWait _ got _ _ tried =>
      obtain ⟨more, same, orderly, other⟩ := orderly
      have fewer := (Semaphore.tryAcquire_eq tried).1
      cases got with
      | false =>
          simp only [Bool.toNat_false] at fewer
          refine ⟨other, ?_, rfl⟩
          simp only [Plan.brings, reduceCtorEq, decide_false, Bool.toNat_false, Bool.false_eq_true,
            if_false]
          omega
      | true =>
          simp only [Bool.toNat_true] at fewer
          refine ⟨orderly, ?_, same⟩
          simp only [Plan.brings, reduceCtorEq, decide_false, Bool.toNat_false, if_true]
          omega
  | park | expire | stir => exact ⟨orderly, rfl, rfl⟩

def weight (visitor : Visitor) : Nat :=
  4 * visitor.plan.calls +
    match visitor.stand with
    | .outside | .called => 2
    | .parked => 1
    | .expired => 0

theorem weight_bounds (visitor : Visitor) :
    4 * visitor.plan.calls ≤ visitor.weight ∧ visitor.weight ≤ 4 * visitor.plan.calls + 2 := by
  unfold weight
  cases visitor.stand with
  | outside | called | parked | expired => simp

theorem Step.weight (step : old.Step semaphore motion after new) :
    new.weight + (decide (motion ≠ .stir)).toNat + (decide (motion = .signal)).toNat ≤
      old.weight + (decide (motion = .stir)).toNat := by
  have before := old.weight_bounds
  have behind := new.weight_bounds
  cases step with
  | signal | wait | waitFor | giveUp =>
      simp only [Plan.calls] at before
      simp only [ne_eq, reduceCtorEq, not_false_eq_true, decide_true, decide_false, Bool.toNat_true,
        Bool.toNat_false] at behind ⊢
      omega
  | @tryWait _ got taken missed _ =>
      have branch : (if got then taken else missed).calls ≤ max taken.calls missed.calls := by
        cases got with
        | false => exact Nat.le_max_right _ _
        | true => exact Nat.le_max_left _ _
      simp only [Plan.calls] at before
      simp only [ne_eq, reduceCtorEq, not_false_eq_true, decide_true, decide_false, Bool.toNat_true,
        Bool.toNat_false] at behind ⊢
      omega
  | park looks =>
      rcases looks with rfl | rfl
      · simp [Visitor.weight]
      · simp [Visitor.weight]
  | expire | stir => simp [Visitor.weight]

end Visitor

namespace Turnstile

variable {first turnstile next : Turnstile} {passages : List Passage} {passage : Passage}
  {permits : Nat} {plans : List Plan}

def acquired (passages : List Passage) : Nat := passages.countP (·.motion.takes)

def signalled (passages : List Passage) : Nat := passages.countP fun passage =>
  decide (passage.motion = .signal)

def returned (passages : List Passage) : Nat := passages.countP fun passage =>
  decide (passage.motion = .wait)

def stirred (passages : List Passage) : Nat := passages.countP fun passage =>
  decide (passage.motion = .stir)

def brought (plans : List Plan) : Nat := (plans.map Plan.brings).sum

def awaited (plans : List Plan) : Nat := (plans.map Plan.asks).sum

def reach (permits : Nat) (plans : List Plan) : Nat := permits + (plans.map Plan.rise).sum

def effort (plans : List Plan) : Nat := (plans.map fun plan => 4 * plan.calls + 2).sum

theorem countP_snoc (test : Passage → Bool) (passages : List Passage) (passage : Passage) :
    (passages ++ [passage]).countP test = passages.countP test + (test passage).toNat := by
  cases met : test passage <;> simp [met]

theorem Step.exchange (step : Step turnstile passage next) :
    next.semaphore.permits + passage.motion.takes.toNat =
      turnstile.semaphore.permits + (decide (passage.motion = .signal)).toNat := by
  obtain ⟨_, _, _, act, _⟩ := step.acts
  exact act.permits

theorem Run.balance (run : Run (opened permits plans) passages turnstile) :
    turnstile.semaphore.permits + acquired passages = permits + signalled passages := by
  induction run with
  | nil => rfl
  | snoc _ step ih =>
      have moved := step.exchange
      unfold acquired signalled at ih ⊢
      rw [countP_snoc, countP_snoc]
      omega

theorem total_opened (measure : Plan → Nat) (permits : Nat) (plans : List Plan) :
    (opened permits plans).total (fun visitor => measure visitor.plan) = (plans.map measure).sum := by
  unfold total opened
  rw [List.map_map]
  rfl

theorem Run.rise (run : Run (opened permits plans) passages turnstile) :
    turnstile.semaphore.permits + turnstile.total (fun visitor => visitor.plan.rise) ≤
      reach permits plans := by
  induction run with
  | nil =>
      rw [total_opened]
      exact Nat.le_refl _
  | snoc _ step ih =>
      obtain ⟨old, new, _, act, moved⟩ := step.acts
      have rises := act.rise
      have shift := moved Plan.rise
      omega

theorem Run.room (run : Run (opened permits plans) passages turnstile)
    (room : reach permits plans < Word.limit) {rest : Plan}
    (member : ⟨.outside, .signal rest⟩ ∈ turnstile.visitors) :
    turnstile.semaphore.permits + 1 < Word.limit := by
  have bound := run.rise
  have one : rest.rise + 1 ≤ turnstile.total fun visitor => visitor.plan.rise :=
    List.single_le_sum (fun _ _ => Nat.zero_le _) _ (List.mem_map.mpr ⟨_, member, rfl⟩)
  omega

theorem Run.dealings (orderly : ∀ plan ∈ plans, plan.Orderly)
    (run : Run (opened permits plans) passages turnstile) :
    (∀ visitor ∈ turnstile.visitors, visitor.plan.Orderly) ∧
      turnstile.semaphore.permits + turnstile.total (fun visitor => visitor.plan.brings) +
        returned passages = permits + brought plans ∧
      turnstile.total (fun visitor => visitor.plan.asks) + returned passages = awaited plans := by
  induction run with
  | nil =>
      refine ⟨?_, ?_, ?_⟩
      · intro visitor member
        obtain ⟨plan, inside, rfl⟩ := List.mem_map.mp member
        exact orderly plan inside
      · rw [total_opened]
        rfl
      · rw [total_opened]
        rfl
  | snoc _ step ih =>
      obtain ⟨each, permits, waiting⟩ := ih
      obtain ⟨old, new, member, act, moved⟩ := step.acts
      obtain ⟨_, brings, asks⟩ := act.dealings (each old member)
      have bringing := moved Plan.brings
      have asking := moved Plan.asks
      unfold returned at permits waiting ⊢
      rw [countP_snoc]
      refine ⟨?_, ?_, ?_⟩
      · exact step.keeps (fun act orderly => (act.dealings orderly).1) (fun _ orderly => orderly) each
      · omega
      · omega

theorem Step.weight (step : Step turnstile passage next) :
    next.total Visitor.weight + (decide (passage.motion ≠ .stir)).toNat ≤
      turnstile.total Visitor.weight + (decide (passage.motion = .stir)).toNat := by
  cases step with
  | @alone semaphore after visitors old new motion who here act nobody =>
      have moved := total_set Visitor.weight semaphore after here new
      have lighter := act.weight
      dsimp only at moved ⊢
      omega
  | @calls semaphore after visitors old new plan who whom here act there =>
      have moved := total_calls Visitor.weight here act there
      have lighter := act.weight
      have heavier : Visitor.weight ⟨.called, plan⟩ = Visitor.weight ⟨.parked, plan⟩ + 1 := rfl
      simp only [decide_true, Bool.toNat_true] at lighter
      dsimp only at moved ⊢
      omega

theorem Run.brief (run : Run (opened permits plans) passages turnstile) :
    passages.length + turnstile.total Visitor.weight ≤ effort plans + 2 * stirred passages := by
  induction run with
  | nil =>
      have start : (opened permits plans).total Visitor.weight = effort plans := by
        unfold total opened effort
        rw [List.map_map]
        rfl
      rw [start]
      exact Nat.le_of_eq (Nat.zero_add _)
  | @snoc _ passage _ _ _ step ih =>
      have lighter := step.weight
      unfold stirred at ih ⊢
      rw [countP_snoc, List.length_append, List.length_singleton]
      by_cases stir : passage.motion = .stir
      · simp [stir] at lighter ⊢
        omega
      · simp [stir] at lighter ⊢
        omega

structure Kept (permits : Nat) (plans : List Plan) (passages : List Passage) (turnstile : Turnstile) :
    Prop where
  balance : turnstile.semaphore.permits + acquired passages = permits + signalled passages
  takes : ∀ passage next, Step turnstile passage next → passage.motion.takes = true →
    turnstile.semaphore.permits = next.semaphore.permits + 1
  spares : ∀ passage next, Step turnstile passage next → passage.motion.takes = false →
    passage.motion ≠ .signal → next.semaphore = turnstile.semaphore
  refuses : ∀ passage next, Step turnstile passage next → passage.motion.refuses = true →
    turnstile.semaphore.permits = 0
  sends : ∀ (who : Nat) rest, turnstile.visitors[who]? = some ⟨.outside, .signal rest⟩ →
    ∃ whom next, Step turnstile ⟨who, .signal, whom⟩ next
  covered : 0 < turnstile.number .parked →
    turnstile.semaphore.permits ≤ turnstile.number .called
  still : Still turnstile → 0 < turnstile.number .parked → turnstile.semaphore.permits = 0
  settled : (∀ plan ∈ plans, plan.Orderly) → Still turnstile →
    returned passages = min (awaited plans) (permits + brought plans) ∧
      turnstile.semaphore.permits = permits + brought plans - returned passages
  brief : passages.length ≤ effort plans + 2 * stirred passages

theorem Run.settled (run : Run (opened permits plans) passages turnstile)
    (room : reach permits plans < Word.limit) (orderly : ∀ plan ∈ plans, plan.Orderly)
    (still : Still turnstile) :
    returned passages = min (awaited plans) (permits + brought plans) ∧
      turnstile.semaphore.permits = permits + brought plans - returned passages := by
  obtain ⟨each, balance, waiting⟩ := run.dealings orderly
  have resting : ∀ visitor ∈ turnstile.visitors,
      visitor.stand = .parked ∨ visitor = ⟨.outside, .done⟩ := by
    intro visitor member
    refine still.rest member (run.proper visitor member) ?_
    rintro rest rfl
    exact run.room room member
  have nothing : turnstile.total (fun visitor => visitor.plan.brings) = 0 := by
    refine List.sum_eq_zero ?_
    refine List.forall_mem_map.mpr ?_
    intro visitor member
    rcases resting visitor member with parked | rfl
    · have inside := (run.proper visitor member).inside (by rw [parked]; exact nofun)
      exact (each visitor member).brings_of_waits inside
    · rfl
  by_cases parked : 0 < turnstile.number .parked
  · have none := run.covered.still run.proper still parked
    omega
  · -- Nobody is parked, so everybody is done and has been served as often as planned.
    have nobody := number_eq_zero.mp (Nat.eq_zero_of_not_pos parked)
    have finished : turnstile.total (fun visitor => visitor.plan.asks) = 0 := by
      refine List.sum_eq_zero ?_
      refine List.forall_mem_map.mpr ?_
      intro visitor member
      rcases resting visitor member with inside | rfl
      · exact absurd inside (nobody visitor member)
      · rfl
    omega

/-- Permits are neither lost nor made up. A turnstile that is still leaves no permit to those who
are parked, and if the plans give back what they only try for, it has served as many waiting threads
as it had permits for. -/
theorem Run.permits_kept (run : Run (opened permits plans) passages turnstile)
    (room : reach permits plans < Word.limit) : Kept permits plans passages turnstile := by
  constructor
  · exact run.balance
  · intro passage next step takes
    have moved := step.exchange
    have mute : passage.motion ≠ .signal := by
      intro same
      rw [same] at takes
      cases takes
    rw [takes, decide_eq_false mute] at moved
    exact moved.symm
  · intro passage next step spares mute
    have moved := step.exchange
    rw [spares, decide_eq_false mute] at moved
    exact congrArg Semaphore.mk moved
  · intro passage next step refuses
    obtain ⟨_, _, _, act, _⟩ := step.acts
    exact (act.refused refuses).1
  · intro who rest here
    have fits := run.room room (List.mem_of_getElem? here)
    have sent : turnstile.semaphore.signal = .ok ⟨turnstile.semaphore.permits + 1⟩ :=
      Semaphore.signal_eq_ok.mpr ⟨fits, rfl⟩
    exact step_of_act here (.signal sent)
  · exact run.covered
  · intro still parked
    exact run.covered.still run.proper still parked
  · intro orderly still
    exact run.settled room orderly still
  · have bound := run.brief
    omega

def samplePlans : List Plan := [.wait .done, .wait .done, .signal .done, .poll .done]

def samplePassages : List Passage :=
  -- The poll is faster than the thread that is called, which parks again; for the permit that
  -- comes back the other one is called.
  [⟨0, .park, none⟩, ⟨1, .park, none⟩, ⟨2, .signal, some 0⟩, ⟨3, .tryWait true, none⟩,
    ⟨0, .park, none⟩, ⟨3, .signal, some 1⟩, ⟨1, .wait, none⟩]

def sampleEnd : Turnstile :=
  ⟨⟨0⟩, [⟨.parked, .wait .done⟩, ⟨.outside, .done⟩, ⟨.outside, .done⟩, ⟨.outside, .done⟩]⟩

theorem samplePassages_kept : Run (opened 0 samplePlans) samplePassages sampleEnd ∧
    (∀ plan ∈ samplePlans, plan.Orderly) ∧ Still sampleEnd ∧ returned samplePassages = 1 ∧
    reach 0 samplePlans < Word.limit ∧ Kept 0 samplePlans samplePassages sampleEnd := by
  have first : Run (opened 0 samplePlans) _ _ :=
    .snoc .nil (.alone 0 rfl (.park (.inl rfl) rfl rfl) nofun)
  have both : Run (opened 0 samplePlans) _ _ :=
    .snoc first (.alone 1 rfl (.park (.inl rfl) rfl rfl) nofun)
  have brought : Run (opened 0 samplePlans) _ _ := .snoc both (.calls 2 0 rfl (.signal rfl) rfl)
  have stolen : Run (opened 0 samplePlans) _ _ := .snoc brought (.alone 3 rfl (.tryWait rfl) nofun)
  have again : Run (opened 0 samplePlans) _ _ :=
    .snoc stolen (.alone 0 rfl (.park (.inr rfl) rfl rfl) nofun)
  have back : Run (opened 0 samplePlans) _ _ := .snoc again (.calls 3 1 rfl (.signal rfl) rfl)
  have run : Run (opened 0 samplePlans) samplePassages sampleEnd :=
    .snoc back (.alone 1 rfl (.wait nofun rfl) nofun)
  have orderly : ∀ plan ∈ samplePlans, plan.Orderly := by
    intro plan member
    simp only [samplePlans, List.mem_cons, List.not_mem_nil, or_false] at member
    rcases member with rfl | rfl | rfl | rfl
    · exact ⟨rfl, trivial⟩
    · exact ⟨rfl, trivial⟩
    · exact trivial
    · exact (@Plan.poll_orderly .done trivial).1
  have room : reach 0 samplePlans < Word.limit := by decide
  exact ⟨run, orderly, still_of_rest (by decide), by decide, room, run.permits_kept room⟩

end Turnstile

end Reclaim
