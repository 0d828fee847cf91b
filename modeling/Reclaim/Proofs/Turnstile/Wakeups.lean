import Reclaim.Proofs.Turnstile.Basic

/-! Wakeups at a turnstile. A called thread may find that its permit has been taken, and parks again. But a
permit is only ever left over while enough threads are on their way to it, so as long as one is parked
there is no permit that nobody has been called for. -/

namespace Reclaim

namespace Visitor

variable {semaphore after : Semaphore} {old new : Visitor} {motion : Motion}

/-- Whoever moves leaves no permit, or stays awake and takes one if it had been called for one. -/
theorem Step.cover (step : old.Step semaphore motion after new) (mute : motion ≠ .signal) :
    after.permits = 0 ∨ new.stand ≠ .parked ∧
      after.permits + (if old.stand = .called then 1 else 0) ≤
        semaphore.permits + (if new.stand = .called then 1 else 0) := by
  have fewer := step.permits
  cases step with
  | signal => exact absurd rfl mute
  | @wait _ stand | @waitFor _ stand =>
      right
      refine ⟨nofun, ?_⟩
      have one : (if stand = .called then 1 else 0) ≤ 1 := by split <;> decide
      simp only [Motion.takes, Bool.toNat_true, reduceCtorEq, decide_false, Bool.toNat_false] at fewer
      dsimp only
      omega
  | giveUp empty | park _ _ empty => exact Or.inl (Semaphore.acquire?_eq_none.mp empty)
  | tryWait =>
      right
      refine ⟨nofun, ?_⟩
      simp only [reduceCtorEq, decide_false, Bool.toNat_false] at fewer
      simp only [reduceCtorEq, if_false]
      omega
  | expire => exact Or.inr ⟨nofun, Nat.le_refl _⟩
  | stir => exact Or.inr ⟨nofun, by simp⟩

theorem Step.idle (step : old.Step semaphore motion after new)
    (rest : old.stand = .parked ∨ old = ⟨.outside, .done⟩) : motion.unbidden = true := by
  rcases rest with parked | rfl
  · cases step with
    | expire | stir => rfl
    | wait awake | waitFor awake => exact absurd parked awake
    | signal | giveUp | tryWait => cases parked
    | park looks =>
        rcases looks with rfl | rfl
        · cases parked
        · cases parked
  · cases step with
    | park _ waits => cases waits

end Visitor

namespace Turnstile

variable {first turnstile next : Turnstile} {passages : List Passage} {passage : Passage}
  {semaphore after : Semaphore} {visitors : List Visitor} {old new : Visitor} {who whom : Nat}
  {plan : Plan} {motion : Motion}

def Covered (turnstile : Turnstile) : Prop :=
  0 < turnstile.number .parked → turnstile.semaphore.permits ≤ turnstile.number .called

theorem covered_opened (permits : Nat) (plans : List Plan) : Covered (opened permits plans) := by
  have nobody : (opened permits plans).number .parked = 0 := by
    apply number_eq_zero.mpr
    intro visitor member
    obtain ⟨plan, _, rfl⟩ := List.mem_map.mp member
    exact nofun
  intro parked
  omega

theorem Covered.move (covered : Covered ⟨semaphore, visitors⟩) (here : visitors[who]? = some old)
    (act : old.Step semaphore motion after new) (mute : motion ≠ .signal) :
    Covered ⟨after, visitors.set who new⟩ := by
  intro parked
  rcases act.cover mute with empty | ⟨awake, cover⟩
  · dsimp only
    omega
  · have fewer : number .parked ⟨after, visitors.set who new⟩ + _ =
        number .parked ⟨semaphore, visitors⟩ + _ := total_set _ semaphore after here new
    have calls : number .called ⟨after, visitors.set who new⟩ + _ =
        number .called ⟨semaphore, visitors⟩ + _ := total_set _ semaphore after here new
    rw [if_neg awake] at fewer
    have before := covered (by omega)
    dsimp only at before ⊢
    omega

theorem Covered.signalNobody (here : visitors[who]? = some old)
    (act : old.Step semaphore .signal after new)
    (nobody : ∀ visitor ∈ visitors, visitor.stand ≠ .parked) :
    Covered ⟨after, visitors.set who new⟩ := by
  have none : number .parked ⟨after, visitors.set who new⟩ = 0 := by
    apply number_eq_zero.mpr
    intro visitor member
    rcases List.mem_or_eq_of_mem_set member with before | rfl
    · exact nobody visitor before
    · cases act
      exact nofun
  intro parked
  omega

theorem Covered.signal (covered : Covered ⟨semaphore, visitors⟩) (here : visitors[who]? = some old)
    (act : old.Step semaphore .signal after new) (there : visitors[whom]? = some ⟨.parked, plan⟩) :
    Covered ⟨after, (visitors.set who new).set whom ⟨.called, plan⟩⟩ := by
  have parked := total_calls (fun visitor => if visitor.stand = .parked then 1 else 0) here act there
  have called := total_calls (fun visitor => if visitor.stand = .called then 1 else 0) here act there
  cases act with
  | signal sent =>
      have more := (Semaphore.signal_eq_ok.mp sent).2
      intro some
      unfold number at some ⊢
      simp only [reduceCtorEq, if_true, if_false] at parked called
      have before := covered (by unfold number; omega)
      unfold number at before
      dsimp only at before ⊢
      omega

theorem Covered.step (covered : Covered turnstile) (step : Step turnstile passage next) :
    Covered next := by
  cases step with
  | @alone _ _ _ _ _ motion _ here act nobody =>
      by_cases sends : motion = .signal
      · subst sends
        exact Covered.signalNobody here act (nobody rfl)
      · exact covered.move here act sends
  | calls _ _ here act there => exact covered.signal here act there

theorem Run.covered {permits : Nat} {plans : List Plan}
    (run : Run (opened permits plans) passages turnstile) : Covered turnstile :=
  run.keeps Covered (covered_opened permits plans) fun step kept => kept.step step

/-- What a thread can do the turnstile can do; a signal finds somebody to call, or there is nobody. -/
theorem step_of_act (here : turnstile.visitors[who]? = some old)
    (act : old.Step turnstile.semaphore motion after new) :
    ∃ whom next, Step turnstile ⟨who, motion, whom⟩ next := by
  by_cases sends : motion = .signal
  · subst sends
    by_cases nobody : ∀ visitor ∈ turnstile.visitors, visitor.stand ≠ .parked
    · exact ⟨_, _, .alone who here act fun _ => nobody⟩
    · simp only [ne_eq, not_forall, not_not] at nobody
      obtain ⟨⟨stand, plan⟩, member, parked⟩ := nobody
      obtain ⟨whom, there⟩ := List.mem_iff_getElem?.mp member
      dsimp only at parked
      subst parked
      exact ⟨_, _, .calls who whom here act there⟩
  · exact ⟨_, _, .alone who here act fun same => absurd same sends⟩

def Still (turnstile : Turnstile) : Prop :=
  ∀ passage next, Step turnstile passage next → passage.motion.unbidden = true

theorem Still.rest (still : Still turnstile) {visitor : Visitor}
    (member : visitor ∈ turnstile.visitors) (proper : visitor.Proper)
    (room : ∀ rest, visitor = ⟨.outside, .signal rest⟩ →
      turnstile.semaphore.permits + 1 < Word.limit) :
    visitor.stand = .parked ∨ visitor = ⟨.outside, .done⟩ := by
  by_contra busy
  rw [not_or] at busy
  obtain ⟨who, here⟩ := List.mem_iff_getElem?.mp member
  obtain ⟨motion, after, new, bidden, act⟩ := proper.goes busy.1 busy.2 room
  obtain ⟨whom, next, step⟩ := step_of_act here act
  have unbidden := still _ _ step
  rw [bidden] at unbidden
  cases unbidden

/-- A called thread goes on, so in a still turnstile no permit is left to those who are parked. -/
theorem Covered.still (covered : Covered turnstile)
    (proper : ∀ visitor ∈ turnstile.visitors, visitor.Proper) (still : Still turnstile)
    (parked : 0 < turnstile.number .parked) : turnstile.semaphore.permits = 0 := by
  by_contra some
  have enough := covered parked
  have called : ¬ ∀ visitor ∈ turnstile.visitors, visitor.stand ≠ .called := by
    intro nobody
    have none := number_eq_zero.mpr nobody
    omega
  simp only [ne_eq, not_forall, not_not] at called
  obtain ⟨visitor, member, stand⟩ := called
  have inside : visitor.stand ≠ .outside := by
    rw [stand]
    exact nofun
  rcases still.rest member (proper visitor member)
    (fun rest same => absurd (by rw [same]) inside) with parked | rfl
  · rw [stand] at parked
    cases parked
  · exact inside rfl

theorem still_of_rest
    (rest : ∀ visitor ∈ turnstile.visitors, visitor.stand = .parked ∨ visitor = ⟨.outside, .done⟩) :
    Still turnstile := by
  intro passage next step
  obtain ⟨old, new, member, act, _⟩ := step.acts
  exact act.idle (rest old member)

end Turnstile

end Reclaim
