import Reclaim.Proofs.Turnstile.Settled

/-! Threads that gather at a semaphore. The counts of a crowd stand for a turnstile: so many threads have been
served, so many are called, so many are parked, so many have not come yet, so many have given up, and one
more thread brings the permits. What a semaphore does with a crowd in one go is one run of the turnstile,
and it ends where the turnstile is still. -/

namespace Reclaim

namespace Plan

def waiter (patient : Bool) : Plan := if patient then .wait .done else .waitFor .done .done

def burst : Nat → Plan
  | 0 => .done
  | count + 1 => .signal (burst count)

theorem waiter_waits (patient : Bool) : (waiter patient).waits = true := by
  cases patient with
  | false => rfl
  | true => rfl

end Plan

namespace Semaphore.Crowd

variable {crowd next : Crowd} {patient : Bool} {fresh unsent : Nat}

def visitors (crowd : Crowd) (patient : Bool) (fresh unsent : Nat) : List Visitor :=
  List.replicate crowd.served ⟨.outside, .done⟩ ++
    (List.replicate crowd.woken ⟨.called, .waiter patient⟩ ++
      (List.replicate crowd.parked ⟨.parked, .waiter patient⟩ ++
        (List.replicate fresh ⟨.outside, .waiter patient⟩ ++
          (List.replicate crowd.expired ⟨.outside, .done⟩ ++ [⟨.outside, .burst unsent⟩]))))

def turnstile (crowd : Crowd) (patient : Bool) (fresh unsent : Nat) : Turnstile :=
  ⟨⟨crowd.permits⟩, crowd.visitors patient fresh unsent⟩

structure Level (crowd : Crowd) : Prop where
  enough : crowd.woken ≤ crowd.permits
  exactly : 0 < crowd.parked → crowd.permits = crowd.woken
  stays : crowd.expired = 0

theorem expires_eq (count : Nat) (crowd : Crowd) :
    (times expire count crowd).served = crowd.served ∧
      (times expire count crowd).woken = crowd.woken := by
  induction count generalizing crowd with
  | zero => exact ⟨rfl, rfl⟩
  | succ count ih =>
      have same : crowd.expire.served = crowd.served ∧ crowd.expire.woken = crowd.woken := by
        unfold expire
        split
        · exact ⟨rfl, rfl⟩
        · exact ⟨rfl, rfl⟩
      obtain ⟨served, woken⟩ := ih crowd.expire
      exact ⟨served.trans same.1, woken.trans same.2⟩

/-- Once everybody has come and every permit has been brought, only called threads go on. -/
theorem still (crowd : Crowd) (patient : Bool) (awake : crowd.woken = 0) :
    (crowd.turnstile patient 0 0).Still := by
  apply Turnstile.still_of_rest
  intro visitor member
  simp only [turnstile, visitors, awake, List.replicate_zero, List.nil_append, List.mem_append,
    List.mem_replicate, List.mem_singleton] at member
  rcases member with ⟨_, rfl⟩ | ⟨_, rfl⟩ | ⟨_, rfl⟩ | rfl
  · exact Or.inr rfl
  · exact Or.inl rfl
  · exact Or.inr rfl
  · exact Or.inr rfl

end Semaphore.Crowd

namespace Turnstile

open Semaphore

variable {first : Turnstile} {crowd next : Crowd} {patient : Bool} {fresh unsent others left sends waiters : Nat}
  {semaphore after : Semaphore} {early late : List Visitor} {old new : Visitor} {motion : Motion}
  {plan : Plan}

theorem step_between (act : old.Step semaphore motion after new)
    (nobody : motion = .signal → ∀ visitor ∈ early ++ old :: late, visitor.stand ≠ .parked) :
    Step ⟨semaphore, early ++ old :: late⟩ ⟨early.length, motion, none⟩
      ⟨after, early ++ new :: late⟩ := by
  have here : (early ++ old :: late)[early.length]? = some old := by simp
  have step := Step.alone early.length here act nobody
  rwa [show (early ++ old :: late).set early.length new = early ++ new :: late by simp] at step

theorem step_last_calls (act : old.Step semaphore .signal after new) :
    Step ⟨semaphore, early ++ ⟨.parked, plan⟩ :: late ++ [old]⟩
      ⟨(early ++ ⟨.parked, plan⟩ :: late).length, .signal, some early.length⟩
      ⟨after, early ++ ⟨.called, plan⟩ :: late ++ [new]⟩ := by
  have here : (early ++ ⟨.parked, plan⟩ :: late ++ [old])[
      (early ++ ⟨.parked, plan⟩ :: late).length]? = some old := List.getElem?_concat_length
  have there : (early ++ ⟨.parked, plan⟩ :: late ++ [old])[early.length]? =
      some ⟨.parked, plan⟩ := by simp
  have step := Step.calls _ early.length here act there
  have moved : ((early ++ ⟨.parked, plan⟩ :: late ++ [old]).set
      (early ++ ⟨.parked, plan⟩ :: late).length new).set early.length ⟨.called, plan⟩ =
        early ++ ⟨.called, plan⟩ :: late ++ [new] := by simp
  rwa [moved] at step

theorem Step.visitors_length {turnstile next : Turnstile} {passage : Passage}
    (step : Step turnstile passage next) : next.visitors.length = turnstile.visitors.length := by
  cases step with
  | alone => exact List.length_set
  | calls =>
      rw [List.length_set]
      exact List.length_set

theorem Run.visitors_length {turnstile : Turnstile} {passages : List Passage}
    (run : Run first passages turnstile) :
    turnstile.visitors.length = first.visitors.length :=
  run.keeps (·.visitors.length = first.visitors.length) rfl fun step kept =>
    step.visitors_length.trans kept

def gathering (semaphore : Semaphore) (waiters signals : Nat) (patient : Bool) : Turnstile :=
  opened semaphore.permits (List.replicate waiters (.waiter patient) ++ [.burst signals])

theorem start_turnstile (semaphore : Semaphore) (waiters signals : Nat) (patient : Bool) :
    (Crowd.start semaphore).turnstile patient waiters signals =
      gathering semaphore waiters signals patient := by
  simp [Crowd.start, Crowd.turnstile, Crowd.visitors, gathering, opened]

def Reaches (sends : Nat) (first : Turnstile) (crowd : Crowd) (patient : Bool)
    (fresh unsent : Nat) : Prop :=
  ∃ passages, Run first passages (crowd.turnstile patient fresh unsent) ∧
    acquired passages = crowd.served ∧ signalled passages + unsent = sends

namespace Reaches

theorem move (reaches : Reaches sends first crowd patient fresh unsent)
    (early late : List Visitor)
    (before : crowd.visitors patient fresh unsent = early ++ old :: late)
    (act : old.Step ⟨crowd.permits⟩ motion ⟨next.permits⟩ new)
    (nobody : motion = .signal → ∀ visitor ∈ crowd.visitors patient fresh unsent,
      visitor.stand ≠ .parked)
    (behind : next.visitors patient others left = early ++ new :: late)
    (served : next.served = crowd.served + motion.takes.toNat)
    (sent : left + (decide (motion = .signal)).toNat = unsent) :
    Reaches sends first next patient others left := by
  obtain ⟨passages, run, count, signals⟩ := reaches
  unfold Crowd.turnstile at run
  rw [before] at run nobody
  have moved := run.snoc (step_between act nobody)
  rw [← behind] at moved
  refine ⟨_, moved, ?_, ?_⟩
  · rw [served, ← count]
    exact countP_snoc _ passages _
  · unfold signalled at signals ⊢
    rw [countP_snoc]
    dsimp only
    omega

theorem call (reaches : Reaches sends first crowd patient fresh (left + 1))
    (early late : List Visitor)
    (before : crowd.visitors patient fresh (left + 1) =
      early ++ ⟨.parked, .waiter patient⟩ :: late ++ [old])
    (act : old.Step ⟨crowd.permits⟩ .signal ⟨next.permits⟩ new)
    (behind : next.visitors patient others left =
      early ++ ⟨.called, .waiter patient⟩ :: late ++ [new])
    (served : next.served = crowd.served) : Reaches sends first next patient others left := by
  obtain ⟨passages, run, count, signals⟩ := reaches
  unfold Crowd.turnstile at run
  rw [before] at run
  have moved := run.snoc (step_last_calls act)
  rw [← behind] at moved
  refine ⟨_, moved, ?_, ?_⟩
  · rw [served, ← count]
    exact countP_snoc _ passages _
  · unfold signalled at signals ⊢
    rw [countP_snoc]
    simp only [decide_true, Bool.toNat_true]
    omega

theorem pass (reaches : Reaches sends first crowd patient fresh unsent) (stand : Stand)
    (early late : List Visitor) (awake : stand ≠ .parked) (fewer : crowd.permits = next.permits + 1)
    (before : crowd.visitors patient fresh unsent = early ++ ⟨stand, .waiter patient⟩ :: late)
    (behind : next.visitors patient others unsent = early ++ ⟨.outside, .done⟩ :: late)
    (served : next.served = crowd.served + 1) :
    Reaches sends first next patient others unsent := by
  have acquired : (⟨crowd.permits⟩ : Semaphore).acquire? = some ⟨next.permits⟩ :=
    Semaphore.acquire?_eq_some.mpr fewer
  cases patient with
  | false =>
      exact reaches.move early late before (.waitFor awake acquired) nofun behind served rfl
  | true => exact reaches.move early late before (.wait awake acquired) nofun behind served rfl

theorem look (reaches : Reaches sends first crowd patient (fresh + 1) unsent) (level : crowd.Level)
    (awake : crowd.woken = 0) :
    Reaches sends first crowd.look patient fresh unsent ∧ crowd.look.Level ∧ crowd.look.woken = 0 := by
  obtain ⟨permits, parked, woken, served, expired⟩ := crowd
  obtain rfl : woken = 0 := awake
  cases permits with
  | zero =>
      refine ⟨?_, ⟨Nat.le_refl _, fun _ => rfl, level.stays⟩, rfl⟩
      have looks : Visitor.Step ⟨0⟩ ⟨.outside, .waiter patient⟩ .park ⟨0⟩
          ⟨.parked, .waiter patient⟩ :=
        .park (.inl rfl) (Plan.waiter_waits patient) rfl
      refine reaches.move (List.replicate served ⟨.outside, .done⟩ ++
          List.replicate parked ⟨.parked, .waiter patient⟩)
        (List.replicate fresh ⟨.outside, .waiter patient⟩ ++
          (List.replicate expired ⟨.outside, .done⟩ ++ [⟨.outside, .burst unsent⟩]))
        ?_ looks nofun ?_ rfl rfl
      · simp [Crowd.visitors, List.replicate_succ]
      · simp [Crowd.visitors, Crowd.look, List.replicate_succ']
  | succ permits =>
      -- A parked thread would have left no permit.
      have nobody : parked = 0 := by
        by_contra some
        have none : permits + 1 = 0 := level.exactly (Nat.pos_of_ne_zero some)
        omega
      subst nobody
      refine ⟨?_, ⟨Nat.zero_le _, fun parked => absurd parked (Nat.lt_irrefl _), level.stays⟩, rfl⟩
      refine reaches.pass .outside (List.replicate served ⟨.outside, .done⟩)
        (List.replicate fresh ⟨.outside, .waiter patient⟩ ++
          (List.replicate expired ⟨.outside, .done⟩ ++ [⟨.outside, .burst unsent⟩]))
        nofun rfl ?_ ?_ rfl
      · simp [Crowd.visitors, List.replicate_succ]
      · simp [Crowd.visitors, Crowd.look, List.replicate_succ']

theorem signal (reaches : Reaches sends first crowd patient 0 (unsent + 1)) (level : crowd.Level)
    (room : crowd.permits + 1 < Word.limit) : ∃ next, crowd.signal = .ok next ∧
      Reaches sends first next patient 0 unsent ∧ next.Level ∧ next.permits = crowd.permits + 1 := by
  obtain ⟨permits, parked, woken, served, expired⟩ := crowd
  have enough := level.enough
  have exactly := level.exactly
  dsimp only at room enough exactly
  have sent : Visitor.Step ⟨permits⟩ ⟨.outside, .burst (unsent + 1)⟩ .signal ⟨permits + 1⟩
      ⟨.outside, .burst unsent⟩ := .signal (Semaphore.signal_eq_ok.mpr ⟨room, rfl⟩)
  unfold Crowd.signal
  rw [show Word.add permits 1 = .ok (permits + 1) from Word.add_eq_ok.mpr ⟨room, rfl⟩]
  cases parked with
  | zero =>
      refine ⟨_, rfl, ?_, ⟨by dsimp only; omega, fun some => absurd some (Nat.lt_irrefl _),
        level.stays⟩, rfl⟩
      refine reaches.move (List.replicate served ⟨.outside, .done⟩ ++
          (List.replicate woken ⟨.called, .waiter patient⟩ ++
            List.replicate expired ⟨.outside, .done⟩)) [] ?_ sent ?_ ?_ rfl rfl
      · simp [Crowd.visitors]
      · intro _ visitor member
        simp only [Crowd.visitors, List.replicate_zero, List.nil_append, List.mem_append,
          List.mem_replicate, List.mem_singleton] at member
        rcases member with ⟨_, rfl⟩ | ⟨_, rfl⟩ | ⟨_, rfl⟩ | rfl <;> exact nofun
      · simp [Crowd.visitors]
  | succ parked =>
      have same := exactly (Nat.zero_lt_succ _)
      refine ⟨_, rfl, ?_, ⟨by dsimp only; omega, fun _ => by dsimp only; omega, level.stays⟩, rfl⟩
      refine reaches.call (List.replicate served ⟨.outside, .done⟩ ++
          List.replicate woken ⟨.called, .waiter patient⟩)
        (List.replicate parked ⟨.parked, .waiter patient⟩ ++
          List.replicate expired ⟨.outside, .done⟩) ?_ sent ?_ rfl
      · simp [Crowd.visitors, List.replicate_succ]
      · simp [Crowd.visitors, List.replicate_succ']

theorem resume (reaches : Reaches sends first crowd patient 0 unsent) (level : crowd.Level)
    (called : 0 < crowd.woken) : Reaches sends first crowd.resume patient 0 unsent ∧
      crowd.resume.Level ∧ crowd.resume.woken + 1 = crowd.woken := by
  obtain ⟨permits, parked, woken, served, expired⟩ := crowd
  have enough := level.enough
  have exactly := level.exactly
  dsimp only at called enough exactly
  obtain ⟨woken, rfl⟩ := Nat.exists_eq_succ_of_ne_zero (Nat.ne_of_gt called)
  obtain ⟨permits, rfl⟩ := Nat.exists_eq_succ_of_ne_zero (by omega : permits ≠ 0)
  refine ⟨?_, ⟨Nat.le_of_succ_le_succ enough, fun parked => Nat.succ.inj (exactly parked),
    level.stays⟩, rfl⟩
  refine reaches.pass .called (List.replicate served ⟨.outside, .done⟩)
    (List.replicate woken ⟨.called, .waiter patient⟩ ++
      (List.replicate parked ⟨.parked, .waiter patient⟩ ++
        (List.replicate expired ⟨.outside, .done⟩ ++ [⟨.outside, .burst unsent⟩])))
    nofun rfl ?_ ?_ rfl
  · simp [Crowd.visitors, List.replicate_succ]
  · simp [Crowd.visitors, Crowd.resume, Crowd.look, List.replicate_succ']

theorem expire (reaches : Reaches sends first crowd false 0 unsent) (empty : crowd.permits = 0)
    (some : 0 < crowd.parked) : Reaches sends first crowd.expire false 0 unsent ∧
      crowd.expire.permits = 0 ∧ crowd.expire.parked + 1 = crowd.parked := by
  obtain ⟨permits, parked, woken, served, expired⟩ := crowd
  dsimp only at empty some
  subst empty
  obtain ⟨parked, rfl⟩ := Nat.exists_eq_succ_of_ne_zero (Nat.ne_of_gt some)
  refine ⟨?_, rfl, rfl⟩
  obtain ⟨passages, run, count, signals⟩ := reaches
  have before : Crowd.turnstile ⟨0, parked + 1, woken, served, expired⟩ false 0 unsent =
      ⟨⟨0⟩, (List.replicate served ⟨.outside, .done⟩ ++
        (List.replicate woken ⟨.called, .waiter false⟩ ++
          List.replicate parked ⟨.parked, .waiter false⟩)) ++ ⟨.parked, .waiter false⟩ ::
        (List.replicate expired ⟨.outside, .done⟩ ++ [⟨.outside, .burst unsent⟩])⟩ := by
    simp [Crowd.turnstile, Crowd.visitors, List.replicate_succ']
  have behind : Crowd.turnstile (Crowd.expire ⟨0, parked + 1, woken, served, expired⟩) false 0
      unsent = ⟨⟨0⟩, (List.replicate served ⟨.outside, .done⟩ ++
        (List.replicate woken ⟨.called, .waiter false⟩ ++
          List.replicate parked ⟨.parked, .waiter false⟩)) ++ ⟨.outside, .done⟩ ::
        (List.replicate expired ⟨.outside, .done⟩ ++ [⟨.outside, .burst unsent⟩])⟩ := by
    simp [Crowd.turnstile, Crowd.visitors, Crowd.expire, List.replicate_succ]
  rw [before] at run
  have late := run.snoc (step_between .expire nofun)
  have gone := late.snoc (step_between (.giveUp rfl) nofun)
  rw [← behind] at gone
  refine ⟨_, gone, ?_, ?_⟩
  · unfold acquired at count ⊢
    rw [countP_snoc, countP_snoc, count]
    rfl
  · unfold signalled at signals ⊢
    rw [countP_snoc, countP_snoc]
    exact signals

/-! One kind of step after another. -/

theorem looks (reaches : Reaches sends first crowd patient fresh unsent) (level : crowd.Level)
    (awake : crowd.woken = 0) :
    Reaches sends first (Crowd.times .look fresh crowd) patient 0 unsent ∧
      (Crowd.times .look fresh crowd).Level := by
  induction fresh generalizing crowd with
  | zero => exact ⟨reaches, level⟩
  | succ fresh ih =>
      obtain ⟨reaches, level, awake⟩ := reaches.look level awake
      exact ih reaches level awake

theorem sendings (reaches : Reaches sends first crowd patient 0 unsent) (level : crowd.Level)
    (room : crowd.permits + unsent < Word.limit) : (crowd.signals unsent).1 = .ok () ∧
      Reaches sends first (crowd.signals unsent).2 patient 0 0 ∧ (crowd.signals unsent).2.Level := by
  induction unsent generalizing crowd with
  | zero => exact ⟨rfl, reaches, level⟩
  | succ unsent ih =>
      obtain ⟨next, sent, reaches, level, more⟩ := reaches.signal level (by omega)
      unfold Crowd.signals
      rw [sent]
      exact ih reaches level (by omega)

theorem resumes (reaches : Reaches sends first crowd patient 0 unsent) (level : crowd.Level)
    {count : Nat} (called : crowd.woken = count) :
    Reaches sends first (Crowd.times .resume count crowd) patient 0 unsent ∧
      (Crowd.times .resume count crowd).Level ∧ (Crowd.times .resume count crowd).woken = 0 := by
  induction count generalizing crowd with
  | zero => exact ⟨reaches, level, called⟩
  | succ count ih =>
      obtain ⟨reaches, level, fewer⟩ := reaches.resume level (by omega)
      exact ih reaches level (by omega)

theorem expires (reaches : Reaches sends first crowd false 0 unsent) {count : Nat}
    (empty : 0 < count → crowd.permits = 0) (parked : crowd.parked = count) :
    Reaches sends first (Crowd.times .expire count crowd) false 0 unsent := by
  induction count generalizing crowd with
  | zero => exact reaches
  | succ count ih =>
      obtain ⟨reaches, none, fewer⟩ := reaches.expire (empty (Nat.zero_lt_succ _)) (by omega)
      exact ih reaches (fun _ => none) (by omega)

theorem counts (reaches : Reaches sends (gathering semaphore waiters sends patient) crowd patient
      fresh unsent) : crowd.permits + crowd.served + unsent = semaphore.permits + sends ∧
    crowd.served + crowd.woken + crowd.parked + fresh + crowd.expired = waiters := by
  obtain ⟨passages, run, count, signals⟩ := reaches
  have balance := Run.balance run
  have length := run.visitors_length
  simp only [Crowd.turnstile, Crowd.visitors, gathering, opened, List.length_append,
    List.length_replicate, List.length_map, List.length_singleton] at length
  rw [count] at balance
  dsimp only [Crowd.turnstile] at balance
  omega

end Reaches

/-- What a semaphore does with a crowd in one go is a run, and it ends where the turnstile is still: as many
have been served as there were permits, or all who have come. -/
theorem gather_run (semaphore : Semaphore) (waiters signals : Nat) (patient : Bool)
    (room : semaphore.permits + signals < Word.limit) : ∃ passages turnstile,
      Run (gathering semaphore waiters signals patient) passages turnstile ∧ Still turnstile ∧
      acquired passages = min waiters (semaphore.permits + signals) ∧
      semaphore.gather waiters signals patient =
        if patient ∧ semaphore.permits + signals < waiters then none
        else some (.ok (acquired passages), turnstile.semaphore) := by
  have start : Reaches signals (gathering semaphore waiters signals patient) (.start semaphore)
      patient waiters signals :=
    ⟨[], by rw [start_turnstile]; exact .nil, rfl, Nat.zero_add _⟩
  obtain ⟨come, level⟩ := start.looks ⟨Nat.zero_le _, nofun, rfl⟩ rfl
  have fewer := come.counts.1
  obtain ⟨sent, brought, level⟩ := come.sendings level (by omega)
  unfold gather
  generalize (Crowd.times .look waiters (.start semaphore)).signals signals = outcome at *
  obtain ⟨answer, crowd⟩ := outcome
  obtain rfl : answer = .ok () := sent
  obtain ⟨resumed, level, awake⟩ := brought.resumes level rfl
  dsimp only at resumed level awake ⊢
  generalize Crowd.times .resume crowd.woken crowd = calm at *
  obtain ⟨permits, threads⟩ := resumed.counts
  have exactly := level.exactly
  have stays := level.stays
  have served : calm.served = min waiters (semaphore.permits + signals) := by omega
  cases patient with
  | true =>
      obtain ⟨passages, run, count, _⟩ := resumed
      refine ⟨passages, _, run, calm.still true awake, count.trans served, ?_⟩
      rw [count]
      rfl
  | false =>
      obtain ⟨kept, nobody⟩ := Crowd.expires_eq calm.parked calm
      obtain ⟨passages, run, count, _⟩ :=
        resumed.expires (fun some => (exactly some).trans awake) rfl
      refine ⟨passages, _, run, Crowd.still _ false (nobody.trans awake), ?_, ?_⟩
      · rw [count, kept, served]
      · rw [count]
        rfl

end Turnstile

end Reclaim
