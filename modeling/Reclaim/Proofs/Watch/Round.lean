import Reclaim.Proofs.Watch.Sound

/-! One round at one sweeper, from the permit that its start posts to the next start. The permit is
taken by the sweeper, comes back as the end, goes to a wait call and ends there; each of these happens
once at most, and whatever is half way can be read off the state. -/

namespace Reclaim

open Launch (owed)

open WaitStage (consumed)

open Poller (borrowed)

namespace Happening

def nudges : Happening → Nat
  | .nudge _ => 1
  | _ => 0

def wakes : Happening → Nat
  | .chore .wake => 1
  | _ => 0

def signals : Happening → Nat
  | .chore .signal => 1
  | _ => 0

def acquires : Happening → Nat
  | .acquire => 1
  | _ => 0

def collects : Happening → Nat
  | .collect _ => 1
  | _ => 0

def total (measure : Happening → Nat) (happenings : List Happening) : Nat :=
  (happenings.map measure).sum

theorem total_append (measure : Happening → Nat) (happenings more : List Happening) :
    total measure (happenings ++ more) = total measure happenings + total measure more := by
  simp [total]

@[simp] theorem total_singleton (measure : Happening → Nat) (happening : Happening) :
    total measure [happening] = measure happening := by
  simp [total]

@[simp] theorem total_nil (measure : Happening → Nat) : total measure [] = 0 := rfl

theorem total_pos {measure : Happening → Nat} {happenings : List Happening}
    (some : 0 < total measure happenings) : ∃ happening ∈ happenings, 0 < measure happening := by
  by_contra none
  have zero : total measure happenings = 0 := by
    refine List.sum_eq_zero fun value member => ?_
    obtain ⟨happening, inside, rfl⟩ := List.mem_map.mp member
    by_contra positive
    exact none ⟨happening, inside, Nat.pos_of_ne_zero positive⟩
  omega

end Happening

namespace Move

variable {stop : Bool} {sweeper next : Sweeper} {load taken : Load} {site later : Site}
  {chore : Chore}

/-- A chore takes the permit to begin, gives the permit of the end, or moves neither. -/
theorem permits (move : Move stop sweeper load site chore next taken later)
    (calm : chore.fault? = none) :
    next.begun.permits + (Happening.chore chore).wakes = sweeper.begun.permits ∧
      next.phase.token + (Happening.chore chore).signals =
        sweeper.phase.token + (Happening.chore chore).wakes ∧
      next.ended.permits = sweeper.ended.permits + (Happening.chore chore).signals := by
  cases move with
  | wake taken =>
      obtain ⟨idle, posted, rfl⟩ := Sweeper.takePermit?_some taken
      refine ⟨Nat.sub_add_cancel posted, ?_, rfl⟩
      rw [idle]
      rfl
  | heed phase => cases stop <;> simp [Sweeper.heed, phase, Happening.wakes, Happening.signals,
      SweeperPhase.token]
  | take phase => simp [Sweeper.takeBatch, phase, Happening.wakes, Happening.signals,
      SweeperPhase.token]
  | sweep phase _ =>
      rw [Sweeper.endure_calm fun fault failed => by simp [Chore.fault?, failed] at calm]
      exact ⟨rfl, rfl, rfl⟩
  | publish _ phase _ _ =>
      rw [Sweeper.endure_calm fun fault failed => by simp [Chore.fault?, failed] at calm]
      exact ⟨rfl, rfl, rfl⟩
  | conclude phase _ => simp [Sweeper.concludeBatch, phase, Happening.wakes, Happening.signals,
      SweeperPhase.token]
  | leave phase => simp [Sweeper.leaveOutcome, phase, Happening.wakes, Happening.signals,
      SweeperPhase.token]
  | signal phase => simp [Sweeper.signalEnd, phase, Happening.wakes, Happening.signals,
      SweeperPhase.token, Semaphore.post]
  | acknowledge phase => simp [Sweeper.acknowledge, phase, Happening.wakes, Happening.signals,
      SweeperPhase.token]

theorem ahead (move : Move stop sweeper load site chore next taken later)
    (calm : chore.fault? = none) (young : ∀ page ∈ chore.sweeps, page.sweeps + 1 < Word.halfLimit)
    (shake : Handshake stop sweeper load) (regular : load.Regular site.heap) :
    chore.sweeps ++ next.ahead taken = sweeper.ahead load := by
  cases move with
  | wake taken =>
      obtain ⟨_, _, rfl⟩ := Sweeper.takePermit?_some taken
      rfl
  | heed phase => simp [Sweeper.heed, phase, Sweeper.ahead, Chore.sweeps]
  | take phase =>
      have empty := (List.append_eq_nil_iff.mp (shake.hand (by rw [phase]; rfl))).1
      simp [Sweeper.takeBatch, phase, Sweeper.ahead, Chore.sweeps, Assignment.none, Load.ofPages,
        empty]
  | sweep phase first =>
      rw [Sweeper.endure_calm fun fault failed => by simp [Chore.fault?, failed] at calm,
        regular _ _ first (young _ (by simp [Chore.sweeps]))]
      simp [Sweeper.ahead, shake.taken (by rw [phase]; rfl), Chore.sweeps, first]
  | publish _ phase _ _ =>
      rw [Sweeper.endure_calm fun fault failed => by simp [Chore.fault?, failed] at calm]
      rfl
  | conclude phase _ => simp [Sweeper.concludeBatch, phase, Sweeper.ahead, Chore.sweeps]
  | leave phase => simp [Sweeper.leaveOutcome, phase, Sweeper.ahead, Chore.sweeps]
  | signal phase => simp [Sweeper.signalEnd, phase, Sweeper.ahead, Chore.sweeps]
  | acknowledge phase => simp [Sweeper.acknowledge, phase, Sweeper.ahead, Chore.sweeps]

end Move

theorem SweeperPhase.idle_of_token {phase : SweeperPhase} (none : phase.token = 0) :
    phase = .idle := by
  cases phase <;> first | rfl | cases none

structure Berth.Balance (berth : Berth) (happening : Happening) (next : Berth) : Prop where
  begun : next.sweeper.begun.permits + happening.wakes =
    berth.sweeper.begun.permits + happening.nudges
  token : next.sweeper.phase.token + happening.signals =
    berth.sweeper.phase.token + happening.wakes
  ended : next.sweeper.ended.permits + borrowed next.poller + happening.acquires =
    berth.sweeper.ended.permits + borrowed berth.poller + happening.signals
  consumed : WaitStage.consumed next.waiter + happening.collects =
    WaitStage.consumed berth.waiter + happening.acquires

namespace Berth

variable {berth next : Berth} {site later : Site} {happening : Happening}

theorem Attend.balance (attend : berth.Attend happening next) : berth.Balance happening next := by
  obtain ⟨sweeper, load, launch, queued, waiter, polls, poller⟩ := berth
  cases attend <;> dsimp only at *
  case call | poll | glance | spot | doubt => exact ⟨rfl, rfl, rfl, rfl⟩
  case serve free =>
    subst free
    exact ⟨rfl, rfl, rfl, rfl⟩
  case seek stage _ | pass stage _ | latch stage | land stage | collect stage =>
    subst stage
    exact ⟨rfl, rfl, rfl, rfl⟩
  case acquire stage acquired =>
    subst stage
    obtain ⟨posted, rfl⟩ := Sweeper.acquireEnd?_some acquired
    refine ⟨rfl, rfl, ?_, rfl⟩
    simp only [Happening.acquires, Happening.signals]
    omega
  case enter free =>
    subst free
    exact ⟨rfl, rfl, rfl, rfl⟩
  case glanceInside stage _ | spotInside stage _ | attempt stage _ | giveUp stage _ | miss stage _ |
      mark stage =>
    subst stage
    exact ⟨rfl, rfl, rfl, rfl⟩
  case borrow stage acquired =>
    subst stage
    obtain ⟨posted, rfl⟩ := Sweeper.acquireEnd?_some acquired
    refine ⟨rfl, rfl, ?_, rfl⟩
    simp only [Happening.acquires, Happening.signals, borrowed]
    omega
  case giveBack stage =>
    subst stage
    exact ⟨rfl, rfl, rfl, rfl⟩

theorem Attend.kept (attend : berth.Attend happening next) :
    next.launch = berth.launch ∧ next.load = berth.load ∧
      next.sweeper.phase = berth.sweeper.phase ∧
      next.sweeper.assignment = berth.sweeper.assignment ∧
      next.sweeper.begun = berth.sweeper.begun ∧ happening.sweeps = [] := by
  cases attend
  case acquire acquired | borrow acquired =>
    obtain ⟨_, rfl⟩ := Sweeper.acquireEnd?_some acquired
    exact ⟨rfl, rfl, rfl, rfl, rfl, rfl⟩
  all_goals exact ⟨rfl, rfl, rfl, rfl, rfl, rfl⟩

theorem Attend.unposted (attend : berth.Attend happening next) : happening.nudges = 0 := by
  cases attend <;> rfl

theorem Attend.landing (attend : berth.Attend happening next) :
    (next.sweeper.inFlight = berth.sweeper.inFlight ∧ next.sweeper.outcome = berth.sweeper.outcome ∧
        happening.collects = 0 ∧ (berth.waiter = some .landed → next.waiter = some .landed)) ∨
      (next.sweeper.inFlight = false ∧ next.sweeper.outcome = berth.sweeper.outcome ∧
        happening.collects = 0 ∧ next.waiter = some .landed) ∨
      (next.sweeper.inFlight = berth.sweeper.inFlight ∧ berth.waiter = some .landed ∧
        happening = .collect berth.sweeper.outcome) := by
  cases attend
  case land => exact .inr (.inl ⟨rfl, rfl, rfl, rfl⟩)
  case collect stage => exact .inr (.inr ⟨rfl, stage, rfl⟩)
  case acquire stage acquired =>
    obtain ⟨_, rfl⟩ := Sweeper.acquireEnd?_some acquired
    exact .inl ⟨rfl, rfl, rfl, by simp [stage]⟩
  case borrow acquired =>
    obtain ⟨_, rfl⟩ := Sweeper.acquireEnd?_some acquired
    exact .inl ⟨rfl, rfl, rfl, id⟩
  case serve free => exact .inl ⟨rfl, rfl, rfl, by simp [free]⟩
  case seek stage _ | pass stage _ | latch stage => exact .inl ⟨rfl, rfl, rfl, by simp [stage]⟩
  all_goals exact .inl ⟨rfl, rfl, rfl, id⟩

theorem Launching.balance (launching : berth.Launching happening next) (ordered : berth.Ordered) :
    berth.Balance happening next := by
  obtain ⟨sweeper, load, launch, queued, waiter, polls, poller⟩ := berth
  cases launching <;> dsimp only at *
  case fill stage accepted =>
    subst stage
    obtain rfl := Order.assigned ordered accepted
    exact ⟨rfl, rfl, rfl, rfl⟩
  case renew stage | fly stage _ | nudge stage =>
    subst stage
    exact ⟨rfl, rfl, rfl, rfl⟩

theorem Step.balance (step : berth.Step site happening next later)
    (calm : happening.fault? = none) (ordered : berth.Ordered) : berth.Balance happening next := by
  cases step with
  | chore move =>
      obtain ⟨begun, token, ended⟩ := move.permits calm
      refine ⟨begun, token, ?_, rfl⟩
      simp only [Happening.acquires, ended]
      omega
  | attend attend => exact attend.balance
  | launching launching => exact launching.balance ordered

theorem Launching.kept (launching : berth.Launching happening next) :
    (∃ batch, happening = .fill batch) ∨ berth.launch = some .renew ∨ berth.launch = some .fly ∨
      berth.launch = some .nudge := by
  cases launching with
  | fill => exact .inl ⟨_, rfl⟩
  | renew stage => exact .inr (.inl stage)
  | fly stage => exact .inr (.inr (.inl stage))
  | nudge stage => exact .inr (.inr (.inr stage))

open Happening (total nudges wakes signals acquires collects)

structure Round (batch : List Page) (happenings : List Happening) (berth : Berth) : Prop where
  launched : berth.launch = none ∨ ∃ later, berth.launch = some (.fill later)
  woken : total wakes happenings + berth.sweeper.begun.permits = 1
  signalled : total signals happenings + berth.sweeper.phase.token = total wakes happenings
  acquired : berth.sweeper.ended.permits + borrowed berth.poller + total acquires happenings =
    total signals happenings
  collected : consumed berth.waiter + total collects happenings = total acquires happenings
  aloft : berth.sweeper.inFlight = true → total collects happenings = 0
  down : berth.sweeper.inFlight = false →
    berth.waiter = some .landed ∨ total collects happenings = 1
  swept : happenings.flatMap Happening.sweeps ++ berth.sweeper.ahead berth.load = batch
  due : total collects happenings = 0 → berth.sweeper.due berth.load = harvest batch
  handed : ∀ outcome, .collect outcome ∈ happenings → outcome = some (harvest batch)

namespace Round

variable {batch : List Page} {happenings : List Happening}

theorem unlaunched (round : berth.Round batch happenings) : owed berth.launch = 0 := by
  rcases round.launched with launch | ⟨later, launch⟩ <;> rw [launch] <;> rfl

/-- Once the end has been signalled nothing is left to be swept, and the outcome that is there or has
been taken is that of the batch. -/
theorem ended (round : berth.Round batch happenings) (ordered : berth.Ordered)
    (signalled : 0 < total signals happenings) :
    happenings.flatMap Happening.sweeps = batch ∧ berth.load.pages = [] ∧
      berth.sweeper.assignment.pages = [] ∧
      (total collects happenings = 0 → berth.sweeper.outcome = some (harvest batch)) := by
  have woken := round.woken
  have token := round.signalled
  have acquired := round.acquired
  have collected := round.collected
  have idle : berth.sweeper.phase = .idle := SweeperPhase.idle_of_token (by omega)
  have hand : berth.load.pages = [] := ordered.shake.hand (by
    rw [show (berth.sweeper.settled _ _ _).phase = berth.sweeper.phase from rfl, idle]
    rfl)
  have slot : berth.sweeper.assignment.pages = [] := by
    rcases Nat.eq_zero_or_pos (total collects happenings) with none | some
    · by_contra held
      have unended := (ordered.shake.slot held).2.1
      simp only [Sweeper.settled] at unended
      omega
    · have rest : berth.sweeper.inFlight = false := by
        by_contra flight
        have none := round.aloft (by simpa using flight)
        omega
      obtain ⟨_, _, _, _, _, _, empty, _⟩ :=
        Order.rest ordered round.unlaunched rest (Order.aloft (by omega))
      exact empty
  have swept := round.swept
  rw [Sweeper.ahead, slot, (List.append_eq_nil_iff.mp hand).1, List.append_nil,
    List.append_nil] at swept
  refine ⟨swept, hand, slot, fun none => ?_⟩
  have handed := ordered.handed (.inl (by
    simp only [Sweeper.settled]
    omega))
  obtain ⟨outcome, left⟩ := Option.ne_none_iff_exists'.mp handed
  have due := round.due none
  rw [Sweeper.due, idle] at due
  dsimp only at due
  rw [slot, left, Option.getD_some] at due
  rw [left, ← due]
  exact congrArg some (BatchYield.zero_plus _).symm

theorem begin (ordered : berth.Ordered) (nudge : berth.launch = some .nudge) :
    Round berth.sweeper.assignment.pages []
      { berth with sweeper := berth.sweeper.nudge, launch := none } := by
  have single := Order.single ordered
  have flight := ordered.flown nudge
  rw [nudge] at single
  simp only [owed] at single
  have idle : berth.sweeper.phase = .idle := SweeperPhase.idle_of_token (by omega)
  have settled : (berth.sweeper.settled berth.launch berth.waiter berth.poller).phase = .idle := idle
  have hand := ordered.shake.hand (by rw [settled]; rfl)
  have outcome : berth.sweeper.outcome = none := by
    by_contra some
    rcases ordered.shake.left rfl some with reported | ended
    · rw [settled] at reported
      cases reported
    · simp only [Sweeper.settled] at ended
      omega
  constructor
  · exact .inl rfl
  · simp only [Sweeper.nudge, Semaphore.post, Happening.total_nil]
    omega
  · simp only [Sweeper.nudge, Happening.total_nil]
    omega
  · simp only [Sweeper.nudge, Happening.total_nil]
    omega
  · simp only [Happening.total_nil]
    omega
  · exact fun _ => rfl
  · intro rest
    rw [show berth.sweeper.nudge.inFlight = berth.sweeper.inFlight from rfl, flight] at rest
    cases rest
  · simp [Sweeper.ahead, Sweeper.nudge, (List.append_eq_nil_iff.mp hand).1]
  · intro _
    simp only [Sweeper.due, Sweeper.nudge, idle, outcome]
    exact BatchYield.plus_zero _
  · simp

theorem balanced (round : berth.Round batch happenings) (balance : berth.Balance happening next)
    (unposted : happening.nudges = 0) (launched : next.launch = berth.launch)
    (aloft : next.sweeper.inFlight = true → total collects (happenings ++ [happening]) = 0)
    (down : next.sweeper.inFlight = false →
      next.waiter = some .landed ∨ total collects (happenings ++ [happening]) = 1)
    (swept : happening.sweeps ++ next.sweeper.ahead next.load = berth.sweeper.ahead berth.load)
    (due : total collects (happenings ++ [happening]) = 0 →
      next.sweeper.due next.load = berth.sweeper.due berth.load)
    (handed : ∀ outcome, happening = .collect outcome → outcome = some (harvest batch)) :
    next.Round batch (happenings ++ [happening]) where
  launched := launched ▸ round.launched
  woken := by
    have before := round.woken
    have after := balance.begun
    rw [Happening.total_append, Happening.total_singleton]
    omega
  signalled := by
    have before := round.signalled
    have after := balance.token
    simp only [Happening.total_append, Happening.total_singleton]
    omega
  acquired := by
    have before := round.acquired
    have after := balance.ended
    simp only [Happening.total_append, Happening.total_singleton]
    omega
  collected := by
    have before := round.collected
    have after := balance.consumed
    simp only [Happening.total_append, Happening.total_singleton]
    omega
  aloft := aloft
  down := down
  swept := by
    rw [List.flatMap_append, List.flatMap_singleton, List.append_assoc, swept]
    exact round.swept
  due none := by
    rw [due none]
    rw [Happening.total_append] at none
    exact round.due (by omega)
  handed outcome member := by
    rcases List.mem_append.mp member with old | new
    · exact round.handed outcome old
    · exact handed outcome (List.mem_singleton.mp new).symm

theorem step (round : berth.Round batch happenings) (ordered : berth.Ordered)
    (step : berth.Step site happening next later) (calm : happening.fault? = none)
    (young : ∀ page ∈ happening.sweeps, page.sweeps + 1 < Word.halfLimit)
    (regular : berth.load.Regular site.heap) (same : ∀ batch, happening ≠ .fill batch) :
    next.Round batch (happenings ++ [happening]) := by
  have quiet (none : happening.collects = 0) :
      total collects (happenings ++ [happening]) = total collects happenings := by
    rw [Happening.total_append, Happening.total_singleton, none, Nat.add_zero]
  have balance := step.balance calm ordered
  cases step with
  | chore move =>
      obtain ⟨_, _, _, _, _, _, shake⟩ := Order.working ordered move.working
      have flight := move.flight calm
      refine round.balanced balance rfl rfl ?_ ?_ (move.ahead calm young shake regular)
        (fun _ => move.due calm young shake regular) nofun
      · intro aloft
        rw [quiet rfl]
        exact round.aloft (flight ▸ aloft)
      · intro down
        rw [quiet rfl]
        exact round.down (flight ▸ down)
  | attend attend =>
      obtain ⟨launch, load, phase, assignment, _, sweeps⟩ := attend.kept
      have swept : happening.sweeps ++ next.sweeper.ahead next.load =
          berth.sweeper.ahead berth.load := by
        rw [sweeps, List.nil_append, Sweeper.ahead, Sweeper.ahead, load, assignment]
      have due (outcome : next.sweeper.outcome = berth.sweeper.outcome) :
          next.sweeper.due next.load = berth.sweeper.due berth.load := by
        simp only [Sweeper.due, load, phase, assignment, outcome]
      -- The flag goes down, or the outcome is taken after that, or neither of them changes.
      rcases attend.landing with ⟨flight, outcome, none, landed⟩ | ⟨rest, outcome, none, landed⟩ |
        ⟨flight, landed, rfl⟩
      · refine round.balanced balance attend.unposted launch ?_ ?_ swept (fun _ => due outcome) ?_
        · intro aloft
          rw [quiet none]
          exact round.aloft (flight ▸ aloft)
        · intro down
          rw [quiet none]
          exact (round.down (flight ▸ down)).imp_left landed
        · rintro _ rfl
          cases none
      · refine round.balanced balance attend.unposted launch ?_ (fun _ => .inl landed) swept
          (fun _ => due outcome) ?_
        · intro aloft
          rw [rest] at aloft
          cases aloft
        · rintro _ rfl
          cases none
      · have rest := ordered.landed landed
        have collected := round.collected
        have acquired := round.acquired
        have signalled := round.signalled
        have woken := round.woken
        rw [landed] at collected
        simp only [consumed] at collected
        have once : total collects (happenings ++ [.collect berth.sweeper.outcome]) = 1 := by
          rw [Happening.total_append, Happening.total_singleton, collects]
          omega
        obtain ⟨_, _, _, handed⟩ := round.ended ordered (by omega)
        refine round.balanced balance attend.unposted launch ?_ (fun _ => .inr once) swept ?_ ?_
        · intro aloft
          rw [flight, rest] at aloft
          cases aloft
        · intro none
          rw [once] at none
          cases none
        · intro outcome taken
          cases taken
          exact handed (by omega)
  | launching launching =>
      rcases launching.kept with ⟨batch, fill⟩ | renew | fly | nudge
      · exact absurd fill (same batch)
      all_goals
        rcases round.launched with launch | ⟨_, launch⟩ <;> simp_all

end Round

end Berth

end Reclaim
