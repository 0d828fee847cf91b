import Reclaim.Proofs.Watch.Basic

/-! What a sweeper and those who attend to it may rely on between any two steps. Seen from afar the
long operations are one step each: a batch is dealt when it is left in the slot, and a wait takes
place when the outcome is taken. Every small step is one of these or a chore, or it changes nothing;
so the handshake holds throughout, and what is left to say is how the flags stand to it. -/

namespace Reclaim

def Launch.owed : Option Launch → Nat
  | none | some (.fill _) => 0
  | some _ => 1

def WaitStage.consumed : Option WaitStage → Nat
  | some .holding | some .latched | some .landed => 1
  | _ => 0

def Poller.borrowed : Option Poller → Nat
  | some ⟨_, .borrowing⟩ | some ⟨_, .latched⟩ => 1
  | _ => 0

open Launch (owed)

open WaitStage (consumed)

open Poller (borrowed)

/-- The sweeper as it would be if no start and no wait call were half way: a start that has left its
batch has posted the permit, a permit that is in use is back in its place. -/
def Sweeper.settled (sweeper : Sweeper) (launch : Option Launch) (waiter : Option WaitStage)
    (poller : Option Poller) : Sweeper :=
  { sweeper with
    begun := ⟨sweeper.begun.permits + owed launch⟩
    ended := ⟨sweeper.ended.permits + borrowed poller + consumed waiter⟩
    inFlight :=
      sweeper.inFlight || decide (owed launch = 1) || decide (waiter = some .landed)
    completed := false }

structure Order (launch : Option Launch) (sweeper : Sweeper) (load : Load)
    (waiter : Option WaitStage) (poller : Option Poller) : Prop where
  shake : Handshake false (sweeper.settled launch waiter poller) load
  dormant : launch ≠ none → launch ≠ some .nudge →
    sweeper.inFlight = false ∧ consumed waiter = 0
  flown : launch = some .nudge → sweeper.inFlight = true
  blank : launch = some .fly ∨ launch = some .nudge → sweeper.completed = false
  waiting : waiter = some .blocked ∨ waiter = some .holding ∨ waiter = some .latched →
    sweeper.inFlight = true
  landed : waiter = some .landed → sweeper.inFlight = false
  seen : sweeper.inFlight = true → sweeper.completed = true →
    0 < (sweeper.settled launch waiter poller).ended.permits
  told : ∀ ticket, poller = some ⟨ticket, .latched⟩ → sweeper.completed = true
  handed : 0 < (sweeper.settled launch waiter poller).ended.permits ∨ sweeper.phase = .reported →
    sweeper.outcome ≠ none

def Berth.Ordered (berth : Berth) : Prop :=
  Order berth.launch berth.sweeper berth.load berth.waiter berth.poller

namespace Order

variable {launch : Option Launch} {sweeper next : Sweeper} {load : Load}
  {waiter : Option WaitStage} {poller : Option Poller}

theorem fresh (index : Nat) : Order none (.fresh index) (.ofPages []) none none := by
  constructor
  · exact .fresh index
  all_goals simp [Sweeper.fresh, Sweeper.settled, owed, consumed, borrowed]

/-- The permit of a round in flight is in exactly one place. -/
theorem counted (order : Order launch sweeper load waiter poller) :
    sweeper.begun.permits + owed launch +
        (sweeper.ended.permits + borrowed poller + consumed waiter) + sweeper.phase.token =
      if (sweeper.settled launch waiter poller).inFlight then 1 else 0 := order.shake.permits rfl

theorem single (order : Order launch sweeper load waiter poller) :
    sweeper.begun.permits + owed launch +
      (sweeper.ended.permits + borrowed poller + consumed waiter) + sweeper.phase.token ≤ 1 := by
  rw [order.counted]
  split <;> omega

theorem aloft (unconsumed : consumed waiter = 0) : waiter ≠ some .landed := by
  rintro rfl
  cases unconsumed

theorem inFlight_settled (unlaunched : owed launch = 0) (aloft : waiter ≠ some .landed) :
    (sweeper.settled launch waiter poller).inFlight = sweeper.inFlight := by
  simp [Sweeper.settled, unlaunched, aloft]

/-- While a sweeper has a permit to take or is at work, nothing is half way. -/
theorem working (order : Order launch sweeper load waiter poller)
    (working : 0 < sweeper.begun.permits + sweeper.phase.token) :
    owed launch = 0 ∧ borrowed poller = 0 ∧ consumed waiter = 0 ∧ sweeper.ended.permits = 0 ∧
      sweeper.inFlight = true ∧ sweeper.completed = false ∧ Handshake false sweeper load := by
  have single := order.single
  have counted := order.counted
  have unlaunched : owed launch = 0 := by omega
  have unborrowed : borrowed poller = 0 := by omega
  have unconsumed : consumed waiter = 0 := by omega
  have unended : sweeper.ended.permits = 0 := by omega
  have flight : sweeper.inFlight = true := by
    rw [inFlight_settled unlaunched (aloft unconsumed)] at counted
    by_contra rest
    rw [if_neg rest] at counted
    omega
  have same : sweeper.settled launch waiter poller = { sweeper with completed := false } := by
    simp [Sweeper.settled, unlaunched, unborrowed, unconsumed, flight]
  refine ⟨unlaunched, unborrowed, unconsumed, unended, flight, ?_, ?_⟩
  · by_contra seen
    have ended := order.seen flight (by simpa using seen)
    rw [same] at ended
    dsimp only at ended
    omega
  · have shake := order.shake
    rw [same] at shake
    exact shake.relatch sweeper.completed

/-- Without a start half way, a sweeper that is not in flight is at rest, and so is all that it shares,
unless a wait call has yet to take the outcome. -/
theorem rest (order : Order launch sweeper load waiter poller) (unlaunched : owed launch = 0)
    (rest : sweeper.inFlight = false) (aloft : waiter ≠ some .landed) :
    sweeper.phase = .idle ∧ sweeper.begun.permits = 0 ∧ sweeper.ended.permits = 0 ∧
      borrowed poller = 0 ∧ consumed waiter = 0 ∧ sweeper.outcome = none ∧
      sweeper.assignment.pages = [] ∧ load.pages = [] := by
  have flight : (sweeper.settled launch waiter poller).inFlight = sweeper.inFlight :=
    inFlight_settled unlaunched aloft
  obtain ⟨idle, _, _, outcome, empty⟩ := order.shake.rest (flight.trans rest)
  have counted := order.counted
  rw [flight, rest, if_neg (by simp)] at counted
  have hand := order.shake.hand (by rw [idle]; rfl)
  exact ⟨idle, by omega, by omega, by omega, by omega, outcome, empty, hand⟩

theorem pledged {batch : Assignment}
    (order : Order (some (.fill batch)) sweeper load waiter poller) :
    sweeper.phase = .idle ∧ sweeper.begun.permits = 0 ∧ sweeper.ended.permits = 0 ∧
      borrowed poller = 0 ∧ consumed waiter = 0 ∧ sweeper.outcome = none ∧
      sweeper.assignment.pages = [] ∧ load.pages = [] := by
  obtain ⟨rest, unconsumed⟩ := order.dormant nofun nofun
  exact order.rest rfl rest (aloft unconsumed)

theorem assigned {batch : Assignment}
    (order : Order (some (.fill batch)) sweeper load waiter poller)
    (accepted : sweeper.assign batch.pages batch.round = .ok next) :
    next = { sweeper with assignment := batch } := by
  obtain ⟨_, _, _, _, _, _, empty, _⟩ := order.pledged
  simpa [Sweeper.assign, empty] using accepted.symm

/-! Steps of the sweeper. -/

end Order

namespace Move

variable {sweeper next : Sweeper} {load taken : Load} {site later : Site} {chore : Chore}

theorem working {stop : Bool} (move : Move stop sweeper load site chore next taken later) :
    0 < sweeper.begun.permits + sweeper.phase.token := by
  cases move with
  | wake taken =>
      obtain ⟨_, posted, _⟩ := Sweeper.takePermit?_some taken
      omega
  | heed phase => simp [phase, SweeperPhase.token]
  | take phase => simp [phase, SweeperPhase.token]
  | sweep phase _ => simp [phase, SweeperPhase.token]
  | publish _ phase _ _ => simp [phase, SweeperPhase.token]
  | conclude phase _ => simp [phase, SweeperPhase.token]
  | leave phase => simp [phase, SweeperPhase.token]
  | signal phase => simp [phase, SweeperPhase.token]
  | acknowledge phase => simp [phase, SweeperPhase.token]

theorem handed {stop : Bool} (move : Move stop sweeper load site chore next taken later)
    (calm : chore.fault? = none) (unended : sweeper.ended.permits = 0)
    (handed : sweeper.phase = .reported → sweeper.outcome ≠ none) :
    next.completed = sweeper.completed ∧
      (0 < next.ended.permits ∨ next.phase = .reported → next.outcome ≠ none) := by
  cases move with
  | wake taken =>
      obtain ⟨_, _, rfl⟩ := Sweeper.takePermit?_some taken
      simp [unended]
  | heed phase => cases stop <;> simp [Sweeper.heed, phase, unended]
  | take phase => simp [Sweeper.takeBatch, phase, unended]
  | sweep phase _ =>
      rw [Sweeper.endure_calm fun fault failed => by simp [Chore.fault?, failed] at calm]
      simp [unended, phase]
  | publish _ phase _ _ =>
      rw [Sweeper.endure_calm fun fault failed => by simp [Chore.fault?, failed] at calm]
      simp [unended, phase]
  | conclude phase _ => simp [Sweeper.concludeBatch, phase, unended]
  | leave phase => simp [Sweeper.leaveOutcome, phase]
  | signal phase =>
      simp only [Sweeper.signalEnd, phase, true_and]
      exact fun _ => handed phase
  | acknowledge phase => simp [Sweeper.acknowledge, phase, unended]

end Move

namespace Order

variable {launch : Option Launch} {sweeper next : Sweeper} {load taken : Load}
  {waiter : Option WaitStage} {poller : Option Poller} {site later : Site} {work : Chore}

theorem chore (order : Order launch sweeper load waiter poller)
    (move : Move false sweeper load site work next taken later) (calm : work.fault? = none) :
    Order launch next taken waiter poller := by
  obtain ⟨unlaunched, unborrowed, unconsumed, unended, flight, unseen, shake⟩ :=
    order.working move.working
  have same (other : Sweeper) (aloft : other.inFlight = true) :
      other.settled launch waiter poller = { other with completed := false } := by
    simp [Sweeper.settled, unlaunched, unborrowed, unconsumed, aloft]
  have flying := (move.flight calm).trans flight
  obtain ⟨latch, handed⟩ := move.handed calm unended fun phase => order.handed (.inr phase)
  have unlatched := latch.trans unseen
  constructor
  · rw [same next flying]
    exact (move.handshake calm shake).relatch false
  · intro launched unflown
    have rest := (order.dormant launched unflown).1
    rw [flight] at rest
    cases rest
  · exact fun _ => flying
  · exact fun _ => unlatched
  · exact fun _ => flying
  · rintro rfl
    cases unconsumed
  · intro _ seen
    rw [unlatched] at seen
    cases seen
  · rintro ticket rfl
    cases unborrowed
  · rw [same next flying]
    exact handed

theorem still {begun : Option Launch} {other : Option WaitStage} {inside : Option Poller}
    (order : Order launch sweeper load waiter poller)
    (same : next.settled begun other inside = sweeper.settled launch waiter poller)
    (dormant : begun ≠ none → begun ≠ some .nudge → next.inFlight = false ∧ consumed other = 0)
    (flown : begun = some .nudge → next.inFlight = true)
    (blank : begun = some .fly ∨ begun = some .nudge → next.completed = false)
    (waiting : other = some .blocked ∨ other = some .holding ∨ other = some .latched →
      next.inFlight = true)
    (landed : other = some .landed → next.inFlight = false)
    (seen : next.inFlight = true → next.completed = true →
      0 < (sweeper.settled launch waiter poller).ended.permits)
    (told : ∀ ticket, inside = some ⟨ticket, .latched⟩ → next.completed = true) :
    Order begun next load other inside where
  shake := by
    rw [same]
    exact order.shake
  dormant := dormant
  flown := flown
  blank := blank
  waiting := waiting
  landed := landed
  seen := by
    rw [same]
    exact seen
  told := told
  handed := by
    obtain ⟨phase, outcome⟩ : next.phase = sweeper.phase ∧ next.outcome = sweeper.outcome :=
      ⟨(congrArg Sweeper.phase same :), (congrArg Sweeper.outcome same :)⟩
    rw [same, phase, outcome]
    exact order.handed

theorem unlaunched (order : Order launch sweeper load waiter poller)
    (ended : 0 < sweeper.ended.permits + borrowed poller + consumed waiter) : owed launch = 0 := by
  have single := order.single
  omega

/-! Steps of a wait call. -/

theorem wait {other : Option WaitStage} (order : Order launch sweeper load waiter poller)
    (before : consumed waiter = 0) (after : consumed other = 0)
    (waits : other = some .blocked → sweeper.inFlight = true) :
    Order launch sweeper load other poller := by
  refine order.still ?_ (fun launched unflown => ⟨(order.dormant launched unflown).1, after⟩)
    order.flown order.blank ?_ (fun landed => absurd landed (aloft after)) order.seen order.told
  · simp [Sweeper.settled, before, after, aloft before, aloft after]
  · rintro (blocked | rfl | rfl)
    · exact waits blocked
    · cases after
    · cases after

theorem acquire (order : Order launch sweeper load (some .blocked) poller)
    (acquired : sweeper.acquireEnd? = some next) :
    Order launch next load (some .holding) poller := by
  obtain ⟨posted, rfl⟩ := Sweeper.acquireEnd?_some acquired
  have flight := order.waiting (.inl rfl)
  refine order.still ?_ ?_ order.flown order.blank (fun _ => flight) nofun order.seen order.told
  · simp only [Sweeper.settled, flight, consumed, Sweeper.mk.injEq, Semaphore.mk.injEq, true_and,
      and_true, Bool.true_or]
    omega
  · intro launched unflown
    have rest := (order.dormant launched unflown).1
    rw [flight] at rest
    cases rest

theorem latch (order : Order launch sweeper load waiter poller)
    (ended : 0 < sweeper.ended.permits + borrowed poller + consumed waiter) :
    Order launch (sweeper.setCompleted true) load waiter poller := by
  refine order.still rfl order.dormant order.flown ?_ order.waiting order.landed (fun _ _ => ended)
    fun _ _ => rfl
  have unlaunched := order.unlaunched ended
  rintro (rfl | rfl) <;> cases unlaunched

theorem latched (order : Order launch sweeper load (some .holding) poller) :
    Order launch (sweeper.setCompleted true) load (some .latched) poller := by
  have latch := order.latch (by simp only [consumed]; omega)
  refine latch.still ?_ (fun launched unflown => ?_) latch.flown latch.blank
    (fun _ => latch.waiting (by simp)) nofun latch.seen latch.told
  · simp [Sweeper.settled, consumed]
  · cases (order.dormant launched unflown).2

theorem land (order : Order launch sweeper load (some .latched) poller) :
    Order launch (sweeper.setInFlight false) load (some .landed) poller := by
  have flight := order.waiting (by simp)
  have unlaunched := order.unlaunched (by simp only [consumed]; omega)
  refine order.still ?_ (fun launched unflown => ?_) ?_ order.blank (by simp) (fun _ => rfl) nofun
    order.told
  · simp [Sweeper.settled, Sweeper.setInFlight, flight, consumed]
  · cases (order.dormant launched unflown).2
  · rintro rfl
    cases unlaunched

theorem collect (order : Order launch sweeper load (some .landed) poller) :
    Order launch sweeper.takeOutcome.2 load none poller := by
  have rest := order.landed rfl
  have unlaunched := order.unlaunched (by simp only [consumed]; omega)
  have single := order.single
  simp only [consumed] at single
  have flight : (sweeper.settled launch (some .landed) poller).inFlight = true := by
    simp [Sweeper.settled]
  have taken : sweeper.takeOutcome.2.settled launch none poller =
      { (sweeper.settled launch (some .landed) poller).awaited with completed := false } := by
    simp [Sweeper.settled, Sweeper.takeOutcome, Sweeper.awaited, rest, unlaunched, consumed]
  have unended : (sweeper.takeOutcome.2.settled launch none poller).ended.permits = 0 := by
    simp only [Sweeper.settled, Sweeper.takeOutcome, consumed]
    omega
  constructor
  · rw [taken]
    exact (order.shake.awaited flight (Nat.succ_pos _)).relatch false
  · intro launched unflown
    cases (order.dormant launched unflown).2
  · rintro rfl
    cases unlaunched
  · rintro (rfl | rfl) <;> cases unlaunched
  · simp
  · simp
  · intro aloft
    rw [show sweeper.takeOutcome.2.inFlight = sweeper.inFlight from rfl, rest] at aloft
    cases aloft
  · exact order.told
  · rintro (ended | reported)
    · omega
    · rw [show sweeper.phase = .reported from reported] at single
      simp only [SweeperPhase.token] at single
      omega

/-! Steps of the poll that is alone with the sweeper. -/

theorem restage {other : Option Poller} (order : Order launch sweeper load waiter poller)
    (same : borrowed other = borrowed poller)
    (told : ∀ ticket, other = some ⟨ticket, .latched⟩ → sweeper.completed = true) :
    Order launch sweeper load waiter other := by
  refine order.still ?_ order.dormant order.flown order.blank order.waiting order.landed order.seen
    told
  simp only [Sweeper.settled, same]

theorem borrow {ticket : Nat} (order : Order launch sweeper load waiter (some ⟨ticket, .trying⟩))
    (acquired : sweeper.acquireEnd? = some next) :
    Order launch next load waiter (some ⟨ticket, .borrowing⟩) := by
  obtain ⟨posted, rfl⟩ := Sweeper.acquireEnd?_some acquired
  refine order.still ?_ order.dormant order.flown order.blank order.waiting order.landed order.seen
    (by simp)
  simp only [Sweeper.settled, borrowed, Sweeper.mk.injEq, Semaphore.mk.injEq, true_and, and_true]
  omega

theorem mark {ticket : Nat} (order : Order launch sweeper load waiter (some ⟨ticket, .borrowing⟩)) :
    Order launch (sweeper.setCompleted true) load waiter (some ⟨ticket, .latched⟩) :=
  (order.latch (by simp only [borrowed]; omega)).restage rfl fun _ _ => rfl

theorem giveBack {ticket : Nat} (order : Order launch sweeper load waiter (some ⟨ticket, .latched⟩)) :
    Order launch sweeper.returnEnd load waiter none := by
  refine order.still ?_ order.dormant order.flown order.blank order.waiting order.landed order.seen
    (by simp)
  simp only [Sweeper.settled, Sweeper.returnEnd, Semaphore.post, borrowed]

/-! Steps of a start. -/

theorem pledge (order : Order none sweeper load none poller) (rest : sweeper.inFlight = false)
    (batch : Assignment) : Order (some (.fill batch)) sweeper load none poller :=
  order.still rfl (fun _ _ => ⟨rest, rfl⟩) nofun (by simp) (by simp) nofun order.seen order.told

theorem fill {batch : Assignment} (order : Order (some (.fill batch)) sweeper load waiter poller)
    (accepted : sweeper.assign batch.pages batch.round = .ok next) :
    Order (some .renew) next load waiter poller := by
  have rest := (order.dormant (by simp) (by simp)).1
  obtain ⟨idle, _, ended, unborrowed, unconsumed, _⟩ := order.pledged
  obtain rfl := order.assigned accepted
  have flight : (sweeper.settled (some (.fill batch)) waiter poller).inFlight = false :=
    (inFlight_settled rfl (aloft unconsumed)).trans rest
  have dealt : ({ sweeper with assignment := batch } : Sweeper).settled
      (some .renew) waiter poller =
        { (sweeper.settled (some (.fill batch)) waiter poller).dealt batch.round batch.pages with
          completed := false } := by
    simp [Sweeper.settled, Sweeper.dealt, Semaphore.post, owed]
  constructor
  · rw [dealt]
    exact (order.shake.dealt flight batch.round batch.pages).relatch false
  · exact fun _ _ => ⟨rest, unconsumed⟩
  · simp
  · simp
  · exact order.waiting
  · exact order.landed
  · intro aloft
    rw [rest] at aloft
    cases aloft
  · exact order.told
  · rintro (some | reported)
    · simp [Sweeper.settled, ended, unborrowed, unconsumed] at some
    · simp [idle] at reported

theorem renew (order : Order (some .renew) sweeper load waiter poller) :
    Order (some .fly) (sweeper.setCompleted false) load waiter poller := by
  refine order.still rfl (fun _ _ => order.dormant nofun nofun) nofun (fun _ => rfl) order.waiting
    order.landed nofun ?_
  rintro ticket rfl
  have single := order.single
  simp only [owed, borrowed] at single
  omega

theorem fly (order : Order (some .fly) sweeper load waiter poller) :
    Order (some .nudge) (sweeper.setInFlight true) load waiter poller := by
  have blank := order.blank (.inl rfl)
  refine order.still ?_ (fun _ unflown => absurd rfl unflown) (fun _ => rfl) (fun _ => blank)
    (fun _ => rfl) ?_ ?_ order.told
  · simp [Sweeper.settled, Sweeper.setInFlight, owed]
  · rintro rfl
    have single := order.single
    simp only [owed, consumed] at single
    omega
  · intro _ seen
    rw [show (sweeper.setInFlight true).completed = sweeper.completed from rfl, blank] at seen
    cases seen

theorem nudge (order : Order (some .nudge) sweeper load waiter poller) :
    Order none sweeper.nudge load waiter poller := by
  have flight := order.flown rfl
  refine order.still ?_ nofun nofun (by simp) order.waiting order.landed order.seen order.told
  simp [Sweeper.settled, Sweeper.nudge, Semaphore.post, owed, flight]

end Order

namespace Berth

variable {berth next : Berth} {site later : Site} {happening : Happening}

theorem Ordered.at_stage {launch : Option Launch} (ordered : berth.Ordered)
    (stage : berth.launch = launch) :
    Order launch berth.sweeper berth.load berth.waiter berth.poller := by
  rw [← stage]
  exact ordered

theorem Attend.ordered (attend : berth.Attend happening next) (ordered : berth.Ordered) :
    next.Ordered := by
  obtain ⟨sweeper, load, launch, queued, waiter, polls, poller⟩ := berth
  unfold Ordered at ordered ⊢
  cases attend <;> dsimp only at *
  case call | poll | glance | spot | doubt => exact ordered
  case serve free =>
    subst free
    exact ordered.wait rfl rfl nofun
  case seek stage flight =>
    subst stage
    exact ordered.wait rfl rfl fun _ => flight
  case pass stage _ =>
    subst stage
    exact ordered.wait rfl rfl nofun
  case acquire stage acquired =>
    subst stage
    exact ordered.acquire acquired
  case latch stage =>
    subst stage
    exact ordered.latched
  case land stage =>
    subst stage
    exact ordered.land
  case collect stage =>
    subst stage
    exact ordered.collect
  case enter free =>
    subst free
    exact ordered.restage rfl (by simp)
  case glanceInside stage _ | spotInside stage _ | attempt stage _ | giveUp stage _ | miss stage _ =>
    subst stage
    exact ordered.restage rfl (by simp)
  case borrow stage acquired =>
    subst stage
    exact ordered.borrow acquired
  case mark stage =>
    subst stage
    exact ordered.mark
  case giveBack stage =>
    subst stage
    exact ordered.giveBack

theorem Launching.ordered (launching : berth.Launching happening next) (ordered : berth.Ordered) :
    next.Ordered := by
  obtain ⟨sweeper, load, launch, queued, waiter, polls, poller⟩ := berth
  unfold Ordered at ordered ⊢
  cases launching <;> dsimp only at *
  case fill stage accepted =>
    subst stage
    exact ordered.fill accepted
  case renew stage =>
    subst stage
    exact ordered.renew
  case fly stage _ =>
    subst stage
    exact ordered.fly
  case nudge stage =>
    subst stage
    exact ordered.nudge

theorem fresh_ordered (index : Nat) : (fresh index).Ordered := Order.fresh index

theorem Resting.ordered (rest : berth.Resting) (ordered : berth.Ordered) (batch : Assignment) :
    Ordered { berth with launch := some (.fill batch) } := by
  obtain ⟨sweeper, load, launch, queued, waiter, polls, poller⟩ := berth
  obtain ⟨rfl, flight, _, rfl⟩ := rest
  exact Order.pledge ordered flight batch

/-- Neither assertion of a start fails. -/
theorem Ordered.accepted (ordered : berth.Ordered) : berth.refusal? = none := by
  obtain ⟨sweeper, load, launch, queued, waiter, polls, poller⟩ := berth
  unfold Ordered at ordered
  dsimp only at ordered
  rcases launch with none | ⟨batch | renew | fly | nudge⟩
  · rfl
  · obtain ⟨_, _, _, _, _, _, empty, _⟩ := Order.pledged ordered
    simp [refusal?, Sweeper.assign, empty]
  · rfl
  · simp [refusal?, (ordered.dormant nofun nofun).1]
  · rfl

end Berth

end Reclaim
