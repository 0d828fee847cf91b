import Reclaim.Proofs.Watch.Basic

/-! Calls that nobody gets in the way of. Alone with a sweeper, a wait call, a poll and a start take it
through the very states that the operations of a sweeper compute: the steps of a watch are these
operations, taken apart where others may come in between. -/

namespace Reclaim

namespace Berth

variable {berth next last : Berth} {happening : Happening} {happenings more : List Happening}

inductive Calls (berth : Berth) : List Happening → Berth → Prop
  | nil : Calls berth [] berth
  | attend {happenings : List Happening} {happening : Happening} {middle next : Berth}
      (earlier : Calls berth happenings middle) (attend : middle.Attend happening next) :
      Calls berth (happenings ++ [happening]) next
  | launching {happenings : List Happening} {happening : Happening} {middle next : Berth}
      (earlier : Calls berth happenings middle) (launching : middle.Launching happening next) :
      Calls berth (happenings ++ [happening]) next

theorem Calls.wait_rest (unqueued : berth.queued = 0) (unawaited : berth.waiter = none)
    (rest : berth.sweeper.inFlight = false) : berth.Calls [.call, .inside, .pass] berth := by
  obtain ⟨sweeper, load, launch, queued, waiter, polls, poller⟩ := berth
  dsimp only at unqueued unawaited rest
  subst unqueued unawaited
  exact .attend (.attend (.attend .nil .call) (.serve rfl rfl)) (.pass rfl rest)

/-- A wait call that need not wait answers and leaves what waiting at once would. -/
theorem Calls.wait {outcome : Option BatchYield} {sweeper : Sweeper} (unqueued : berth.queued = 0)
    (unawaited : berth.waiter = none) (waited : berth.sweeper.await? = some (outcome, sweeper)) :
    ∃ happenings, berth.Calls happenings { berth with sweeper } ∧
      (happenings.getLast? = some (.collect outcome) ∨
        happenings.getLast? = some .pass ∧ outcome = none) := by
  unfold Sweeper.await? at waited
  split at waited
  next flight =>
    obtain ⟨taken, acquired, same⟩ := Option.map_eq_some_iff.mp waited
    cases same
    obtain ⟨permits, posted, rfl⟩ := Option.map_eq_some_iff.mp acquired
    obtain ⟨sweeper, load, launch, queued, waiter, polls, poller⟩ := berth
    dsimp only at unqueued unawaited flight acquired
    subst unqueued unawaited
    exact ⟨_, .attend (.attend (.attend (.attend (.attend (.attend (.attend .nil .call)
      (.serve rfl rfl)) (.seek rfl flight)) (.acquire rfl acquired)) (.latch rfl)) (.land rfl))
      (.collect rfl), .inl rfl⟩
  next rest =>
    cases waited
    exact ⟨_, .wait_rest unqueued unawaited (by simpa using rest), .inr ⟨rfl, rfl⟩⟩

theorem Calls.poll_finished (ticket : Nat) (unpolled : berth.polls = [])
    (free : berth.poller = none) (finished : berth.sweeper.isFinishedRound = true) :
    ∃ happenings, berth.Calls (happenings ++ [.answer ticket true]) berth := by
  obtain ⟨sweeper, load, launch, queued, waiter, polls, poller⟩ := berth
  dsimp only at unpolled free finished
  subst unpolled free
  have polled := Calls.attend (@Calls.nil ⟨sweeper, load, launch, queued, waiter, [], none⟩)
    (.poll ticket nofun nofun)
  cases flight : sweeper.inFlight with
  | false =>
      exact ⟨_, .attend polled
        (@Attend.spot _ [] [] ticket .flight rfl (by simp [Sweeper.spot, flight]))⟩
  | true =>
      have latch : sweeper.completed = true := by simpa [Sweeper.isFinishedRound, flight] using finished
      have glanced := Calls.attend polled
        (@Attend.glance _ [] [] ticket rfl (by simp [Sweeper.spot, flight]))
      exact ⟨_, .attend glanced (@Attend.spot _ [] [] ticket .latch rfl (by simp [Sweeper.spot, latch]))⟩

/-- A poll answers and leaves what polling at once would. -/
theorem Calls.poll (ticket : Nat) (unpolled : berth.polls = []) (free : berth.poller = none) :
    ∃ happenings, berth.Calls (happenings ++ [.answer ticket berth.sweeper.poll.1])
      { berth with sweeper := berth.sweeper.poll.2 } := by
  unfold Sweeper.poll
  split
  next finished => exact Calls.poll_finished ticket unpolled free finished
  next unfinished =>
    obtain ⟨flight, unlatched⟩ : berth.sweeper.inFlight = true ∧ berth.sweeper.completed = false := by
      simpa [Sweeper.isFinishedRound] using unfinished
    have aloft : berth.sweeper.spot .flight = none := by simp [Sweeper.spot, flight]
    have open_ : berth.sweeper.spot .latch = some false := by simp [Sweeper.spot, unlatched]
    obtain ⟨sweeper, load, launch, queued, waiter, polls, poller⟩ := berth
    dsimp only at unpolled free aloft open_
    subst unpolled free
    have polled := Calls.attend (@Calls.nil ⟨sweeper, load, launch, queued, waiter, [], none⟩)
      (.poll ticket nofun nofun)
    have glanced := Calls.attend polled (@Attend.glance _ [] [] ticket rfl aloft)
    have doubted := Calls.attend glanced (@Attend.doubt _ [] [] ticket .latch rfl open_)
    have entered := Calls.attend doubted (@Attend.enter _ [] [] ticket rfl rfl)
    have inside := Calls.attend entered (.glanceInside rfl aloft)
    have tried := Calls.attend inside (@Attend.attempt _ ticket .latch rfl open_)
    split
    next borrowed acquired =>
      have lent := Calls.attend tried (.borrow rfl acquired)
      exact ⟨_, .attend (.attend lent (.mark rfl)) (.giveBack rfl)⟩
    next missing =>
      have missed := Calls.attend tried (.miss rfl missing)
      have last := Calls.attend missed (.glanceInside rfl aloft)
      simp only [Bool.not_eq_true] at unfinished
      rw [unfinished]
      exact ⟨_, .attend last (@Attend.giveUp _ ticket .latch rfl open_)⟩

/-- What a start does to one sweeper, when neither assertion is broken. -/
theorem Calls.launch {batch : Assignment} {assigned started : Sweeper}
    (stage : berth.launch = some (.fill batch))
    (accepted : berth.sweeper.assign batch.pages batch.round = .ok assigned)
    (launched : assigned.launch = .ok started) :
    berth.Calls [.fill batch, .ready, .ready, .nudge assigned.assignment]
      { berth with sweeper := started, launch := none } := by
  unfold Sweeper.launch at launched
  dsimp only at launched
  split at launched
  next => cases launched
  next rest =>
    cases launched
    obtain ⟨sweeper, load, launch, queued, waiter, polls, poller⟩ := berth
    dsimp only at stage accepted
    subst stage
    have filled := Calls.launching
      (@Calls.nil ⟨sweeper, load, some (.fill batch), queued, waiter, polls, poller⟩)
      (.fill rfl accepted)
    have renewed := Calls.launching filled (.renew rfl)
    have flown := Calls.launching renewed (.fly rfl (by simpa using rest))
    exact .launching flown (.nudge rfl)

/-- A start stops short at a sweeper when one of its assertions is broken there. -/
theorem Calls.refused {batch : Assignment} {fault : Fault}
    (stage : berth.launch = some (.fill batch))
    (failed : (berth.sweeper.assign batch.pages batch.round).bind Sweeper.launch = .error fault) :
    ∃ happenings middle, berth.Calls happenings middle ∧ middle.refusal? = some fault := by
  cases accepted : berth.sweeper.assign batch.pages batch.round with
  | error early =>
      rw [accepted] at failed
      cases failed
      exact ⟨[], berth, .nil, by simp only [refusal?, stage, accepted]⟩
  | ok assigned =>
      rw [accepted] at failed
      change assigned.launch = .error fault at failed
      unfold Sweeper.launch at failed
      dsimp only at failed
      split at failed
      next flight =>
        cases failed
        have filled := Calls.launching (@Calls.nil berth) (.fill stage accepted)
        exact ⟨_, _, .launching filled (.renew rfl), if_pos flight⟩
      next => cases failed

end Berth

end Reclaim
