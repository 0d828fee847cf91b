import Reclaim.Proofs.Watch.Round

/-! Nobody gets stuck. Whatever is under way at a sweeper, somebody who has a part in it can take the
next step; and every such step brings its party nearer to its end, so that all calls return if only
those steps are taken. -/

namespace Reclaim

open Launch (owed)

open WaitStage (consumed)

open Poller (borrowed)

def SweeperPhase.awake : SweeperPhase → Bool
  | .woken => true
  | phase => phase.busy

theorem SweeperPhase.token_of_awake {phase : SweeperPhase} (awake : phase.awake = true) :
    phase.token = 1 := by
  cases phase with
  | idle => cases awake
  | _ => rfl

theorem Handshake.awake {sweeper : Sweeper} {load : Load} (shake : Handshake false sweeper load)
    (working : sweeper.phase.token = 1) : sweeper.phase.awake = true := by
  obtain ⟨unleaving, unexited⟩ := shake.running rfl
  have alive := shake.alive
  cases phase : sweeper.phase with
  | idle =>
      rw [phase] at working
      cases working
  | leaving => exact absurd phase unleaving
  | exited => exact absurd phase unexited
  | died => exact absurd phase alive
  | _ => rfl

def Launch.rank : Option Launch → Nat
  | none => 0
  | some (.fill batch) => 10 + 2 * batch.pages.length
  | some .renew => 3
  | some .fly => 2
  | some .nudge => 1

def WaitStage.rank : Option WaitStage → Nat
  | none => 0
  | some .admitted => 5
  | some .blocked => 4
  | some .holding => 3
  | some .latched => 2
  | some .landed => 1

def Poll.rank (poll : Poll) : Nat :=
  match poll.approach with
  | .look .flight => 11
  | .look .latch => 10
  | .queued => 9

def Poller.rank : Option Poller → Nat
  | none => 0
  | some ⟨_, .look false .flight⟩ => 8
  | some ⟨_, .look false .latch⟩ => 7
  | some ⟨_, .trying⟩ => 6
  | some ⟨_, .look true .flight⟩ => 5
  | some ⟨_, .look true .latch⟩ => 4
  | some ⟨_, .borrowing⟩ => 5
  | some ⟨_, .latched⟩ => 4

namespace Berth

variable {berth next : Berth} {site later : Site} {happening : Happening}

def rank (berth : Berth) : Nat :=
  Launch.rank berth.launch +
    (berth.sweeper.settled berth.launch berth.waiter berth.poller).rank berth.load +
    6 * berth.queued + WaitStage.rank berth.waiter + (berth.polls.map Poll.rank).sum +
    Poller.rank berth.poller

/-- What a wait call for the end can count on: the sweeper has a permit to take or is between waking and
the signal of the end, or the permit of the end is there, or a poll has borrowed it. -/
def Promised (berth : Berth) : Prop :=
  0 < berth.sweeper.begun.permits ∨ berth.sweeper.phase.awake = true ∨
    0 < berth.sweeper.ended.permits ∨ borrowed berth.poller = 1

structure Still (berth : Berth) : Prop where
  unlaunched : berth.launch = none
  unqueued : berth.queued = 0
  unawaited : berth.waiter = none
  unpolled : berth.polls = []
  alone : berth.poller = none
  idle : berth.sweeper.begun.permits + berth.sweeper.phase.token = 0

theorem settled_rank {launch begun : Option Launch} {sweeper other : Sweeper} {load : Load}
    {waiter held : Option WaitStage} {poller inside : Option Poller}
    (phase : other.phase = sweeper.phase) (assignment : other.assignment = sweeper.assignment)
    (permits : other.begun.permits + owed begun = sweeper.begun.permits + owed launch) :
    (other.settled begun held inside).rank load = (sweeper.settled launch waiter poller).rank load := by
  simp only [Sweeper.rank, Sweeper.settled, phase, assignment, permits]
  rfl

theorem rank_launch {other : Sweeper} {begun : Option Launch} (berth : Berth)
    (phase : other.phase = berth.sweeper.phase)
    (assignment : other.assignment = berth.sweeper.assignment)
    (permits : other.begun.permits + owed begun = berth.sweeper.begun.permits + owed berth.launch)
    (less : Launch.rank begun < Launch.rank berth.launch) :
    rank { berth with sweeper := other, launch := begun } < berth.rank := by
  have same : (other.settled begun berth.waiter berth.poller).rank berth.load =
      (berth.sweeper.settled berth.launch berth.waiter berth.poller).rank berth.load :=
    settled_rank phase assignment permits
  simp only [rank, same]
  omega

theorem rank_middle (first last : List Poll) (poll : Poll) :
    ((first ++ poll :: last).map Poll.rank).sum = poll.rank + ((first ++ last).map Poll.rank).sum := by
  simp only [List.map_append, List.map_cons, List.sum_append, List.sum_cons]
  omega

theorem Attend.settled_rank (attend : berth.Attend happening next) :
    (next.sweeper.settled next.launch next.waiter next.poller).rank next.load =
      (berth.sweeper.settled berth.launch berth.waiter berth.poller).rank berth.load := by
  obtain ⟨launch, load, phase, assignment, begun, _⟩ := attend.kept
  rw [launch, load]
  exact Berth.settled_rank phase assignment (by rw [begun])

theorem Attend.nearer (attend : berth.Attend happening next) (inner : happening.goesOn = true) :
    next.rank < berth.rank := by
  unfold rank
  rw [attend.settled_rank]
  cases attend <;> dsimp only
  case call | poll => cases inner
  case serve waiting free =>
    rw [waiting, free]
    simp only [WaitStage.rank]
    omega
  case seek stage _ | pass stage _ | acquire stage _ | latch stage | land stage | collect stage =>
    rw [stage]
    simp only [WaitStage.rank]
    omega
  case glance split _ =>
    simp only [split, rank_middle, Poll.rank]
    omega
  case doubt look split _ | spot look split _ =>
    cases look <;> simp only [split, rank_middle, Poll.rank] <;> omega
  case enter split free =>
    rw [split, rank_middle, free]
    simp only [Poller.rank, Poll.rank]
    omega
  case glanceInside last stage _ =>
    rw [stage]
    cases last <;> simp only [Poller.rank] <;> omega
  case spotInside last look stage _ =>
    rw [stage]
    cases last <;> cases look <;> simp only [Poller.rank] <;> omega
  case attempt look stage _ | giveUp look stage _ =>
    rw [stage]
    cases look <;> simp only [Poller.rank] <;> omega
  case borrow stage _ | miss stage _ | mark stage | giveBack stage =>
    rw [stage]
    simp only [Poller.rank]
    omega

theorem Launching.nearer (launching : berth.Launching happening next) (ordered : berth.Ordered) :
    next.rank < berth.rank := by
  cases launching
  case fill batch assigned stage accepted =>
    obtain ⟨sweeper, load, launch, queued, waiter, polls, poller⟩ := berth
    dsimp only at stage accepted
    subst stage
    obtain ⟨idle, begun, _⟩ := Order.pledged ordered
    dsimp only at idle begun
    obtain rfl := Order.assigned ordered accepted
    have before : (sweeper.settled (some (.fill batch)) waiter poller).rank load = 0 := by
      simp [Sweeper.rank, Sweeper.settled, idle, begun, owed]
    have after : (({ sweeper with assignment := batch } : Sweeper).settled (some .renew) waiter
        poller).rank load = 6 + 2 * batch.pages.length := by
      simp [Sweeper.rank, Sweeper.settled, idle, begun, owed]
    simp only [rank, Launch.rank, before, after]
    omega
  case renew stage | fly stage _ | nudge stage =>
    exact rank_launch berth rfl rfl (by rw [stage]; rfl) (by rw [stage]; decide)

theorem Step.nearer (step : berth.Step site happening next later) (inner : happening.goesOn = true)
    (calm : happening.fault? = none)
    (young : ∀ page ∈ happening.sweeps, page.sweeps + 1 < Word.halfLimit) (ordered : berth.Ordered)
    (regular : berth.load.Regular site.heap) : next.rank < berth.rank := by
  cases step with
  | chore move =>
      obtain ⟨unlaunched, _, _, _, _, _, shake⟩ := Order.working ordered move.working
      have nearer := move.rank calm young shake regular
      have seen (sweeper : Sweeper) (load : Load) :
          (sweeper.settled berth.launch berth.waiter berth.poller).rank load = sweeper.rank load := by
        simp only [Sweeper.rank, Sweeper.settled, unlaunched, Nat.add_zero]
      simp only [rank, seen]
      omega
  | attend attend => exact attend.nearer inner
  | launching launching => exact launching.nearer ordered

/-! Somebody can always go on. -/

theorem go_inside {poller : Poller} (inside : berth.poller = some poller) :
    ∃ happening next, berth.Attend happening next ∧ happening.goesOn = true := by
  obtain ⟨ticket, ⟨last, look⟩ | trying | borrowing | latched⟩ := poller
  · cases sight : berth.sweeper.spot look with
    | none =>
        cases look with
        | flight => exact ⟨_, _, .glanceInside inside sight, rfl⟩
        | latch => cases sight
    | some ended =>
        cases ended with
        | true => exact ⟨_, _, .spotInside inside sight, rfl⟩
        | false =>
            cases last with
            | false => exact ⟨_, _, .attempt inside sight, rfl⟩
            | true => exact ⟨_, _, .giveUp inside sight, rfl⟩
  · cases acquired : berth.sweeper.acquireEnd? with
    | none => exact ⟨_, _, .miss inside acquired, rfl⟩
    | some taken => exact ⟨_, _, .borrow inside acquired, rfl⟩
  · exact ⟨_, _, .mark inside, rfl⟩
  · exact ⟨_, _, .giveBack inside, rfl⟩

theorem go_poll {poll : Poll} {rest : List Poll} (first : berth.polls = poll :: rest) :
    ∃ happening next, berth.Attend happening next ∧ happening.goesOn = true := by
  have split : berth.polls = [] ++ poll :: rest := first
  obtain ⟨ticket, ⟨look⟩ | queued⟩ := poll
  · cases sight : berth.sweeper.spot look with
    | none =>
        cases look with
        | flight => exact ⟨_, _, .glance split sight, rfl⟩
        | latch => cases sight
    | some ended =>
        cases ended with
        | true => exact ⟨_, _, .spot split sight, rfl⟩
        | false => exact ⟨_, _, .doubt split sight, rfl⟩
  · cases inside : berth.poller with
    | none => exact ⟨_, _, .enter split inside, rfl⟩
    | some poller => exact go_inside inside

/-- A wait call that is blocked has the end promised to it, unless the start that raised the flag has
yet to post the permit to begin. -/
theorem Ordered.blocked (ordered : berth.Ordered) (blocked : berth.waiter = some .blocked) :
    berth.Promised ∨ berth.launch = some .nudge := by
  have flight := ordered.waiting (.inl blocked)
  by_cases unlaunched : owed berth.launch = 0
  · -- The permit of the round in flight is in one place, and neither the start nor the waiter has it.
    have counted := Order.counted ordered
    rw [Order.inFlight_settled unlaunched (by rw [blocked]; nofun), if_pos flight, unlaunched,
      blocked] at counted
    simp only [consumed] at counted
    by_cases working : berth.sweeper.phase.token = 1
    · obtain ⟨_, _, _, _, _, _, shake⟩ := Order.working ordered (by omega)
      exact .inl (.inr (.inl (shake.awake working)))
    · refine .inl ?_
      unfold Promised
      omega
  · refine .inr ?_
    by_contra other
    have launched : berth.launch ≠ none := fun none => unlaunched (by rw [none]; rfl)
    have rest := (ordered.dormant launched other).1
    rw [flight] at rest
    cases rest

theorem go_sweeper (ordered : berth.Ordered) (site : Site)
    (busy : 0 < berth.sweeper.begun.permits + berth.sweeper.phase.token) :
    ∃ happening next later, berth.Step site happening next later ∧ happening.goesOn = true ∧
      happening.launches = false := by
  obtain ⟨_, _, _, _, _, _, shake⟩ := Order.working ordered busy
  obtain ⟨chore, next, taken, later, move⟩ := Move.awake site shake
    (fun idle => by
      rw [idle] at busy
      simp only [SweeperPhase.token] at busy
      omega)
    (shake.running rfl).2
  exact ⟨_, _, _, .chore move, rfl, rfl⟩

theorem go_wait (ordered : berth.Ordered) (site : Site) (unlaunched : berth.launch = none)
    {stage : WaitStage} (waits : berth.waiter = some stage) :
    ∃ happening next later, berth.Step site happening next later ∧ happening.goesOn = true ∧
      happening.launches = false := by
  have attending (some : ∃ happening next, berth.Attend happening next ∧ happening.goesOn = true) :
      ∃ happening next later, berth.Step site happening next later ∧ happening.goesOn = true ∧
        happening.launches = false := by
    obtain ⟨happening, next, attend, inner⟩ := some
    exact ⟨_, _, _, .attend attend, inner, attend.frame.2.2⟩
  cases stage with
  | admitted =>
      cases flight : berth.sweeper.inFlight with
      | true => exact attending ⟨_, _, .seek waits flight, rfl⟩
      | false => exact attending ⟨_, _, .pass waits flight, rfl⟩
  | blocked =>
      rcases ordered.blocked waits with (begun | awake | ended | lent) | nudge
      · exact go_sweeper ordered site (by omega)
      · have working := SweeperPhase.token_of_awake awake
        exact go_sweeper ordered site (by omega)
      · have acquired : berth.sweeper.acquireEnd? = some
            { berth.sweeper with ended := ⟨berth.sweeper.ended.permits - 1⟩ } := by
          simp [Sweeper.acquireEnd?, Semaphore.acquire?, ended]
        exact attending ⟨_, _, .acquire waits acquired, rfl⟩
      · cases inside : berth.poller with
        | none =>
            rw [inside] at lent
            cases lent
        | some poller => exact attending (go_inside inside)
      · rw [unlaunched] at nudge
        cases nudge
  | holding => exact attending ⟨_, _, .latch waits, rfl⟩
  | latched => exact attending ⟨_, _, .land waits, rfl⟩
  | landed => exact attending ⟨_, _, .collect waits, rfl⟩

theorem go (ordered : berth.Ordered) (site : Site) (unlaunched : berth.launch = none)
    (busy : ¬ berth.Still) :
    ∃ happening next later, berth.Step site happening next later ∧ happening.goesOn = true ∧
      happening.launches = false := by
  cases waits : berth.waiter with
  | some stage => exact go_wait ordered site unlaunched waits
  | none =>
      cases queued : berth.queued with
      | succ others => exact ⟨_, _, _, .attend (.serve queued waits), rfl, rfl⟩
      | zero =>
          cases inside : berth.poller with
          | some poller =>
              obtain ⟨happening, next, attend, inner⟩ := go_inside inside
              exact ⟨_, _, _, .attend attend, inner, attend.frame.2.2⟩
          | none =>
              cases polls : berth.polls with
              | cons poll rest =>
                  obtain ⟨happening, next, attend, inner⟩ := go_poll polls
                  exact ⟨_, _, _, .attend attend, inner, attend.frame.2.2⟩
              | nil =>
                  refine go_sweeper ordered site (Nat.pos_of_ne_zero fun idle => busy ?_)
                  exact ⟨unlaunched, queued, waits, polls, inside, idle⟩

theorem go_launch (ordered : berth.Ordered) (launched : berth.launch ≠ none) :
    ∃ happening next, berth.Launching happening next ∧ happening.goesOn = true := by
  rcases stage : berth.launch with none | ⟨batch | renew | fly | nudge⟩
  · exact absurd stage launched
  · have accepted := ordered.accepted
    rw [refusal?, stage] at accepted
    dsimp only at accepted
    split at accepted
    · cases accepted
    · next assigned => exact ⟨_, _, .fill stage assigned, rfl⟩
  · exact ⟨_, _, .renew stage, rfl⟩
  · exact ⟨_, _, .fly stage (ordered.dormant launched (by simp [stage])).1, rfl⟩
  · exact ⟨_, _, .nudge stage, rfl⟩

/-- Where a sweeper has died and a wait call is blocked, nobody who has a part in it can go on. -/
theorem Step.stuck (step : berth.Step site happening next later) (died : berth.sweeper.phase = .died)
    (ended : berth.sweeper.ended.permits = 0) (unlaunched : berth.launch = none)
    (blocked : berth.waiter = some .blocked) (unpolled : berth.polls = [])
    (alone : berth.poller = none) : happening.goesOn = false := by
  cases step with
  | chore move =>
      cases move with
      | wake taken => simp [Sweeper.takePermit?, died] at taken
      | heed phase | take phase | sweep phase _ | publish _ phase _ _ | conclude phase _ | leave phase
        | signal phase | acknowledge phase =>
          rw [died] at phase
          cases phase
  | launching launching =>
      cases launching with
      | fill stage _ | renew stage | fly stage _ | nudge stage =>
          rw [unlaunched] at stage
          cases stage
  | attend attend =>
      cases attend with
      | call | poll => rfl
      | serve _ free =>
          rw [blocked] at free
          cases free
      | acquire _ acquired => simp [Sweeper.acquireEnd?, Semaphore.acquire?, ended] at acquired
      | seek stage _ | pass stage _ | latch stage | land stage | collect stage =>
          rw [blocked] at stage
          cases stage
      | glance split _ | spot split _ | doubt split _ | enter split _ => simp [unpolled] at split
      | glanceInside stage _ | spotInside stage _ | attempt stage _ | giveUp stage _ | borrow stage _
        | miss stage _ | mark stage | giveBack stage =>
          rw [alone] at stage
          cases stage

theorem first_launched {berths : List Berth} (some : ∃ berth ∈ berths, berth.launch ≠ none) :
    ∃ early berth late, berths = early ++ berth :: late ∧ (∀ other ∈ early, other.launch = none) ∧
      berth.launch ≠ none := by
  induction berths with
  | nil =>
      obtain ⟨_, member, _⟩ := some
      cases member
  | cons first rest ih =>
      by_cases launched : first.launch = none
      · obtain ⟨berth, member, busy⟩ := some
        rcases List.mem_cons.mp member with rfl | inRest
        · exact absurd launched busy
        · obtain ⟨early, next, late, rfl, dealt, here⟩ := ih ⟨berth, inRest, busy⟩
          exact ⟨first :: early, next, late, rfl, List.forall_mem_cons.mpr ⟨launched, dealt⟩, here⟩
      · exact ⟨[], first, rest, rfl, by simp, launched⟩

end Berth

namespace Watch

variable {watch next : Watch} {moment : Moment}

def rank (watch : Watch) : Nat := (watch.berths.map Berth.rank).sum

/-- As long as anything is under way, one of those who have a part in it can go on. -/
theorem Sound.go (sound : watch.Sound) (busy : ∃ berth ∈ watch.berths, ¬ berth.Still) :
    ∃ moment next, Step watch moment next ∧ moment.goesOn = true := by
  obtain ⟨berths, site, loose⟩ := watch
  by_cases launched : ∃ berth ∈ berths, berth.launch ≠ none
  · obtain ⟨early, berth, late, rfl, dealt, here⟩ := Berth.first_launched launched
    obtain ⟨happening, next, launching, inner⟩ := Berth.go_launch sound.at_berth here
    exact ⟨_, _, .here (.launching launching) fun _ => dealt, inner⟩
  · obtain ⟨berth, member, moving⟩ := busy
    have unlaunched : berth.launch = none := by
      by_contra here
      exact launched ⟨berth, member, here⟩
    obtain ⟨early, late, rfl⟩ := List.append_of_mem member
    obtain ⟨happening, next, later, step, inner, other⟩ :=
      Berth.go sound.at_berth site unlaunched moving
    refine ⟨_, _, .here step fun launches => ?_, inner⟩
    rw [other] at launches
    cases launches

/-- What goes on comes to an end. -/
theorem Step.nearer (step : Step watch moment next) (inner : moment.goesOn = true)
    (sound : watch.Sound) (young : moment.Young) : next.rank < watch.rank := by
  cases step with
  | here step inOrder =>
      have calm := ((Step.here step inOrder).sound sound young).1
      have nearer := step.nearer inner calm young sound.at_berth sound.regular
      simp only [rank, List.map_append, List.map_cons, List.sum_append, List.sum_cons]
      omega
  | start | refuse | deed | books => cases inner

end Watch

end Reclaim
