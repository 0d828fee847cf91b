import Reclaim.Proofs.Watch.Published

/-! Polls. A poll that answers that the round has ended tells the truth: the batch is swept and published,
and its outcome has been handed over. From then on every other poll gives the same answer until the
next batch is left. No poll takes the permit of the end away from those who wait for it. -/

namespace Reclaim

open WaitStage (consumed)

open Poller (borrowed)

open Happening (total wakes signals acquires collects)

theorem Sweeper.spot_true {sweeper : Sweeper} {look : Look} (sight : sweeper.spot look = some true) :
    sweeper.isFinishedRound = true := by
  cases look with
  | flight =>
      simp only [spot] at sight
      split at sight
      next => cases sight
      next rest => simp [isFinishedRound, rest]
  | latch => simp [isFinishedRound, Option.some.inj sight]

namespace Berth

variable {berth next : Berth} {site later : Site} {happening : Happening} {batch : List Page}
  {happenings : List Happening}

/-- A round that is seen to have ended has ended. -/
theorem Round.finished (round : berth.Round batch happenings) (ordered : berth.Ordered)
    (finished : berth.sweeper.isFinishedRound = true) : 0 < total signals happenings := by
  have acquired := round.acquired
  have collected := round.collected
  cases flight : berth.sweeper.inFlight with
  | true =>
      have seen := ordered.seen flight (by simpa [Sweeper.isFinishedRound, flight] using finished)
      simp only [Sweeper.settled] at seen
      omega
  | false =>
      rcases round.down flight with landed | once
      · rw [landed] at collected
        simp only [consumed] at collected
        omega
      · omega

/-- Whoever answers that the round has ended has seen it, or has had the permit of the end. -/
theorem Attend.sure {ticket : Nat} (attend : berth.Attend (.answer ticket true) next)
    (ordered : berth.Ordered) :
    berth.sweeper.isFinishedRound = true ∧ next.sweeper.isFinishedRound = true := by
  generalize whole : Happening.answer ticket true = happening at attend
  cases attend
  case spot sight | spotInside sight => exact ⟨Sweeper.spot_true sight, Sweeper.spot_true sight⟩
  case giveBack stage =>
    have told := ordered.told _ stage
    exact ⟨by simp [Sweeper.isFinishedRound, told],
      by simp [Sweeper.isFinishedRound, Sweeper.returnEnd, told]⟩
  all_goals cases whole

def Unreached (berth : Berth) : Prop :=
  berth.launch = none ∨ ∃ batch, berth.launch = some (.fill batch)

theorem Step.unreached (step : berth.Step site happening next later) (unreached : berth.Unreached)
    (same : ∀ batch, happening ≠ .fill batch) : next.Unreached := by
  cases step with
  | chore => exact unreached
  | attend attend =>
      unfold Unreached
      rw [attend.kept.1]
      exact unreached
  | launching launching =>
      rcases launching.kept with ⟨batch, fill⟩ | renew | fly | nudge
      · exact absurd fill (same batch)
      all_goals
        rcases unreached with none | ⟨_, fill⟩ <;> simp_all

theorem Step.flags (step : berth.Step site happening next later) (ordered : berth.Ordered)
    (calm : happening.fault? = none) (unreached : berth.Unreached) :
    (berth.sweeper.completed = true → next.sweeper.completed = true) ∧
      (berth.sweeper.inFlight = false → next.sweeper.inFlight = false) := by
  cases step with
  | chore move =>
      obtain ⟨_, _, _, unended, _⟩ := Order.working ordered move.working
      have latch := (move.handed calm unended fun phase => ordered.handed (.inr phase)).1
      have flight := move.flight calm
      exact ⟨latch.trans, flight.trans⟩
  | attend attend =>
      cases attend
      case acquire acquired | borrow acquired =>
        obtain ⟨_, rfl⟩ := Sweeper.acquireEnd?_some acquired
        exact ⟨id, id⟩
      case latch | mark => exact ⟨fun _ => rfl, id⟩
      case land => exact ⟨id, fun _ => rfl⟩
      all_goals exact ⟨id, id⟩
  | launching launching =>
      cases launching
      case fill stage accepted =>
        obtain rfl := (ordered.at_stage stage).assigned accepted
        exact ⟨id, id⟩
      case renew stage | fly stage _ | nudge stage =>
        rcases unreached with none | ⟨_, fill⟩
        · rw [stage] at none
          cases none
        · rw [stage] at fill
          cases fill

theorem Step.finished (step : berth.Step site happening next later) (ordered : berth.Ordered)
    (calm : happening.fault? = none) (unreached : berth.Unreached)
    (finished : berth.sweeper.isFinishedRound = true) : next.sweeper.isFinishedRound = true := by
  obtain ⟨latch, flag⟩ := step.flags ordered calm unreached
  simp only [Sweeper.isFinishedRound, Bool.or_eq_true, Bool.not_eq_true'] at finished ⊢
  exact finished.imp flag latch

structure Steady (ticket : Nat) (berth : Berth) : Prop where
  finished : berth.sweeper.isFinishedRound = true
  outside : ∀ poll ∈ berth.polls, poll.ticket = ticket →
    poll.approach = .look .flight ∨
      (poll.approach = .look .latch ∧ berth.sweeper.completed = true)
  other : ∀ poller, berth.poller = some poller → poller.ticket ≠ ticket

namespace Steady

variable {ticket : Nat}

theorem mem_replaced {polls first last : List Poll} {old new poll : Poll}
    (split : polls = first ++ old :: last) (member : poll ∈ first ++ new :: last) :
    poll ∈ polls ∨ poll = new := by
  rw [split]
  rcases List.mem_append.mp member with front | back
  · exact .inl (List.mem_append_left _ front)
  · rcases List.mem_cons.mp back with same | rest
    · exact .inr same
    · exact .inl (List.mem_append_right _ (List.mem_cons_of_mem _ rest))

theorem mem_removed {polls first last : List Poll} {old poll : Poll}
    (split : polls = first ++ old :: last) (member : poll ∈ first ++ last) : poll ∈ polls := by
  rw [split]
  exact ((List.sublist_cons_self old last).append_left first).subset member

theorem begin (attend : berth.Attend (.poll ticket) next)
    (finished : berth.sweeper.isFinishedRound = true) : next.Steady ticket := by
  generalize whole : Happening.poll ticket = happening at attend
  cases attend
  case poll unused other =>
    cases whole
    refine ⟨finished, fun poll member same => ?_, other⟩
    rcases List.mem_append.mp member with old | new
    · exact absurd same (unused poll old)
    · rw [List.mem_singleton.mp new]
      exact .inl rfl
  all_goals cases whole

theorem answer {ended : Bool} (steady : berth.Steady ticket)
    (attend : berth.Attend (.answer ticket ended) next) : ended = true := by
  generalize whole : Happening.answer ticket ended = happening at attend
  cases attend
  case spot | spotInside | giveBack =>
    cases whole
    rfl
  case giveUp stage _ =>
    cases whole
    exact absurd rfl (steady.other _ stage)
  all_goals cases whole

theorem kept (steady : berth.Steady ticket) (finished : next.sweeper.isFinishedRound = true)
    (latch : berth.sweeper.completed = true → next.sweeper.completed = true)
    (outside : ∀ poll ∈ next.polls, poll.ticket = ticket →
      poll ∈ berth.polls ∨ poll.approach = .look .flight ∨
        (poll.approach = .look .latch ∧ next.sweeper.completed = true))
    (other : ∀ poller, next.poller = some poller → poller.ticket = ticket →
      ∃ before, berth.poller = some before ∧ before.ticket = ticket) : next.Steady ticket where
  finished := finished
  outside poll member same := by
    rcases outside poll member same with old | sure
    · exact (steady.outside poll old same).imp_right fun ⟨look, seen⟩ => ⟨look, latch seen⟩
    · exact sure
  other poller inside same := by
    obtain ⟨before, there, own⟩ := other poller inside same
    exact steady.other before there own

theorem attend (steady : berth.Steady ticket) (attend : berth.Attend happening next)
    (finished : next.sweeper.isFinishedRound = true)
    (latch : berth.sweeper.completed = true → next.sweeper.completed = true) :
    next.Steady ticket := by
  cases attend
  case poll =>
    refine steady.kept finished latch (fun poll member _ => ?_) fun poller inside same =>
      ⟨poller, inside, same⟩
    rcases List.mem_append.mp member with old | new
    · exact .inl old
    · rw [List.mem_singleton.mp new]
      exact .inr (.inl rfl)
  case glance first last _ split sight =>
    refine steady.kept finished latch (fun poll member _ => ?_) fun poller inside same =>
      ⟨poller, inside, same⟩
    have seen := steady.finished
    simp only [Sweeper.spot] at sight
    split at sight
    next flight =>
      simp only [Sweeper.isFinishedRound, flight, Bool.not_true, Bool.false_or] at seen
      rcases mem_replaced split member with old | rfl
      · exact .inl old
      · exact .inr (.inr ⟨rfl, seen⟩)
    next => cases sight
  case spot split _ =>
    exact steady.kept finished latch (fun _ member _ => .inl (mem_removed split member))
      fun poller inside same => ⟨poller, inside, same⟩
  case doubt first last owner look split sight =>
    -- Only the latch can say that the round is on, and a steady poll that comes to the latch finds it set.
    have apart : owner ≠ ticket := by
      rintro rfl
      rcases steady.outside ⟨owner, .look look⟩ (by simp [split]) rfl with flight | ⟨latch, seen⟩
      · cases flight
        simp only [Sweeper.spot] at sight
        split at sight <;> cases sight
      · cases latch
        rw [Sweeper.spot, seen] at sight
        cases sight
    refine steady.kept finished latch (fun poll member same => ?_) fun poller inside same =>
      ⟨poller, inside, same⟩
    rcases mem_replaced split member with old | rfl
    · exact .inl old
    · exact absurd same apart
  case enter first last owner split _ =>
    refine steady.kept finished latch (fun _ member _ => .inl (mem_removed split member))
      fun poller inside same => ?_
    cases inside
    rcases steady.outside ⟨owner, .queued⟩ (by simp [split]) same with flight | ⟨latch, _⟩
    · cases flight
    · cases latch
  case glanceInside stage _ | attempt stage _ | miss stage _ | borrow stage _ | mark stage =>
    refine steady.kept finished latch (fun _ member _ => .inl member) fun poller inside same => ?_
    cases inside
    exact ⟨_, stage, same⟩
  case spotInside | giveUp | giveBack =>
    exact steady.kept finished latch (fun _ member _ => .inl member) (by simp)
  all_goals
    exact steady.kept finished latch (fun _ member _ => .inl member) fun poller inside same =>
      ⟨poller, inside, same⟩

theorem step (steady : berth.Steady ticket) (step : berth.Step site happening next later)
    (ordered : berth.Ordered) (calm : happening.fault? = none) (unreached : berth.Unreached) :
    next.Steady ticket := by
  have finished := step.finished ordered calm unreached steady.finished
  have latch := (step.flags ordered calm unreached).1
  cases step with
  | attend attend => exact steady.attend attend finished latch
  | chore =>
      exact steady.kept finished latch (fun _ member _ => .inl member) fun poller inside same =>
        ⟨poller, inside, same⟩
  | launching launching =>
      cases launching <;>
        exact steady.kept finished latch (fun _ member _ => .inl member) fun poller inside same =>
          ⟨poller, inside, same⟩

end Steady

theorem Step.answers {ticket : Nat} {ended : Bool}
    (step : berth.Step site (.answer ticket ended) next later) :
    berth.Attend (.answer ticket ended) next := by
  cases step with
  | attend attend => exact attend
  | launching launching => cases launching

theorem Step.polls {ticket : Nat} (step : berth.Step site (.poll ticket) next later) :
    berth.Attend (.poll ticket) next := by
  cases step with
  | attend attend => exact attend
  | launching launching => cases launching

end Berth

namespace Watch

variable {watch next first : Watch} {moment : Moment} {moments more : List Moment} {index : Nat}
  {berth : Berth}

/-- What every step at a sweeper keeps, but for the steps of a start, is kept until the next batch is
left. -/
theorem Run.keeps_at {property : Berth → Prop} (run : Run first more watch) (sound : first.Sound)
    (young : ∀ moment ∈ more, moment.Young) (unfilled : ∀ batch, .here index (.fill batch) ∉ more)
    (here : first.berths[index]? = some berth) (unreached : berth.Unreached) (start : property berth)
    (step : ∀ {berth next : Berth} {site later : Site} {happening : Happening},
      berth.Step site happening next later → berth.Ordered → happening.fault? = none →
      berth.Unreached → property berth → property next)
    (pledge : ∀ {berth : Berth} (batch : Assignment), property berth →
      property { berth with launch := some (.fill batch) }) :
    ∃ after, watch.berths[index]? = some after ∧ after.Unreached ∧ property after := by
  induction run with
  | nil => exact ⟨berth, here, unreached, start⟩
  | @snoc more moment watch next earlier last ih =>
      have youth : ∀ moment ∈ more, moment.Young := fun moment member => young moment (by simp [member])
      obtain ⟨middle, there, free, kept⟩ := ih youth fun batch member => unfilled batch (by simp [member])
      have steady := (Run.sound earlier sound youth).2
      have calm := (last.sound steady (young moment (by simp))).1
      rcases last.at_index steady there with ⟨happening, after, rfl, found, inner, _⟩ |
        ⟨_, after, found, rfl | ⟨_, batch, rfl⟩⟩
      · refine ⟨after, found, inner.unreached free ?_,
          step inner (steady.at_index there) calm free kept⟩
        rintro batch rfl
        exact unfilled batch (by simp)
      · exact ⟨after, found, free, kept⟩
      · exact ⟨_, found, .inr ⟨batch, rfl⟩, pledge batch kept⟩

structure Polling (moments : List Moment) (watch : Watch) : Prop where
  truthful : ∀ earlier index batch later ticket,
    moments = earlier ++ .here index (.nudge batch) :: (later ++ [.here index (.answer ticket true)]) →
    (∀ next, .here index (.fill next) ∉ later) →
    ∃ happenings berth, happenings = happeningsAt index later ∧ watch.berths[index]? = some berth ∧
      total signals happenings = 1 ∧ happenings.flatMap Happening.sweeps = batch.pages ∧
      berth.sweeper.assignment.pages = [] ∧ berth.load.pages = [] ∧
      ((∀ moment ∈ later, moment.isPrepare = false) →
        ∀ page ∈ batch.pages, page.id ∈ watch.published) ∧
      (berth.sweeper.outcome = some (harvest batch.pages) ∨
        .collect (some (harvest batch.pages)) ∈ happenings)
  monotone : ∀ earlier index batch first one second two third ended,
    moments = earlier ++ .here index (.nudge batch) ::
      (first ++ .here index (.answer one true) ::
        (second ++ .here index (.poll two) :: (third ++ [.here index (.answer two ended)]))) →
    (∀ next, .here index (.fill next) ∉ first ++ (second ++ third)) → ended = true
  permits : ∀ earlier index batch later, moments = earlier ++ .here index (.nudge batch) :: later →
    (∀ next, .here index (.fill next) ∉ later) →
    ∃ happenings berth, happenings = happeningsAt index later ∧ watch.berths[index]? = some berth ∧
      berth.sweeper.ended.permits + borrowed berth.poller + total acquires happenings =
        total signals happenings ∧
      total signals happenings ≤ 1

/-- An answer that the round has ended is given after the sweeper has signalled the end. -/
theorem Run.answer_ended {batch : Assignment} {ticket : Nat}
    (run : Run first (moments ++ .here index (.nudge batch) ::
      (more ++ [.here index (.answer ticket true)])) watch) (sound : first.Sound)
    (young : ∀ moment ∈ moments ++ .here index (.nudge batch) ::
      (more ++ [.here index (.answer ticket true)]), moment.Young)
    (unfilled : ∀ next, .here index (.fill next) ∉ more) :
    total signals (happeningsAt index more) = 1 ∧
      ∃ berth, watch.berths[index]? = some berth ∧ berth.Ordered ∧
        berth.sweeper.isFinishedRound = true ∧
        berth.Round batch.pages (happeningsAt index more ++ [.answer ticket true]) := by
  have within : ∀ next, .here index (.fill next) ∉ more ++ [.here index (.answer ticket true)] := by
    intro next member
    rcases List.mem_append.mp member with old | new
    · exact unfilled next old
    · cases List.mem_singleton.mp new
  obtain ⟨berth, here, round, ordered⟩ := run.round sound young within
  rw [happeningsAt_append, happeningsAt_here] at round
  rw [← List.cons_append, ← List.append_assoc] at run young
  obtain ⟨middle, before, answer⟩ := run.last
  obtain ⟨asked, there, earlier, kept⟩ := Run.round before sound (fun moment member =>
    young moment (List.mem_append_left _ member)) unfilled
  obtain ⟨_, after, _, found, reached, inner⟩ := answer.inner
  obtain rfl := Option.some.inj (there.symm.trans found)
  obtain rfl := Option.some.inj (here.symm.trans reached)
  obtain ⟨seen, finished⟩ := inner.answers.sure kept
  have signalled := earlier.finished kept seen
  have woken := earlier.woken
  have counted := earlier.signalled
  exact ⟨by omega, berth, here, ordered, finished, round⟩

/-- A poll that begins after another has answered that the round has ended says the same. -/
theorem Run.monotone {batch : Assignment} {before between after : List Moment} {one two : Nat}
    {ended : Bool}
    (run : Run first (moments ++ .here index (.nudge batch) ::
      (before ++ .here index (.answer one true) ::
        (between ++ .here index (.poll two) :: (after ++ [.here index (.answer two ended)]))))
      watch) (sound : first.Sound)
    (young : ∀ moment ∈ moments ++ .here index (.nudge batch) ::
      (before ++ .here index (.answer one true) ::
        (between ++ .here index (.poll two) :: (after ++ [.here index (.answer two ended)]))),
      moment.Young)
    (unfilled : ∀ next, .here index (.fill next) ∉ before ++ (between ++ after)) : ended = true := by
  have shape : moments ++ .here index (.nudge batch) :: (before ++ .here index (.answer one true) ::
      (between ++ .here index (.poll two) :: (after ++ [.here index (.answer two ended)]))) =
      ((((moments ++ .here index (.nudge batch) :: (before ++ [.here index (.answer one true)])) ++
        between) ++ [.here index (.poll two)]) ++ after) ++ [.here index (.answer two ended)] := by
    simp
  rw [shape] at run young
  simp only [List.mem_append, not_or] at unfilled
  obtain ⟨last, run, second⟩ := run.last
  obtain ⟨asked, run, waiting⟩ := run.split
  obtain ⟨free, run, poll⟩ := run.last
  obtain ⟨told, run, passing⟩ := run.split
  have youth : ∀ moment ∈ moments ++ .here index (.nudge batch) ::
      (before ++ [.here index (.answer one true)]), moment.Young := fun moment member =>
    young moment (List.mem_append_left _ (List.mem_append_left _ (List.mem_append_left _
      (List.mem_append_left _ member))))
  have sure := (Run.sound run sound youth).2
  have fresh : ∀ moment ∈ between, moment.Young := fun moment member => young moment (by simp [member])
  have kept := (Run.sound passing sure fresh).2
  have open_ := (poll.sound kept (young _ (by simp))).2
  obtain ⟨_, berth, here, _, finished, round⟩ := Run.answer_ended run sound youth fun next => (unfilled next).1
  -- What the first answer has seen lasts until the second poll begins.
  obtain ⟨middle, there, unreached, finished⟩ := Run.keeps_at passing sure fresh
    (fun next => (unfilled next).2.1) here round.launched finished
    (fun step ordered calm unreached => step.finished ordered calm unreached) fun _ finished => finished
  obtain ⟨_, polled, _, found, begun, inner⟩ := poll.inner
  obtain rfl := Option.some.inj (there.symm.trans found)
  have steady := Berth.Steady.begin inner.polls finished
  obtain ⟨asking, position, _, steady⟩ := Run.keeps_at waiting open_
    (fun moment member => young moment (by simp [member])) (fun next => (unfilled next).2.2) begun
    (inner.unreached unreached (by simp)) steady
    (fun step ordered calm unreached steady => steady.step step ordered calm unreached)
    fun _ steady => ⟨steady.finished, steady.outside, steady.other⟩
  obtain ⟨_, _, _, same, _, answer⟩ := second.inner
  obtain rfl := Option.some.inj (position.symm.trans same)
  exact steady.answer answer.answers

/-- Whoever answers in a round that it has ended is right, and every poll that begins afterwards
gives the same answer, up to the next batch. No poll keeps the permit of the end. -/
theorem Run.polling {id : HeapId} {deeds : List Deed} {site : Site} {loose : List Page}
    {threads : Nat} (history : History id deeds ⟨site.heap, loose, []⟩)
    (run : Run (opened site loose threads) moments watch)
    (young : ∀ moment ∈ moments, moment.Young) : Polling moments watch := by
  have sure := opened_sound history threads
  constructor
  · rintro earlier index batch later ticket rfl unfilled
    obtain ⟨once, berth, here, ordered, _, round⟩ := run.answer_ended sure young unfilled
    have counted :
        total signals (happeningsAt index later ++ [Happening.answer ticket true]) = 1 := by
      rw [Happening.total_append, once, Happening.total_singleton]
      rfl
    obtain ⟨swept, hand, slot, outcome⟩ := round.ended ordered (by omega)
    refine ⟨_, berth, rfl, here, once, ?_, slot, hand, ?_, ?_⟩
    · simpa [Happening.sweeps] using swept
    · intro same page member
      have quiet : ∀ moment ∈ later ++ [.here index (.answer ticket true)],
          moment.isPrepare = false := by
        intro moment member
        rcases List.mem_append.mp member with old | new
        · exact same moment old
        · rw [List.mem_singleton.mp new]
          rfl
      have delivered := run.delivers sure young quiet here (List.mem_map_of_mem member)
      simpa [Berth.held, Sweeper.held, slot, hand] using delivered
    · rcases Nat.eq_zero_or_pos
        (total collects (happeningsAt index later ++ [.answer ticket true])) with none | some
      · exact .inl (outcome none)
      · obtain ⟨happening, member, taken⟩ := Happening.total_pos some
        cases happening with
        | collect outcome =>
            obtain rfl := round.handed outcome member
            exact .inr (by simpa using member)
        | _ => cases taken
  · rintro earlier index batch first one second two third ended rfl unfilled
    exact run.monotone sure young unfilled
  · rintro earlier index batch later rfl unfilled
    obtain ⟨berth, here, round, _⟩ := run.round sure young unfilled
    have woken := round.woken
    have signalled := round.signalled
    exact ⟨_, berth, rfl, here, round.acquired, by omega⟩

theorem samplePolls_polling :
    History ⟨0⟩ (sampleDeeds.take 5) ⟨sampleSite.heap, [], []⟩ ∧
      ∀ moments, moments <+: samplePolls → (∀ moment ∈ moments, moment.Young) ∧
        ∃ watch, Run (opened sampleSite [] 1) moments watch ∧ Polling moments watch := by
  refine ⟨waitingHeap_history, ?_⟩
  intro moments start
  obtain ⟨watch, run, young⟩ := samplePolls_until start
  exact ⟨young, watch, run, run.polling waitingHeap_history young⟩

end Watch

end Reclaim
