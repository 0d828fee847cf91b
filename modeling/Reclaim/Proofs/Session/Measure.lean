import Mathlib.Data.Nat.ModEq
import Reclaim.Proofs.Session.Steady

/-! A sweep is counted along two routes: page by page in the totals of the heap, and outcome by outcome
in the books of the rounds. What a sweeper has been dealt is on its way along both of them, until its
pages have been swept and its outcome has been reported or taken. -/

namespace Reclaim

inductive Measure where
  | pages
  | freed
  deriving DecidableEq, Repr

namespace Measure

def of : Measure → BatchYield → Nat
  | .pages => BatchYield.pages
  | .freed => BatchYield.freed

def totals : Measure → SweepTotals → Nat
  | .pages => SweepTotals.pages
  | .freed => SweepTotals.freed

def report : Measure → RoundReport → Nat
  | .pages => RoundReport.pages
  | .freed => RoundReport.freed

def counters : Measure → Counters → Nat
  | .pages => Counters.pages
  | .freed => Counters.freed

variable (measure : Measure)

theorem of_plus (total other : BatchYield) :
    measure.of (total.plus other) = measure.of total + measure.of other := by
  cases measure <;> rfl

theorem of_zero : measure.of .zero = 0 := by
  cases measure <;> rfl

theorem totals_after (totals : SweepTotals) (pages : List Page) :
    measure.totals (totals.after pages) ≡ measure.totals totals + measure.of (harvest pages)
      [MOD Word.limit] := by
  induction pages generalizing totals with
  | nil =>
      rw [show harvest [] = .zero from rfl, measure.of_zero]
      rfl
  | cons page pages ih =>
      have first : measure.totals (totals.record page.yielded) ≡
          measure.totals totals + measure.of page.yielded.single [MOD Word.limit] := by
        cases measure <;> exact Nat.mod_modEq _ _
      rw [harvest_cons, measure.of_plus, ← Nat.add_assoc]
      exact (ih (totals.record page.yielded)).trans (first.add_right _)

def held (scene : Scene) : Nat :=
  measure.totals scene.heap.totals +
    measure.of (harvest (aheads scene.coordinator.sweepers scene.hands))

def unreported (round : RoundState) : Nat := if round.pending then measure.of round.merged else 0

def owed (scene : Scene) : Nat :=
  measure.unreported scene.coordinator.round +
    measure.of (dues scene.coordinator.sweepers scene.hands)

def Paid (scene next : Scene) (amount : Nat) : Prop :=
  measure.held next + measure.owed scene ≡ measure.held scene + (measure.owed next + amount)
    [MOD Word.limit]

variable {measure}

theorem Paid.trans {scene middle next : Scene} {amount more : Nat}
    (first : measure.Paid scene middle amount) (second : measure.Paid middle next more) :
    measure.Paid scene next (amount + more) := by
  unfold Paid at first second ⊢
  refine Nat.ModEq.add_right_cancel' (measure.held middle + measure.owed middle) ?_
  have both := second.add first
  calc measure.held next + measure.owed scene + (measure.held middle + measure.owed middle)
      = measure.held next + measure.owed middle + (measure.held middle + measure.owed scene) := by
        omega
    _ ≡ measure.held middle + (measure.owed next + more) +
          (measure.held scene + (measure.owed middle + amount)) [MOD Word.limit] := both
    _ = _ := by omega

theorem Paid.of_same {scene next : Scene} (totals : next.heap.totals = scene.heap.totals)
    (sweepers : next.coordinator.sweepers = scene.coordinator.sweepers)
    (hands : next.hands = scene.hands) (round : next.coordinator.round = scene.coordinator.round) :
    measure.Paid scene next 0 := by
  unfold Paid held owed
  rw [totals, sweepers, hands, round, Nat.add_zero]

/-! What the operations pay. -/

section Operations

variable {coordinator following : Coordinator} {before after : List Sweeper} {sweeper next : Sweeper}
  {early late hands : List Load} {load taken : Load} {client later : Client} {amount index : Nat}

theorem Paid.middle (swept back : List Page) (outcome : BatchYield)
    (split : coordinator.sweepers = before ++ sweeper :: after)
    (same : before.length = early.length) (changed : following.sweepers = before ++ next :: after)
    (ahead : (swept ++ (back ++ next.ahead taken)).Perm (sweeper.ahead load))
    (totals : following.site.heap.totals = coordinator.site.heap.totals.after swept)
    (due : outcome.plus ((next.due taken).plus (harvest back)) = sweeper.due load)
    (books : measure.unreported following.round + amount =
      measure.unreported coordinator.round + measure.of outcome) :
    measure.Paid ⟨coordinator, early ++ load :: late, client⟩
      ⟨following, early ++ taken :: late, later⟩ amount := by
  have grown := measure.totals_after coordinator.site.heap.totals swept
  have pages := congrArg measure.of (harvest_perm ahead)
  have parts := congrArg measure.of due
  unfold Paid held owed
  simp only [Scene.heap, split, changed, aheads_middle same, dues_middle same, harvest_append,
    measure.of_plus, totals] at pages parts ⊢
  rw [Nat.add_assoc]
  refine (grown.add_right _).trans (congrArg (· % Word.limit) ?_)
  omega

theorem Paid.move {site : Site} {chore : Chore}
    (sound : (Scene.mk coordinator (early ++ load :: late) client).Sound)
    (split : coordinator.sweepers = before ++ sweeper :: after)
    (same : before.length = early.length)
    (move : Move coordinator.stopped sweeper load coordinator.site chore next taken site)
    (young : ∀ page ∈ chore.sweeps, page.sweeps + 1 < Word.halfLimit) :
    measure.Paid ⟨coordinator, early ++ load :: late, client⟩
      ⟨{ coordinator with site, sweepers := before ++ next :: after }, early ++ taken :: late, client⟩
      0 := by
  obtain ⟨calm, _⟩ := sound.sweeper split same move young
  obtain ⟨shake, regular⟩ := sound.at_sweeper split same
  obtain ⟨ahead, totals⟩ := move.counted calm young shake regular
  refine .middle chore.sweeps [] .zero split same rfl ahead totals ?_ ?_
  · rw [BatchYield.zero_plus, move.due calm young shake regular]
    exact BatchYield.plus_zero _
  · rw [measure.of_zero]

theorem reports_finalize (measure : Measure) (coordinator : Coordinator) :
    (coordinator.finalize.1.toList.map measure.report).sum = measure.unreported coordinator.round := by
  cases pending : coordinator.round.pending with
  | false => simp [Coordinator.finalize_closed pending, unreported, pending]
  | true =>
      obtain ⟨_, _, reported⟩ := coordinator.finalize_pending pending
      rw [reported, unreported, if_pos pending]
      cases measure <;> exact Nat.add_zero _

theorem Paid.finalize (coordinator : Coordinator) (hands : List Load) (client later : Client) :
    measure.Paid ⟨coordinator, hands, client⟩ ⟨coordinator.finalize.2, hands, later⟩
      (coordinator.finalize.1.toList.map measure.report).sum := by
  obtain ⟨heap, sweepers, _⟩ := coordinator.finalize_frame
  unfold Paid held owed
  simp only [Scene.heap, heap, sweepers, reports_finalize, unreported, coordinator.finalize_closes,
    Bool.false_eq_true, if_false]
  refine congrArg (· % Word.limit) ?_
  omega

theorem unreported_gain {round : RoundState} (index : Nat) {outcome : BatchYield}
    (closed : round.pending = false → outcome = .zero) :
    measure.unreported (round.gain index outcome) = measure.unreported round + measure.of outcome := by
  unfold unreported
  cases pending : round.pending with
  | true => simp [RoundState.gain, pending, measure.of_plus]
  | false => simp [RoundState.gain, pending, closed pending, measure.of_zero]

theorem Paid.await {answer : Except Fault Unit} (steady : Session.Steady ⟨coordinator, hands, .free⟩)
    (known : index < coordinator.numThreads)
    (waited : coordinator.await? index = some (answer, following)) :
    measure.Paid ⟨coordinator, hands, .free⟩ ⟨following, hands, .free⟩ 0 := by
  have staffed := steady.sound.staffed
  obtain ⟨before, sweeper, after, split, rfl⟩ := Coordinator.split_at known
  have team := split ▸ staffed.team
  obtain ⟨early, load, late, rfl, same⟩ := team.find
  obtain ⟨_, ⟨_, rfl⟩ | ⟨_, ended, rfl⟩⟩ := staffed.await_eq split same waited
  · exact .of_same rfl rfl rfl rfl
  · refine .middle [] [] (sweeper.due load) split same rfl (List.Perm.refl _) rfl ?_
      (unreported_gain _ fun closed => (steady.clear split same closed).1)
    rw [(team.middle same).2.1.due_awaited ended]
    exact BatchYield.plus_zero _

theorem Paid.take {outcome : Option BatchYield}
    (steady : Session.Steady ⟨coordinator, hands, .free⟩)
    (took : coordinator.takeOutcome? index = .ok (some (outcome, following))) :
    measure.Paid ⟨coordinator, hands, .free⟩ ⟨following, hands, .free⟩
      (outcome.toList.map measure.of).sum := by
  have staffed := steady.sound.staffed
  obtain ⟨before, sweeper, after, split, rfl⟩ :=
    Coordinator.split_at (Coordinator.takeOutcome?_known took)
  have team := split ▸ staffed.team
  obtain ⟨early, load, late, rfl, same⟩ := team.find
  obtain ⟨place, shake, _⟩ := team.middle same
  rcases Coordinator.takeOutcome?_eq split place took with ⟨_, rfl, rfl⟩ | ⟨_, ended, rfl, rfl⟩
  · exact .of_same rfl rfl rfl rfl
  · refine .middle [] [] (sweeper.due load) split same rfl (List.Perm.refl _) rfl ?_ ?_
    · rw [shake.due_awaited ended]
      exact BatchYield.plus_zero _
    · rw [(shake.due_ended ended).2.2]
      cases sweeper.outcome <;> simp [measure.of_zero]

theorem Paid.ensure {made : Option RoundReport}
    (steady : Session.Steady ⟨coordinator, hands, .free⟩)
    (waited : coordinator.ensure? = some (.ok made, following)) :
    measure.Paid ⟨coordinator, hands, .free⟩ ⟨following, hands, .free⟩
      (made.toList.map measure.report).sum := by
  obtain ⟨last, all, same, rfl⟩ := steady.sound.staffed.ensure_eq waited
  cases same
  have waits : measure.Paid ⟨coordinator, hands, .free⟩ ⟨last, hands, .free⟩ 0 :=
    (steady.awaitEach (fun middle =>
      measure.Paid ⟨coordinator, hands, .free⟩ ⟨middle, hands, .free⟩ 0) (.of_same rfl rfl rfl rfl)
      (fun steady paid known waited => paid.trans (.await steady known waited)) all).2
  rw [← Nat.zero_add (List.sum _)]
  exact waits.trans (.finalize last hands .free .free)

theorem Paid.poll (steady : Session.Steady ⟨coordinator, hands, .free⟩)
    (split : coordinator.sweepers = before ++ sweeper :: after) :
    measure.Paid ⟨coordinator, hands, .free⟩
      ⟨{ coordinator with sweepers := before ++ sweeper.poll.2 :: after }, hands, .free⟩ 0 := by
  obtain ⟨early, load, late, rfl, same⟩ := (split ▸ steady.sound.staffed.team).find
  rw [sweeper.poll_eq]
  refine .middle [] [] .zero split same rfl (List.Perm.refl _) rfl ?_ ?_
  · rw [BatchYield.zero_plus]
    exact BatchYield.plus_zero _
  · rw [measure.of_zero]

theorem Paid.nudge (steady : Session.Steady ⟨coordinator, hands, .stopping before.length false⟩)
    (split : coordinator.sweepers = before ++ sweeper :: after) :
    measure.Paid ⟨coordinator, hands, .stopping before.length false⟩
      ⟨{ coordinator with sweepers := before ++ sweeper.nudge :: after }, hands,
        .stopping before.length true⟩ 0 := by
  obtain ⟨early, load, late, rfl, same⟩ := (split ▸ steady.sound.staffed.team).find
  refine .middle [] [] .zero split same rfl (List.Perm.refl _) rfl ?_ ?_
  · rw [BatchYield.zero_plus]
    exact BatchYield.plus_zero _
  · rw [measure.of_zero]

theorem Paid.settle {joined : Sweeper} {left : Assignment}
    (steady : Session.Steady ⟨coordinator, hands, .stopping before.length true⟩)
    (split : coordinator.sweepers = before ++ sweeper :: after)
    (joins : sweeper.join? = some (left, joined)) :
    measure.Paid ⟨coordinator, hands, .stopping before.length true⟩
      ⟨(coordinator.settle before.length left joined).2, hands,
        .stopping (before.length + 1) false⟩ 0 := by
  have halted : coordinator.stopped = true := steady.sound.halted nofun
  obtain ⟨following, given, _, heap, _, sweepers, round, _⟩ :=
    steady.sound.staffed.settle halted split joins
  rw [given]
  have team := split ▸ steady.sound.staffed.team
  obtain ⟨early, load, late, rfl, same⟩ := team.find
  have shake := (team.middle same).2.1
  obtain ⟨owed, nothing⟩ := shake.due_joined (Sweeper.join?_some joins).1
  refine .middle [] sweeper.assignment.pages (sweeper.outcome.getD .zero) split same sweepers ?_ ?_ ?_
    ?_
  · exact List.Perm.refl _
  · rw [heap]
    rfl
  · rw [nothing, owed, BatchYield.zero_plus, BatchYield.plus_comm]
  · rw [round]
    refine unreported_gain _ fun closed => ?_
    have none := (steady.clear split same closed).1
    rw [owed] at none
    exact (BatchYield.eq_zero_of_plus none).2

theorem Paid.startDealt (steady : Session.Steady ⟨coordinator, hands, .free⟩)
    (running : coordinator.stopped = false) (rest : coordinator.inProgress = false)
    (some : 0 < coordinator.numThreads) :
    measure.Paid ⟨coordinator, hands, .free⟩ ⟨coordinator.start.2, hands, .free⟩
      (coordinator.finalize.1.toList.map measure.report).sum := by
  have idle := Coordinator.inProgress_false.mp rest
  have team := steady.sound.staffed.team
  simp only [running] at team
  obtain ⟨slots, empty, paid⟩ := team.rest idle
  have bare : ∀ load ∈ hands, load.left = [] :=
    fun load member => (List.append_eq_nil_iff.mp (empty load member)).1
  obtain ⟨parts, site, round, started, heap, flat, lengths, opened⟩ :=
    Coordinator.start_dealt running some fun sweeper member => ⟨idle sweeper member, slots sweeper member⟩
  have same : parts.length = coordinator.sweepers.length := by
    simpa [Coordinator.numThreads] using congrArg List.length lengths
  obtain ⟨fed, owed, dealt⟩ := team.dealt idle coordinator.site.nextRound same
  have before : aheads coordinator.sweepers hands = [] := by
    rw [aheads_slots bare team.shakes.length_eq, List.flatten_eq_nil_iff]
    intro slot member
    obtain ⟨sweeper, inside, rfl⟩ := List.mem_map.mp member
    exact slots sweeper inside
  have after := aheads_slots bare fed.shakes.length_eq
  rw [dealt, flat] at after
  rw [flat] at owed
  unfold Paid held Measure.owed
  rw [reports_finalize, started]
  simp only [Scene.heap, heap, before, after, paid, owed, measure.of_zero, unreported, opened.pending,
    opened.merged, if_true]
  have kept : coordinator.site.heap.takeUnswept.2.totals = coordinator.site.heap.totals := rfl
  have none : measure.of (harvest []) = 0 := measure.of_zero
  rw [kept, none]
  refine congrArg (· % Word.limit) ?_
  omega

theorem Paid.startHere (steady : Session.Steady ⟨coordinator, hands, .free⟩)
    (running : coordinator.stopped = false) (alone : coordinator.numThreads = 0)
    (young : ∀ page ∈ coordinator.site.heap.takeUnswept.1, page.sweeps + 1 < Word.halfLimit) :
    measure.Paid ⟨coordinator, hands, .free⟩ ⟨coordinator.start.2, hands, .free⟩
      ((coordinator.finalize.1.toList ++ coordinator.start.2.round.last.toList).map
        measure.report).sum := by
  obtain ⟨nobody, rfl, _, loaded, _⟩ := steady.sound.unstaffed alone
  obtain ⟨site, round, report, started, heap, closed, last, _, _, pages, freed⟩ :=
    Coordinator.start_here running alone (loaded.sweepPages young).1
  have own : measure.report report = measure.of (harvest coordinator.site.heap.takeUnswept.1) := by
    cases measure with
    | pages => exact pages
    | freed => exact freed
  have grown := measure.totals_after coordinator.site.heap.totals coordinator.site.heap.takeUnswept.1
  have totals : site.heap.totals =
      coordinator.site.heap.totals.after coordinator.site.heap.takeUnswept.1 := by
    rw [heap]
    rfl
  rw [started]
  unfold Paid held owed
  rw [List.map_append, List.sum_append, reports_finalize]
  simp only [Scene.heap, totals, nobody, last, own, unreported, closed, Option.toList_some,
    List.map_cons, List.map_nil, List.sum_cons, List.sum_nil, Bool.false_eq_true, if_false]
  rw [Nat.add_assoc]
  refine (grown.add_right _).trans (congrArg (· % Word.limit) ?_)
  omega

theorem Paid.start (steady : Session.Steady ⟨coordinator, hands, .free⟩)
    (running : coordinator.stopped = false) (rest : coordinator.inProgress = false)
    {here : List Page} {answer : Except Fault Unit}
    (young : ∀ page ∈ coordinator.sweptAtStart, page.sweeps + 1 < Word.halfLimit) :
    measure.Paid ⟨coordinator, hands, .free⟩ ⟨coordinator.start.2, hands, .free⟩
      (((Act.start here answer).reports coordinator coordinator.start.2).map measure.report).sum := by
  rcases Nat.eq_zero_or_pos coordinator.numThreads with alone | some
  · rw [Coordinator.sweptAtStart, if_pos alone] at young
    rw [Act.reports, if_pos alone]
    exact .startHere steady running alone young
  · rw [Act.reports, if_neg (Nat.ne_of_gt some), List.append_nil]
    exact .startDealt steady running rest some

end Operations

end Measure

theorem Handshake.ahead_due {stop : Bool} {sweeper : Sweeper} {load : Load}
    (shake : Handshake stop sweeper load) : (sweeper.ahead load).length ≤ (sweeper.due load).pages := by
  have slot : (harvest sweeper.assignment.pages).pages = sweeper.assignment.pages.length :=
    harvest_pages _
  have left : (harvest load.left).pages = load.left.length := harvest_pages _
  cases holds : sweeper.phase.holds with
  | true =>
      cases phase : sweeper.phase with
      | sweeping batch =>
          rw [Sweeper.ahead, shake.taken (by rw [phase]; rfl), Sweeper.due, phase, List.nil_append]
          simp only [BatchYield.plus, left]
          omega
      | _ => simp [phase, SweeperPhase.holds] at holds
  | false =>
      have none : load.left = [] := (List.append_eq_nil_iff.mp (shake.hand holds)).1
      cases busy : sweeper.phase.past with
      | true => simp [Sweeper.ahead, shake.taken busy, none]
      | false =>
          have due : sweeper.due load =
              (harvest sweeper.assignment.pages).plus (sweeper.outcome.getD .zero) := by
            unfold Sweeper.due
            cases phase : sweeper.phase <;> first | rfl | simp [phase, SweeperPhase.past] at busy
          rw [Sweeper.ahead, none, due, List.append_nil]
          simp only [BatchYield.plus, slot]
          omega

theorem Team.aheads_none {stop : Bool} {sweepers : List Sweeper} {hands : List Load}
    (team : Team stop sweepers hands) (owed : dues sweepers hands = .zero) :
    aheads sweepers hands = [] := by
  have shakes := team.shakes
  clear team
  induction shakes with
  | nil => rfl
  | @cons sweeper load sweepers hands shake _ ih =>
      rw [dues_cons] at owed
      obtain ⟨here, rest⟩ := BatchYield.eq_zero_of_plus owed
      have short := shake.ahead_due
      rw [here] at short
      have none : sweeper.ahead load = [] := List.eq_nil_of_length_eq_zero (Nat.le_zero.mp short)
      have head : aheads (sweeper :: sweepers) (load :: hands) =
          sweeper.ahead load ++ aheads sweepers hands := rfl
      rw [head, none, ih rest]
      rfl

/-- With no round pending nothing is on its way. -/
theorem Measure.at_rest (measure : Measure) {scene : Scene} (steady : Session.Steady scene)
    (closed : scene.coordinator.round.pending = false) :
    measure.held scene = measure.totals scene.heap.totals ∧ measure.owed scene = 0 := by
  have owed := steady.settled closed
  have ahead := steady.sound.staffed.team.aheads_none owed
  have none : measure.of (harvest []) = 0 := measure.of_zero
  rw [Measure.held, Measure.owed, Measure.unreported, closed, owed, ahead, none, measure.of_zero]
  exact ⟨rfl, rfl⟩

end Reclaim
