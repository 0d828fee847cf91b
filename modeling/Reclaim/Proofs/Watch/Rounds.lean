import Reclaim.Proofs.Coordinator.Ledger
import Reclaim.Proofs.Watch.Progress

/-! Rounds of a watch. Each permit of a round is taken in that round, and so is the outcome; before the
next round begins all of them are gone, and between rounds a sweeper and all that it shares are at
rest. -/

namespace Reclaim

open Launch (owed)

open WaitStage (consumed)

open Poller (borrowed)

open Happening (total nudges wakes signals acquires collects)

def happeningsAt (index : Nat) (moments : List Moment) : List Happening :=
  moments.filterMap (Moment.at? index)

theorem happeningsAt_append (index : Nat) (moments more : List Moment) :
    happeningsAt index (moments ++ more) = happeningsAt index moments ++ happeningsAt index more :=
  List.filterMap_append

theorem happeningsAt_here (index : Nat) (happening : Happening) :
    happeningsAt index [.here index happening] = [happening] := by
  simp [happeningsAt, Moment.at?]

theorem happeningsAt_elsewhere {index : Nat} {moment : Moment}
    (elsewhere : ∀ happening, moment ≠ .here index happening) : happeningsAt index [moment] = [] := by
  cases moment with
  | here place happening =>
      have apart : place ≠ index := by
        rintro rfl
        exact elsewhere happening rfl
      simp [happeningsAt, Moment.at?, apart]
  | start | refuse | deed | books => rfl

structure Berth.Account (happenings : List Happening) (berth : Berth) : Prop where
  woken : total wakes happenings + berth.sweeper.begun.permits = total nudges happenings
  signalled : total signals happenings + berth.sweeper.phase.token = total wakes happenings
  acquired : berth.sweeper.ended.permits + borrowed berth.poller + total acquires happenings =
    total signals happenings
  collected : consumed berth.waiter + total collects happenings = total acquires happenings

theorem Berth.Account.balanced {berth next : Berth} {happening : Happening}
    {happenings : List Happening} (account : berth.Account happenings)
    (balance : berth.Balance happening next) : next.Account (happenings ++ [happening]) := by
  obtain ⟨woken, signalled, acquired, collected⟩ := account
  obtain ⟨begun, token, ended, consumed⟩ := balance
  constructor <;> simp only [Happening.total_append, Happening.total_singleton] <;> omega

namespace Watch

variable {watch next first : Watch} {moment : Moment} {moments more : List Moment} {index : Nat}
  {berth : Berth}

/-- A step as one sweeper sees it: it happens here, or elsewhere, or a start has a batch for it. -/
theorem Step.at_index (step : Step watch moment next) (sound : watch.Sound)
    (here : watch.berths[index]? = some berth) :
    (∃ happening after, moment = .here index happening ∧ next.berths[index]? = some after ∧
        berth.Step watch.site happening after next.site ∧ berth.load.Regular watch.site.heap) ∨
      ((∀ happening, moment ≠ .here index happening) ∧ ∃ after,
        next.berths[index]? = some after ∧ (after = berth ∨
          berth.Resting ∧ ∃ batch, after = { berth with launch := some (.fill batch) })) := by
  cases step with
  | @here early late other after _ _ _ happening step inOrder =>
      by_cases own : index = early.length
      · subst own
        obtain rfl : other = berth := by simpa using here
        exact .inl ⟨happening, after, rfl, by simp, step, sound.regular⟩
      · refine .inr ⟨?_, berth, ?_, .inl rfl⟩
        · rintro _ same
          exact own (Moment.here.inj same).1.symm
        · rw [getElem?_middle after other own]
          exact here
  | @start _ parts rest parted =>
      refine .inr ⟨nofun, ?_⟩
      obtain ⟨known, rfl⟩ := List.getElem?_eq_some_iff.mp here
      have same := (batches_some parted).2
      refine ⟨_, List.getElem?_eq_some_iff.mpr ⟨?_, List.getElem_zipWith⟩,
        .inr ⟨rest _ (List.getElem_mem known), _, rfl⟩⟩
      rw [List.length_zipWith]
      omega
  | refuse inOrder refused =>
      rw [sound.at_berth.accepted] at refused
      cases refused
  | deed | books => exact .inr ⟨nofun, berth, here, .inl rfl⟩

theorem Step.length (step : Step watch moment next) : next.berths.length = watch.berths.length := by
  cases step with
  | here => simp
  | start _ parted =>
      rw [List.length_zipWith, (batches_some parted).2, Nat.min_self]
  | refuse => simp
  | deed | books => rfl

theorem Step.before (step : Step watch moment next) {after : Berth}
    (here : next.berths[index]? = some after) : ∃ berth, watch.berths[index]? = some berth := by
  obtain ⟨known, _⟩ := List.getElem?_eq_some_iff.mp here
  rw [step.length] at known
  exact ⟨_, List.getElem?_eq_getElem known⟩

theorem Sound.at_index (sound : watch.Sound) (here : watch.berths[index]? = some berth) :
    berth.Ordered := sound.ordered berth (List.mem_of_getElem? here)

theorem Run.account (run : Run first moments watch) (sound : first.Sound)
    (young : ∀ moment ∈ moments, moment.Young)
    (start : ∀ berth ∈ first.berths, berth.Account []) (here : watch.berths[index]? = some berth) :
    berth.Account (happeningsAt index moments) := by
  induction run generalizing berth with
  | nil => exact start berth (List.mem_of_getElem? here)
  | @snoc moments moment watch next earlier step ih =>
      have youth : ∀ moment ∈ moments, moment.Young := fun moment member => young moment (by simp [member])
      obtain ⟨_, kept⟩ := Run.sound earlier sound youth
      obtain ⟨calm, _⟩ := step.sound kept (young moment (by simp))
      obtain ⟨old, there⟩ := step.before here
      rw [happeningsAt_append]
      rcases step.at_index kept there with ⟨happening, after, rfl, found, inner, _⟩ |
        ⟨elsewhere, after, found, rfl | ⟨_, batch, rfl⟩⟩
      · obtain rfl : after = berth := Option.some.inj (found.symm.trans here)
        rw [happeningsAt_here]
        exact (ih youth there).balanced (inner.balance calm (kept.at_index there))
      · obtain rfl : after = berth := Option.some.inj (found.symm.trans here)
        rw [happeningsAt_elsewhere elsewhere, List.append_nil]
        exact ih youth there
      · obtain rfl : _ = berth := Option.some.inj (found.symm.trans here)
        rw [happeningsAt_elsewhere elsewhere, List.append_nil]
        obtain ⟨woken, signalled, acquired, collected⟩ := ih youth there
        exact ⟨woken, signalled, acquired, collected⟩

theorem Step.inner {happening : Happening} (step : Step watch (.here index happening) next) :
    ∃ berth after later, watch.berths[index]? = some berth ∧ next.berths[index]? = some after ∧
      berth.Step watch.site happening after later := by
  generalize whole : Moment.here index happening = moment at step
  cases step with
  | here step inOrder =>
      obtain ⟨rfl, rfl⟩ := Moment.here.inj whole
      exact ⟨_, _, _, by simp, by simp, step⟩
  | _ => cases whole

theorem Step.nudged {batch : Assignment} (step : Step watch (.here index (.nudge batch)) next) :
    ∃ berth, watch.berths[index]? = some berth ∧ berth.launch = some .nudge ∧
      batch = berth.sweeper.assignment ∧
      next.berths[index]? = some { berth with sweeper := berth.sweeper.nudge, launch := none } := by
  obtain ⟨berth, after, _, here, there, inner⟩ := step.inner
  cases inner with
  | attend attend => cases attend
  | launching launching =>
      cases launching with
      | nudge stage => exact ⟨berth, here, stage, rfl, there⟩

theorem Step.filled {batch : Assignment} (step : Step watch (.here index (.fill batch)) next) :
    ∃ berth, watch.berths[index]? = some berth ∧ berth.launch = some (.fill batch) := by
  obtain ⟨berth, after, _, here, there, inner⟩ := step.inner
  cases inner with
  | attend attend => cases attend
  | launching launching =>
      cases launching with
      | fill stage _ => exact ⟨berth, here, stage⟩

/-- What has happened at a sweeper since a start posted its permit makes a round, up to the next
batch. -/
theorem Run.round {batch : Assignment}
    (run : Run first (moments ++ .here index (.nudge batch) :: more) watch) (sound : first.Sound)
    (young : ∀ moment ∈ moments ++ .here index (.nudge batch) :: more, moment.Young)
    (unfilled : ∀ later, .here index (.fill later) ∉ more) :
    ∃ berth, watch.berths[index]? = some berth ∧
      berth.Round batch.pages (happeningsAt index more) ∧ berth.Ordered := by
  rw [List.append_cons] at run young
  obtain ⟨opened, earlier, after⟩ := run.split
  obtain ⟨started, before, nudge⟩ := earlier.last
  obtain ⟨calm, kept⟩ := Run.sound before sound fun moment member => young moment (by simp [member])
  have youth : ∀ moment ∈ more, moment.Young := fun moment member => young moment (by simp [member])
  have sure := (nudge.sound kept (young _ (by simp))).2
  obtain ⟨berth, there, stage, rfl, here⟩ := nudge.nudged
  have begun := Berth.Round.begin (kept.at_index there) stage
  clear run young
  induction after with
  | nil => exact ⟨_, here, begun, sure.at_index here⟩
  | @snoc more moment watch next earlier step ih =>
      have fresh : ∀ moment ∈ more, moment.Young := fun moment member => youth moment (by simp [member])
      obtain ⟨berth, there, round, ordered⟩ :=
        ih (fun later member => unfilled later (by simp [member])) fresh
      have steady := (Run.sound earlier sure fresh).2
      obtain ⟨still, sound⟩ := step.sound steady (youth moment (by simp))
      rw [happeningsAt_append]
      rcases step.at_index steady there with ⟨happening, after, rfl, found, inner, regular⟩ |
        ⟨elsewhere, after, found, rfl | ⟨_, batch, rfl⟩⟩
      · rw [happeningsAt_here]
        refine ⟨after, found, ?_, sound.at_index found⟩
        have within : ∀ later, happening ≠ .fill later := by
          rintro later rfl
          exact unfilled later (by simp)
        exact round.step ordered inner still (youth (.here index happening) (by simp)) regular within
      · rw [happeningsAt_elsewhere elsewhere, List.append_nil]
        exact ⟨after, found, round, ordered⟩
      · rw [happeningsAt_elsewhere elsewhere, List.append_nil]
        refine ⟨_, found, ?_, sound.at_index found⟩
        exact { round with launched := .inr ⟨batch, rfl⟩ }

structure Orderly (moments : List Moment) (watch : Watch) : Prop where
  calm : ∀ moment ∈ moments, moment.fault? = none
  accepted : ∀ moment next, Step watch moment next → moment.Young → moment.fault? = none
  single : ∀ berth ∈ watch.berths,
    berth.sweeper.begun.permits ≤ 1 ∧ berth.sweeper.ended.permits ≤ 1
  rest : ∀ berth ∈ watch.berths, berth.Resting →
    berth.sweeper.phase = .idle ∧ berth.sweeper.begun.permits = 0 ∧
      berth.sweeper.ended.permits = 0 ∧ berth.sweeper.assignment.pages = [] ∧
      berth.sweeper.outcome = none ∧ borrowed berth.poller = 0
  account : ∀ (index : Nat) (berth : Berth), watch.berths[index]? = some berth →
    berth.Account (happeningsAt index moments)
  rounds : ∀ earlier index batch later, moments = earlier ++ .here index (.nudge batch) :: later →
    (∀ next, .here index (.fill next) ∉ later) →
    ∃ happenings, happenings = happeningsAt index later ∧
      total wakes happenings ≤ 1 ∧ total signals happenings ≤ total wakes happenings ∧
      total acquires happenings ≤ total signals happenings ∧
      total collects happenings ≤ total acquires happenings ∧
      ∀ outcome, .collect outcome ∈ happenings → outcome = some (harvest batch.pages)
  closed : ∀ earlier index batch later next,
    moments = earlier ++ .here index (.nudge batch) :: (later ++ [.here index (.fill next)]) →
    (∀ other, .here index (.fill other) ∉ later) →
    ∃ happenings, happenings = happeningsAt index later ∧
      total wakes happenings = 1 ∧ total signals happenings = 1 ∧
      total acquires happenings = 1 ∧ total collects happenings = 1 ∧
      happenings.flatMap Happening.sweeps = batch.pages
  blocked : ∀ berth ∈ watch.berths, berth.waiter = some .blocked →
    berth.Promised ∨ berth.launch = some .nudge
  goes : (∃ berth ∈ watch.berths, ¬ berth.Still) →
    ∃ moment next, Step watch moment next ∧ moment.goesOn = true
  nearer : ∀ moment next, Step watch moment next → moment.goesOn = true → moment.Young →
    next.rank < watch.rank

/-- There is one permit of either kind at most, and in a round each is taken once at most. A wait
call that is blocked has the end promised to it, unless the start that has raised the flag has yet
to post the permit to begin. -/
theorem Run.orderly {id : HeapId} {deeds : List Deed} {site : Site} {loose : List Page}
    {threads : Nat} (history : History id deeds ⟨site.heap, loose, []⟩)
    (run : Run (opened site loose threads) moments watch)
    (young : ∀ moment ∈ moments, moment.Young) : Orderly moments watch := by
  have sure := opened_sound history threads
  obtain ⟨calm, sound⟩ := run.sound sure young
  refine {
    calm := calm
    accepted := fun moment next step youth => (step.sound sound youth).1
    single := ?_
    rest := ?_
    account := ?_
    rounds := ?_
    closed := ?_
    blocked := fun berth member => Berth.Ordered.blocked (sound.ordered berth member)
    goes := sound.go
    nearer := fun moment next step inner youth => step.nearer inner sound youth }
  · intro berth member
    have single := Order.single (sound.ordered berth member)
    omega
  · intro berth member rest
    obtain ⟨idle, begun, ended, lent, _, outcome, empty, _⟩ :=
      Order.rest (sound.ordered berth member) (by rw [rest.unlaunched]; rfl) rest.rest
        (by rw [rest.unawaited]; nofun)
    exact ⟨idle, begun, ended, empty, outcome, lent⟩
  · intro index berth here
    refine run.account sure young ?_ here
    intro fresh member
    obtain ⟨place, _, rfl⟩ := List.mem_map.mp member
    exact ⟨rfl, rfl, rfl, rfl⟩
  · rintro earlier index batch later rfl unfilled
    obtain ⟨berth, _, round, _⟩ := run.round sure young unfilled
    have woken := round.woken
    have signalled := round.signalled
    have acquired := round.acquired
    have collected := round.collected
    exact ⟨_, rfl, by omega, by omega, by omega, by omega, round.handed⟩
  · rintro earlier index batch later next rfl unfilled
    rw [← List.cons_append, ← List.append_assoc] at run young
    obtain ⟨middle, before, fill⟩ := run.last
    have youth : ∀ moment ∈ earlier ++ .here index (.nudge batch) :: later, moment.Young :=
      fun moment member => young moment (List.mem_append_left _ member)
    obtain ⟨berth, here, round, ordered⟩ := Run.round before sure youth unfilled
    obtain ⟨filled, there, stage⟩ := fill.filled
    obtain rfl : berth = filled := Option.some.inj (here.symm.trans there)
    have pledged := ordered.at_stage stage
    obtain ⟨idle, begun, ended, lent, unconsumed, _⟩ := pledged.pledged
    have rest := (pledged.dormant nofun nofun).1
    -- The batch is left while the flag is down, so the outcome has been taken, and all that leads to it.
    have once : total collects (happeningsAt index later) = 1 :=
      (round.down rest).resolve_left (Order.aloft unconsumed)
    have woken := round.woken
    have signalled := round.signalled
    have acquired := round.acquired
    have collected := round.collected
    exact ⟨_, rfl, by omega, by omega, by omega, once, (round.ended ordered (by omega)).1⟩

theorem Step.alone {berth next : Berth} {site later : Site} {loose : List Page}
    {happening : Happening} (step : berth.Step site happening next later) :
    Step ⟨[berth], site, loose⟩ (.here 0 happening) ⟨[next], later, loose⟩ :=
  @Step.here [] [] _ _ _ _ _ _ step (by simp)

def sampleSite : Site := { Site.fresh ⟨0⟩ with heap := waitingHeap }

def sampleStart (batch : Assignment) : List Moment :=
  -- A start that has yet to post its permit, and a wait call that is blocked meanwhile.
  .start :: [.fill batch, .ready, .ready, .call, .inside, .inside].map (Moment.here 0)

theorem sampleStart_run {berth : Berth} {site : Site} {loose : List Page} {part : List Page}
    (rest : berth.Resting) (empty : berth.sweeper.assignment.pages = [])
    (parted : batches site.heap.takeUnswept.1 1 = .ok [part]) :
    Run ⟨[berth], site, loose⟩ (sampleStart ⟨site.nextRound, part⟩)
      ⟨[{ berth with
          sweeper :=
            { berth.sweeper with
              assignment := ⟨site.nextRound, part⟩
              completed := false
              inFlight := true }
          launch := some .nudge
          waiter := some .blocked }],
        { site with
          heap := site.heap.takeUnswept.2
          nextRound := Word.wrappingAdd site.nextRound 1 }, loose⟩ := by
  obtain ⟨sweeper, load, launch, queued, waiter, polls, poller⟩ := berth
  obtain ⟨rfl, flight, rfl, rfl⟩ : launch = none ∧ sweeper.inFlight = false ∧ queued = 0 ∧ waiter = none :=
    ⟨rest.unlaunched, rest.rest, rest.unqueued, rest.unawaited⟩
  have accepted : sweeper.assign part site.nextRound =
      .ok { sweeper with assignment := ⟨site.nextRound, part⟩ } := by
    dsimp only at empty
    simp [Sweeper.assign, empty]
  have started : Run ⟨[⟨sweeper, load, none, 0, none, polls, poller⟩], site, loose⟩ _ _ :=
    .snoc .nil (.start (by simpa using rest) parted)
  have filled : Run _ _ _ := .snoc started (.alone (.launching (.fill rfl accepted)))
  have renewed : Run _ _ _ := .snoc filled (.alone (.launching (.renew rfl)))
  have flown : Run _ _ _ := .snoc renewed (.alone (.launching (.fly rfl flight)))
  have called : Run _ _ _ := .snoc flown (.alone (.attend .call))
  have served : Run _ _ _ := .snoc called (.alone (.attend (.serve rfl rfl)))
  exact .snoc served (.alone (.attend (.seek rfl rfl)))

def samplePolls : List Moment :=
  -- A round over one page. A wait call is blocked from the start on; a poll borrows the permit
  -- of the end, a second one begins while the wait call has it, and a third after the outcome
  -- has been taken. Then the next round begins, and another wait call is blocked.
  sampleStart ⟨1, [filledPage]⟩ ++
    [.nudge ⟨1, [filledPage]⟩, .poll 0, .chore .wake, .chore .heed, .chore .take,
      .chore (.sweep filledPage (.ok ())), .chore (.publish .data (.ok ())), .chore .conclude,
      .chore .leave, .chore .signal, .inside, .inside, .inside, .inside, .inside, .inside, .inside,
      .answer 0 true, .acquire, .inside, .poll 1, .inside, .answer 1 true, .inside,
      .collect (some (harvest [filledPage])), .poll 2, .answer 2 true].map (Moment.here 0) ++
    sampleStart ⟨2, []⟩ ++ [.here 0 (.nudge ⟨2, []⟩)]

theorem samplePolls_run : ∃ watch, Run (opened sampleSite [] 1) samplePolls watch ∧
    ∃ berth ∈ watch.berths, berth.waiter = some .blocked := by
  have flown : Run (opened sampleSite [] 1) _ _ := sampleStart_run ⟨rfl, rfl, rfl, rfl⟩ rfl rfl
  have nudged : Run (opened sampleSite [] 1) _ _ := .snoc flown (.alone (.launching (.nudge rfl)))
  have first : Run (opened sampleSite [] 1) _ _ :=
    .snoc nudged (.alone (.attend (.poll 0 (List.forall_mem_nil _) (by rintro _ ⟨⟩))))
  have woken : Run (opened sampleSite [] 1) _ _ := .snoc first (.alone (.chore (.wake rfl)))
  have heeded : Run (opened sampleSite [] 1) _ _ := .snoc woken (.alone (.chore (.heed rfl)))
  have taken : Run (opened sampleSite [] 1) _ _ := .snoc heeded (.alone (.chore (.take rfl)))
  have swept : Run (opened sampleSite [] 1) _ _ := .snoc taken (.alone (.chore (.sweep rfl rfl)))
  have published : Run (opened sampleSite [] 1) _ _ :=
    .snoc swept (.alone (.chore (.publish .data rfl rfl (by decide))))
  have concluded : Run (opened sampleSite [] 1) _ _ :=
    .snoc published (.alone (.chore (.conclude rfl rfl)))
  have left : Run (opened sampleSite [] 1) _ _ := .snoc concluded (.alone (.chore (.leave rfl)))
  have signalled : Run (opened sampleSite [] 1) _ _ := .snoc left (.alone (.chore (.signal rfl)))
  have glanced : Run (opened sampleSite [] 1) _ _ :=
    .snoc signalled (.alone (.attend (@Berth.Attend.glance _ [] [] 0 rfl rfl)))
  have doubted : Run (opened sampleSite [] 1) _ _ :=
    .snoc glanced (.alone (.attend (@Berth.Attend.doubt _ [] [] 0 .latch rfl rfl)))
  have entered : Run (opened sampleSite [] 1) _ _ :=
    .snoc doubted (.alone (.attend (@Berth.Attend.enter _ [] [] 0 rfl rfl)))
  have inside : Run (opened sampleSite [] 1) _ _ :=
    .snoc entered (.alone (.attend (.glanceInside rfl rfl)))
  have tried : Run (opened sampleSite [] 1) _ _ :=
    .snoc inside (.alone (.attend (@Berth.Attend.attempt _ 0 .latch rfl rfl)))
  have borrowed : Run (opened sampleSite [] 1) _ _ := .snoc tried (.alone (.attend (.borrow rfl rfl)))
  have latched : Run (opened sampleSite [] 1) _ _ := .snoc borrowed (.alone (.attend (.mark rfl)))
  have answered : Run (opened sampleSite [] 1) _ _ := .snoc latched (.alone (.attend (.giveBack rfl)))
  have acquired : Run (opened sampleSite [] 1) _ _ :=
    .snoc answered (.alone (.attend (.acquire rfl rfl)))
  have relatched : Run (opened sampleSite [] 1) _ _ := .snoc acquired (.alone (.attend (.latch rfl)))
  have second : Run (opened sampleSite [] 1) _ _ :=
    .snoc relatched (.alone (.attend (.poll 1 (List.forall_mem_nil _) (by rintro _ ⟨⟩))))
  have again : Run (opened sampleSite [] 1) _ _ :=
    .snoc second (.alone (.attend (@Berth.Attend.glance _ [] [] 1 rfl rfl)))
  have seen : Run (opened sampleSite [] 1) _ _ :=
    .snoc again (.alone (.attend (@Berth.Attend.spot _ [] [] 1 .latch rfl rfl)))
  have landed : Run (opened sampleSite [] 1) _ _ := .snoc seen (.alone (.attend (.land rfl)))
  have collected : Run (opened sampleSite [] 1) _ _ := .snoc landed (.alone (.attend (.collect rfl)))
  have third : Run (opened sampleSite [] 1) _ _ :=
    .snoc collected (.alone (.attend (.poll 2 (List.forall_mem_nil _) (by rintro _ ⟨⟩))))
  have answeredLast : Run (opened sampleSite [] 1) _ _ :=
    .snoc third (.alone (.attend (@Berth.Attend.spot _ [] [] 2 .flight rfl rfl)))
  have next : Run (opened sampleSite [] 1) _ _ :=
    answeredLast.append (sampleStart_run ⟨rfl, rfl, rfl, rfl⟩ rfl rfl)
  exact ⟨_, .snoc next (.alone (.launching (.nudge rfl))), _, List.mem_singleton_self _, rfl⟩

theorem samplePolls_until (start : moments <+: samplePolls) :
    ∃ watch, Run (opened sampleSite [] 1) moments watch ∧ ∀ moment ∈ moments, moment.Young := by
  obtain ⟨more, whole⟩ := start
  obtain ⟨_, run, _⟩ := samplePolls_run
  have young : ∀ moment ∈ samplePolls, moment.Young := by decide
  rw [← whole] at run young
  obtain ⟨watch, earlier, _⟩ := run.split
  exact ⟨watch, earlier, fun moment member => young moment (List.mem_append_left more member)⟩

/-- All is in order at any point of the run, also when the next batch has just been left, and at the
end, where the second wait call is blocked. -/
theorem samplePolls_orderly :
    History ⟨0⟩ (sampleDeeds.take 5) ⟨sampleSite.heap, [], []⟩ ∧
      (∃ watch, Run (opened sampleSite [] 1) samplePolls watch ∧
        ∃ berth ∈ watch.berths, berth.waiter = some .blocked) ∧
      ∀ moments, moments <+: samplePolls → (∀ moment ∈ moments, moment.Young) ∧
        ∃ watch, Run (opened sampleSite [] 1) moments watch ∧ Orderly moments watch := by
  refine ⟨waitingHeap_history, samplePolls_run, ?_⟩
  intro moments start
  obtain ⟨watch, run, young⟩ := samplePolls_until start
  exact ⟨young, watch, run, run.orderly waitingHeap_history young⟩

/-! When a wait call is not promised the end. -/

def sampleStale : Site :=
  { Site.fresh ⟨0⟩ with
    heap :=
      { id := ⟨0⟩
        spaces :=
          ⟨{ kind := .data, unswept := [filledPage.renewed], swept := [], free := .empty },
            .fresh .pointer⟩
        totals := .zero
        nextPage := 1 } }

def sampleDeath : List Moment :=
  -- The sweeper finds a page that has been swept already, and dies.
  sampleStart ⟨1, [filledPage.renewed]⟩ ++
    [.nudge ⟨1, [filledPage.renewed]⟩, .chore .wake, .chore .heed, .chore .take,
      .chore (.sweep filledPage.renewed (.error (.sweptTwice ⟨0⟩)))].map (Moment.here 0)

/-- A wait call is blocked before the start has posted its permit. And when a sweeper has died, nothing
is promised to a wait call any more, and nobody can go on. -/
theorem sampleStart_blocked :
    (History ⟨0⟩ (sampleDeeds.take 5) ⟨sampleSite.heap, [], []⟩ ∧
      ∃ watch, Run (opened sampleSite [] 1) (sampleStart ⟨1, [filledPage]⟩) watch ∧
        ∃ berth ∈ watch.berths, berth.waiter = some .blocked ∧ ¬ berth.Promised) ∧
    ∃ watch, Run (opened sampleStale [] 1) sampleDeath watch ∧
      (∃ berth ∈ watch.berths, berth.waiter = some .blocked ∧ ¬ berth.Promised) ∧
      ∀ moment next, Step watch moment next → moment.goesOn = false := by
  have flown : Run (opened sampleSite [] 1) _ _ := sampleStart_run ⟨rfl, rfl, rfl, rfl⟩ rfl rfl
  have begun : Run (opened sampleStale [] 1) _ _ := sampleStart_run ⟨rfl, rfl, rfl, rfl⟩ rfl rfl
  have nudged : Run (opened sampleStale [] 1) _ _ := .snoc begun (.alone (.launching (.nudge rfl)))
  have woken : Run (opened sampleStale [] 1) _ _ := .snoc nudged (.alone (.chore (.wake rfl)))
  have heeded : Run (opened sampleStale [] 1) _ _ := .snoc woken (.alone (.chore (.heed rfl)))
  have taken : Run (opened sampleStale [] 1) _ _ := .snoc heeded (.alone (.chore (.take rfl)))
  have died : Run (opened sampleStale [] 1) _ _ := .snoc taken (.alone (.chore (.sweep rfl rfl)))
  refine ⟨⟨waitingHeap_history, _, flown, _, List.mem_singleton_self _, rfl, ?_⟩, _, died,
    ⟨_, List.mem_singleton_self _, rfl, ?_⟩, ?_⟩
  · unfold Berth.Promised
    decide
  · unfold Berth.Promised
    decide
  · intro moment next step
    cases moment with
    | here index happening =>
        obtain ⟨berth, _, _, here, _, inner⟩ := step.inner
        obtain rfl := List.mem_singleton.mp (List.mem_of_getElem? here)
        exact inner.stuck rfl rfl rfl rfl rfl rfl
    | start | refuse | deed | books => rfl

end Watch

end Reclaim
