import Mathlib.Data.Nat.ModEq
import Reclaim.Proofs.Session.Register

/-! The chronicle of a session. The rounds are numbered as they are started, and each of them is
reported once: by its own start if there are no sweepers, otherwise by the first wait for the round,
start or stop that comes after it. -/

namespace Reclaim

def Site.roundId (site : Site) (number : Nat) : Nat := Word.wrappingAdd site.nextRound (number - 1)

theorem Site.roundId_lt {site : Site} {number later : Nat} (some : 0 < number) (order : number < later)
    (room : site.nextRound + later ≤ Word.limit) : site.roundId number < site.roundId later := by
  unfold roundId Word.wrappingAdd
  rw [Nat.mod_eq_of_lt (by omega), Nat.mod_eq_of_lt (by omega)]
  omega

def Site.chapter (site : Site) (report : RoundReport) : List Mark :=
  [.opened (site.roundId report.number) report.number,
    .closed (site.roundId report.number) report.number report.pages report.freed]

def Counters.recordReports (counters : Counters) (reports : List RoundReport) : Counters :=
  reports.foldl (fun counters report => counters.recordRound report.pages report.freed) counters

theorem Counters.recordReports_sums (counters : Counters) (reports : List RoundReport) :
    (counters.recordReports reports).rounds ≡ counters.rounds + reports.length [MOD Word.limit] ∧
      (counters.recordReports reports).pages ≡
        counters.pages + (reports.map (·.pages)).sum [MOD Word.limit] ∧
      (counters.recordReports reports).freed ≡
        counters.freed + (reports.map (·.freed)).sum [MOD Word.limit] := by
  induction reports generalizing counters with
  | nil => exact ⟨rfl, rfl, rfl⟩
  | cons report reports ih =>
      obtain ⟨rounds, pages, freed⟩ := ih (counters.recordRound report.pages report.freed)
      have wrapped (left amount sum : Nat) :
          Word.wrappingAdd left amount + sum ≡ left + (amount + sum) [MOD Word.limit] := by
        rw [← Nat.add_assoc]
        exact (Nat.mod_modEq _ _).add_right sum
      refine ⟨rounds.trans ?_, pages.trans (wrapped _ _ _), freed.trans (wrapped _ _ _)⟩
      rw [List.length_cons, Nat.add_comm reports.length]
      exact wrapped _ _ _

namespace Register

structure Kept (site : Site) (starts : Nat) (reports : List RoundReport) (register : Register) :
    Prop where
  number : register.number = starts
  count : reports.length + register.pending.toNat = starts
  numbers : reports.map (·.number) = List.range' 1 reports.length
  last : register.last = reports.getLast?
  counters : register.counters = site.counters.recordReports reports
  nextRound : register.nextRound = site.roundId (starts + 1)
  id : register.pending = true → register.id = site.roundId starts
  marks : register.marks = site.marks ++ reports.flatMap site.chapter ++
    if register.pending then [.opened (site.roundId starts) starts] else []

namespace Kept

variable {site : Site} {starts : Nat} {reports : List RoundReport} {register : Register}

theorem fresh (site : Site) (threads : Nat) (word : site.nextRound < Word.limit) :
    Kept site 0 [] (Coordinator.fresh site threads).register where
  number := rfl
  count := rfl
  numbers := rfl
  last := rfl
  counters := rfl
  nextRound := (Nat.mod_eq_of_lt word).symm
  id := nofun
  marks := by simp [Coordinator.register, Coordinator.fresh, RoundState.fresh]

theorem opened (kept : Kept site starts reports register) (rest : register.pending = false) :
    Kept site (starts + 1) reports register.opened where
  number := congrArg (· + 1) kept.number
  count := by
    have count := kept.count
    rw [rest] at count
    exact congrArg (· + 1) count
  numbers := kept.numbers
  last := kept.last
  counters := kept.counters
  nextRound := by
    simp only [Register.opened, kept.nextRound, Site.roundId, Word.wrappingAdd, Nat.mod_add_mod]
    rfl
  id _ := kept.nextRound
  marks := by
    simp only [Register.opened, kept.marks, kept.nextRound, kept.number, rest, if_true,
      Bool.false_eq_true, if_false, List.append_nil]

theorem closed {made : Option RoundReport} (kept : Kept site starts reports register)
    (owes : register.Owes made) :
    Kept site starts (reports ++ made.toList) (register.closed made) ∧
      (register.closed made).pending = false := by
  obtain ⟨due, same⟩ := owes
  cases made with
  | none =>
      rw [Option.toList_none, List.append_nil]
      exact ⟨kept, due.symm⟩
  | some report =>
      have pending : register.pending = true := due.symm
      have number : report.number = starts := (same report rfl).trans kept.number
      have count : reports.length + 1 = starts := by
        have count := kept.count
        rwa [pending] at count
      refine ⟨⟨kept.number, ?_, ?_, ?_, ?_, kept.nextRound, nofun, ?_⟩, rfl⟩
      · simpa [Register.closed] using count
      · simp [kept.numbers, number, ← count, List.range'_concat, Nat.add_comm]
      · simp [Register.closed]
      · simp [Register.closed, kept.counters, Counters.recordReports]
      · simp [Register.closed, kept.marks, pending, number, kept.id pending, Site.chapter]

theorem turn {threads : Nat} {call : Call} {later : Register}
    (kept : Kept site starts reports register) (turn : Turn threads register call later) :
    Kept site (starts + if call.isStart then 1 else 0) (reports ++ call.reports) later ∧
      later.pending =
        if call.isStart then decide (0 < threads) else register.pending && !call.closes := by
  cases turn with
  | still goesOn none =>
      have other : call.isStart = false := by
        by_contra start
        exact nomatch goesOn.symm.trans (call.closes_of_start (by simpa using start))
      rw [none, other, goesOn, List.append_nil]
      exact ⟨kept, (Bool.and_true _).symm⟩
  | close closes other owes reports =>
      obtain ⟨kept, rest⟩ := kept.closed owes
      rw [reports, other, closes, rest]
      exact ⟨kept, (Bool.and_false _).symm⟩
  | start some start owes reports =>
      obtain ⟨kept, rest⟩ := kept.closed owes
      rw [reports, start]
      exact ⟨kept.opened rest, (decide_eq_true some).symm⟩
  | @alone made report nobody start owes number reports =>
      obtain ⟨kept, rest⟩ := kept.closed owes
      have own : (register.closed made).opened.Owes (some report) := by
        refine ⟨rfl, fun other same => ?_⟩
        cases same
        rw [number, Register.opened, register.closed_number]
      obtain ⟨kept, rest⟩ := (kept.opened rest).closed own
      rw [reports, start, rest, nobody, ← List.append_assoc]
      exact ⟨kept, rfl⟩

end Kept

end Register

namespace Session

def starts (calls : List Call) : Nat := calls.countP Call.isStart

def reported (calls : List Call) : List RoundReport := calls.flatMap Call.reports

def awaits (threads : Nat) (calls : List Call) : Bool :=
  calls.foldl (fun waits call =>
    if call.isStart then decide (0 < threads) else waits && !call.closes) false

section Awaits

variable {threads : Nat} {calls middle : List Call} {call : Call}

theorem awaits_snoc : awaits threads (calls ++ [call]) =
    if call.isStart then decide (0 < threads) else awaits threads calls && !call.closes := by
  simp [awaits, List.foldl_append]

theorem awaits_nobody : awaits 0 calls = false := by
  induction calls using List.reverseRecOn with
  | nil => rfl
  | append_singleton calls call ih => simp [awaits_snoc, ih]

theorem awaits_open (some : 0 < threads) (start : call.isStart = true)
    (goesOn : ∀ call ∈ middle, call.closes = false) :
    awaits threads (calls ++ call :: middle) = true ∧
      starts (calls ++ call :: middle) = starts calls + 1 := by
  induction middle using List.reverseRecOn with
  | nil => simp [awaits_snoc, starts, start, some]
  | append_singleton middle last ih =>
      obtain ⟨earlier, here⟩ := List.forall_mem_append.mp goesOn
      obtain ⟨waits, counted⟩ := ih earlier
      have closes : last.closes = false := here last (by simp)
      have other : last.isStart = false := by
        by_contra start
        exact nomatch closes.symm.trans (last.closes_of_start (by simpa using start))
      rw [← List.cons_append, ← List.append_assoc, awaits_snoc, waits, other, closes]
      refine ⟨rfl, ?_⟩
      rw [← counted]
      simp [starts, List.countP_cons, other]

end Awaits

variable {site : Site} {threads : Nat} {first scene next : Scene} {calls : List Call} {call : Call}

theorem Step.numThreads (step : Step scene call next) (sound : scene.Sound) (young : call.Young) :
    next.coordinator.numThreads = scene.coordinator.numThreads := by
  rw [(step.sound sound young).2.numThreads, sound.numThreads]
  cases step with
  | act step => exact step.hands_length
  | _ => rfl

structure Recorded (site : Site) (threads : Nat) (calls : List Call) (scene : Scene) : Prop where
  calm : ∀ call ∈ calls, call.fault? = none
  steady : Steady scene
  many : scene.coordinator.numThreads = threads
  kept : Register.Kept site (starts calls) (reported calls) scene.coordinator.register
  pending : scene.coordinator.round.pending = awaits threads calls

theorem Recorded.step (recorded : Recorded site threads calls scene) (step : Step scene call next)
    (young : call.Young) : Recorded site threads (calls ++ [call]) next := by
  obtain ⟨calm, steady, many, kept, pending⟩ := recorded
  have turn := step.turn steady.sound young
  rw [many] at turn
  obtain ⟨nextKept, nextPending⟩ := kept.turn turn
  have still := (step.sound steady.sound young).1
  refine ⟨List.forall_mem_append.mpr ⟨calm, by simpa using still⟩, step.steady steady young,
    (step.numThreads steady.sound young).trans many, ?_, ?_⟩
  · have counted : starts (calls ++ [call]) = starts calls + if call.isStart then 1 else 0 := by
      simp [starts, List.countP_cons]
    have made : reported (calls ++ [call]) = reported calls ++ call.reports := by simp [reported]
    rw [counted, made]
    exact nextKept
  · rw [awaits_snoc, ← pending]
    exact nextPending

theorem Run.recorded (run : Run (opened site threads) calls scene)
    (sound : (opened site threads).Sound) (word : site.nextRound < Word.limit)
    (young : ∀ call ∈ calls, call.Young) : Recorded site threads calls scene := by
  induction run with
  | nil =>
      exact ⟨by simp, .opened sound, by simp [opened, Coordinator.fresh, Coordinator.numThreads],
        .fresh site threads word, rfl⟩
  | snoc _ step ih =>
      obtain ⟨before, here⟩ := List.forall_mem_append.mp young
      exact (ih before).step step (here _ (by simp))

structure Chronicle (site : Site) (threads : Nat) (calls : List Call) (scene : Scene) : Prop where
  calm : ∀ call ∈ calls, call.fault? = none
  kept : Register.Kept site (starts calls) (reported calls) scene.coordinator.register
  pending : scene.coordinator.round.pending = awaits threads calls
  rounds : scene.coordinator.site.counters.rounds ≡
    site.counters.rounds + (reported calls).length [MOD Word.limit]
  ids : site.nextRound + starts calls ≤ Word.limit → ∀ number later, 0 < number → number < later →
    later ≤ starts calls → site.roundId number < site.roundId later
  quiet : ∀ call ∈ calls, call.closes = false → call.reports = []
  alone : threads = 0 → ∀ early start late, calls = early ++ start :: late → start.isStart = true →
    ∃ report, start.reports = [report] ∧ report.number = starts early + 1
  closed : 0 < threads → ∀ early start middle close late,
    calls = early ++ start :: (middle ++ close :: late) → start.isStart = true →
    (∀ call ∈ middle, call.closes = false) → close.closes = true →
    ∃ report, close.reports = [report] ∧ report.number = starts early + 1
  ensured : ∀ early answer reports late, calls = early ++ .act (.ensure answer) reports :: late →
    ∃ made, answer = .ok made ∧ reports = made.toList ∧ made.isSome = awaits threads early ∧
      ∀ report ∈ made, report.number = starts early
  answers : scene.client = .free →
    (∃ report done, scene.coordinator.ensure? = some (.ok report, done)) ∨
      ∃ index chore reports next, Step scene (.act (.sweeper index chore) reports) next
  nearer : scene.client = .free → ∀ index chore reports next,
    Step scene (.act (.sweeper index chore) reports) next →
    (∀ page ∈ chore.sweeps, page.sweeps + 1 < Word.halfLimit) → toRest next < toRest scene
  goes : scene.client ≠ .free → ∃ act reports next, Step scene (.act act reports) next
  ends : scene.client ≠ .free → ∀ call next, Step scene call next → call.Young →
    ∃ act reports, call = .act act reports ∧ (act.isConclude = true ∨ next.toStop < scene.toStop)

namespace Recorded

theorem alone {start : Call} (recorded : Recorded site threads calls scene) (nobody : threads = 0)
    (step : Step scene start next) (young : start.Young) (starting : start.isStart = true) :
    ∃ report, start.reports = [report] ∧ report.number = starts calls + 1 := by
  obtain ⟨_, steady, many, kept, pending⟩ := recorded
  subst nobody
  obtain ⟨report, reports, number⟩ :=
    (step.turn steady.sound young).alone_reports many starting (pending.trans awaits_nobody)
  exact ⟨report, reports, number.trans (congrArg (· + 1) kept.number)⟩

theorem closed {close : Call} (recorded : Recorded site threads calls scene) (some : 0 < threads)
    (waits : awaits threads calls = true) (step : Step scene close next) (young : close.Young)
    (closes : close.closes = true) :
    ∃ report, close.reports = [report] ∧ report.number = starts calls := by
  obtain ⟨_, steady, many, kept, pending⟩ := recorded
  obtain ⟨report, reports, number⟩ :=
    (step.turn steady.sound young).close_reports (many.symm ▸ some) closes (pending.trans waits)
  exact ⟨report, reports, number.trans kept.number⟩

theorem ensured {answer : Except Fault (Option RoundReport)} {reports : List RoundReport}
    (recorded : Recorded site threads calls scene)
    (step : Step scene (.act (.ensure answer) reports) next) :
    ∃ made, answer = .ok made ∧ reports = made.toList ∧ made.isSome = awaits threads calls ∧
      ∀ report ∈ made, report.number = starts calls := by
  obtain ⟨_, steady, _, kept, pending⟩ := recorded
  cases step with
  | act act =>
      cases act with
      | ensure waited =>
          obtain ⟨made, rfl, owes, _⟩ :=
            Coordinator.ensure_register steady.sound.staffed waited
          exact ⟨made, rfl, rfl, owes.due.trans pending,
            fun report member => (owes.number report member).trans kept.number⟩

end Recorded

/-- Whatever the calls, the reports are those of the rounds in the order of their starts, each made
once, and the journal has them in the same order, one after another. -/
theorem Run.chronicled {id : HeapId} {deeds : List Deed} {loose : List Page}
    (run : Run (opened site threads) calls scene) (history : History id deeds ⟨site.heap, loose, []⟩)
    (word : site.nextRound < Word.limit) (young : ∀ call ∈ calls, call.Young) :
    Chronicle site threads calls scene := by
  have sound := opened_sound history threads
  have before {early late : List Call} {call : Call} (split : calls = early ++ call :: late) :
      ∃ middle after, Recorded site threads early middle ∧ Step middle call after ∧ call.Young := by
    subst split
    obtain ⟨middle, after, start, step, _⟩ := run.at_event
    exact ⟨middle, after, Run.recorded start sound word fun other member => young other (by simp [member]),
      step, young call (by simp)⟩
  obtain ⟨calm, steady, many, kept, pending⟩ := run.recorded sound word young
  constructor
  · exact calm
  · exact kept
  · exact pending
  · have counters : scene.coordinator.site.counters = _ := kept.counters
    rw [counters]
    exact (site.counters.recordReports_sums _).1
  · intro room number later some order bound
    exact Site.roundId_lt some order (by omega)
  · intro call member goesOn
    obtain ⟨early, late, split⟩ := List.append_of_mem member
    obtain ⟨middle, after, recorded, step, young⟩ := before split
    exact (step.turn recorded.steady.sound young).open_reports goesOn
  · intro nobody early start late split starting
    obtain ⟨middle, after, recorded, step, young⟩ := before split
    exact recorded.alone nobody step young starting
  · intro some early start middle close late split starting goesOn closes
    obtain ⟨waits, counted⟩ := @awaits_open threads early middle start some starting goesOn
    rw [← List.cons_append, ← List.append_assoc] at split
    obtain ⟨scene, after, recorded, step, young⟩ := before split
    rw [← counted]
    exact recorded.closed some waits step young closes
  · intro early answer reports late split
    obtain ⟨middle, after, recorded, step, young⟩ := before split
    exact recorded.ensured step
  · exact steady.answers
  · intro free index chore reports next step young
    exact steady.nearer free step young
  · exact steady.goes
  · intro busy call next step young
    exact steady.ends busy step young

def sampleSite : Site := { Site.fresh ⟨0⟩ with heap := waitingHeap }

def sampleCalls : List Call :=
  -- The sweeper sweeps the only page, and the client takes its outcome for itself. The next
  -- round has just been started when the client stops.
  .act (.start [] (.ok ())) [] ::
    [.wake, .heed, .take, .sweep filledPage (.ok ()), .publish .data (.ok ()), .conclude, .leave,
      .signal].map (fun chore => .act (.sweeper 0 chore) []) ++
    [.take 0 (some ⟨1, 3928, 0, 3904⟩), .act (.ensure (.ok (some ⟨1, 1, 0, 0, [0]⟩))) [⟨1, 1, 0, 0, [0]⟩],
      .pollAll true, .act (.start [] (.ok ())) [], .act .stop [], .act (.nudge 0) [],
      .act (.sweeper 0 .wake) [], .act (.sweeper 0 .heed) [], .act (.sweeper 0 .acknowledge) [],
      .act (.join 0 (.ok ())) [], .act .conclude [⟨2, 1, 0, 0, [0]⟩]]

theorem sampleCalls_run : ∃ scene, Run (opened sampleSite 1) sampleCalls scene ∧
    scene.coordinator.round.pending = false ∧ scene.heap.totals = ⟨1, 3928, 0⟩ ∧
      scene.coordinator.site.counters = ⟨2, 0, 0, 0⟩ := by
  have started : Run (opened sampleSite 1) _ _ := .snoc .nil (.act (.start rfl rfl))
  have woken : Run (opened sampleSite 1) _ _ := .snoc started (.act (.alone rfl (.wake rfl)))
  have heeded : Run (opened sampleSite 1) _ _ := .snoc woken (.act (.alone rfl (.heed rfl)))
  have taken : Run (opened sampleSite 1) _ _ := .snoc heeded (.act (.alone rfl (.take rfl)))
  have swept : Run (opened sampleSite 1) _ _ := .snoc taken (.act (.alone rfl (.sweep rfl rfl)))
  have published : Run (opened sampleSite 1) _ _ :=
    .snoc swept (.act (.alone rfl (.publish .data rfl rfl (by decide))))
  have concluded : Run (opened sampleSite 1) _ _ :=
    .snoc published (.act (.alone rfl (.conclude rfl rfl)))
  have left : Run (opened sampleSite 1) _ _ := .snoc concluded (.act (.alone rfl (.leave rfl)))
  have signalled : Run (opened sampleSite 1) _ _ := .snoc left (.act (.alone rfl (.signal rfl)))
  have apart : Run (opened sampleSite 1) _ _ := .snoc signalled (@Step.take _ _ _ 0 _ rfl)
  have ensured : Run (opened sampleSite 1) _ _ := .snoc apart (.act (.ensure rfl))
  have polled : Run (opened sampleSite 1) _ _ := .snoc ensured .pollAll
  have again : Run (opened sampleSite 1) _ _ := .snoc polled (.act (.start rfl rfl))
  have stopped : Run (opened sampleSite 1) _ _ := .snoc again (.act (.stop rfl))
  have nudged : Run (opened sampleSite 1) _ _ :=
    .snoc stopped (.act (@Scene.Step.nudge _ _ [] [] _ rfl))
  have leaves : Run (opened sampleSite 1) _ _ := .snoc nudged (.act (.alone rfl (.wake rfl)))
  have heeds : Run (opened sampleSite 1) _ _ := .snoc leaves (.act (.alone rfl (.heed rfl)))
  have exits : Run (opened sampleSite 1) _ _ := .snoc heeds (.act (.alone rfl (.acknowledge rfl)))
  have joined : Run (opened sampleSite 1) _ _ :=
    .snoc exits (.act (@Scene.Step.join _ _ [] [] _ _ _ rfl rfl))
  have ended : Run (opened sampleSite 1) _ _ := .snoc joined (.act .conclude)
  exact ⟨_, ended, rfl, rfl, rfl⟩

theorem sampleCalls_young : ∀ call ∈ sampleCalls, call.Young := by decide

theorem sampleCalls_chronicled :
    History ⟨0⟩ (sampleDeeds.take 5) ⟨sampleSite.heap, [], []⟩ ∧
      sampleSite.nextRound < Word.limit ∧ (∀ call ∈ sampleCalls, call.Young) ∧
      ∃ scene, Run (opened sampleSite 1) sampleCalls scene ∧
        Chronicle sampleSite 1 sampleCalls scene := by
  obtain ⟨scene, run, _⟩ := sampleCalls_run
  have word : sampleSite.nextRound < Word.limit := by decide
  exact ⟨waitingHeap_history, word, sampleCalls_young, scene, run,
    run.chronicled waitingHeap_history word sampleCalls_young⟩

end Session

end Reclaim
