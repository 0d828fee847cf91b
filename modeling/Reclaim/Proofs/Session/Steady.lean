import Reclaim.Proofs.Scene.Halt
import Reclaim.Proofs.Session.Sound

/-! How a session stands between any two calls. With no round pending nobody owes anything to the books,
and once the client has stopped the sweepers they are gone and the last round has been reported. So a
client that waits is answered in the end, and a stop comes to its end. -/

namespace Reclaim

namespace Session

structure Steady (scene : Scene) : Prop where
  sound : scene.Sound
  settled : scene.coordinator.round.pending = false →
    dues scene.coordinator.sweepers scene.hands = .zero
  left : scene.client = .free → scene.coordinator.stopped = true →
    scene.coordinator.round.pending = false ∧
      ∀ sweeper ∈ scene.coordinator.sweepers, sweeper.Gone
  leaving : ∀ index nudged, scene.client = .stopping index nudged →
    index + (if nudged then 1 else 0) ≤ scene.hands.length ∧
      Each (fun place sweeper _ => sweeper.Leaving index nudged place) scene.coordinator.sweepers
        scene.hands

namespace Steady

variable {scene next : Scene} {coordinator following : Coordinator} {hands early late : List Load}
  {before after : List Sweeper} {sweeper changed : Sweeper} {load taken : Load} {client : Client}

theorem opened {site : Site} {threads : Nat} (sound : (opened site threads).Sound) :
    Steady (opened site threads) where
  sound := sound
  settled _ := (sound.staffed.team.rest (by
    intro sweeper member
    obtain ⟨index, _, rfl⟩ := List.mem_map.mp member
    rfl)).2.2
  left _ := nofun
  leaving := nofun

theorem running (sound : (Scene.mk coordinator hands .free).Sound)
    (runs : coordinator.stopped = false)
    (settled : coordinator.round.pending = false → dues coordinator.sweepers hands = .zero) :
    Steady ⟨coordinator, hands, .free⟩ where
  sound := sound
  settled := settled
  left _ halted := nomatch runs.symm.trans halted
  leaving := nofun

theorem rest (steady : Steady ⟨coordinator, hands, .free⟩)
    (rest : ∀ sweeper ∈ coordinator.sweepers, sweeper.inFlight = false) :
    dues coordinator.sweepers hands = .zero := by
  cases halted : coordinator.stopped with
  | true => exact dues_gone (steady.left rfl halted).2
  | false =>
      have team := steady.sound.staffed.team
      simp only [halted] at team
      exact (team.rest rest).2.2

theorem finalize (steady : Steady ⟨coordinator, hands, .free⟩)
    (owed : dues coordinator.sweepers hands = .zero) :
    Steady ⟨coordinator.finalize.2, hands, .free⟩ := by
  obtain ⟨_, sweepers, stopped⟩ := coordinator.finalize_frame
  refine ⟨steady.sound.still steady.sound.staffed.finalize, fun _ => ?_,
    fun _ halted => ?_, nofun⟩
  · dsimp only
    rw [sweepers]
    exact owed
  · dsimp only at halted ⊢
    rw [sweepers]
    rw [stopped] at halted
    exact ⟨coordinator.finalize_closes, (steady.left rfl halted).2⟩

/-- With no round pending nobody owes anything, so no sweeper does. -/
theorem clear (steady : Steady ⟨coordinator, early ++ load :: late, client⟩)
    (split : coordinator.sweepers = before ++ sweeper :: after)
    (same : before.length = early.length) (closed : coordinator.round.pending = false) :
    sweeper.due load = .zero ∧ dues (before ++ after) (early ++ late) = .zero := by
  have owed := steady.settled closed
  dsimp only at owed
  rw [split, dues_middle same] at owed
  exact BatchYield.eq_zero_of_plus owed

theorem awaited (steady : Steady ⟨coordinator, early ++ load :: late, .free⟩)
    (split : coordinator.sweepers = before ++ sweeper :: after)
    (same : before.length = early.length) (flight : sweeper.inFlight = true)
    (ended : 0 < sweeper.ended.permits)
    (sound : (Scene.mk following (early ++ load :: late) .free).Sound)
    (sweepers : following.sweepers = before ++ sweeper.awaited :: after)
    (pending : following.round.pending = coordinator.round.pending)
    (stopped : following.stopped = coordinator.stopped) :
    Steady ⟨following, early ++ load :: late, .free⟩ := by
  have team := steady.sound.staffed.team
  dsimp only at team
  rw [split] at team
  have runs : coordinator.stopped = false := by
    by_contra halted
    have gone := (steady.left rfl (by simpa using halted)).2 sweeper (by simp [split])
    exact nomatch gone.flight.symm.trans flight
  refine running sound (stopped.trans runs) fun closed => ?_
  rw [sweepers, dues_middle same, (team.middle same).2.1.due_awaited ended,
    (steady.clear split same (pending.symm.trans closed)).2]
  rfl

theorem wait {index : Nat} {answer : Except Fault Unit}
    (steady : Steady ⟨coordinator, hands, .free⟩) (known : index < coordinator.numThreads)
    (waited : coordinator.await? index = some (answer, following)) :
    Steady ⟨following, hands, .free⟩ := by
  have staffed := steady.sound.staffed
  have sound := steady.sound.still (staffed.await known waited).2
  obtain ⟨before, sweeper, after, split, rfl⟩ := Coordinator.split_at known
  obtain ⟨early, load, late, rfl, same⟩ := (split ▸ staffed.team).find
  obtain ⟨_, ⟨_, rfl⟩ | ⟨flight, ended, rfl⟩⟩ := staffed.await_eq split same waited
  · exact steady
  · exact steady.awaited split same flight ended sound rfl rfl rfl

theorem take {index : Nat} {outcome : Option BatchYield}
    (steady : Steady ⟨coordinator, hands, .free⟩)
    (took : coordinator.takeOutcome? index = .ok (some (outcome, following))) :
    Steady ⟨following, hands, .free⟩ := by
  have staffed := steady.sound.staffed
  have sound := steady.sound.still (staffed.take took)
  obtain ⟨before, sweeper, after, split, rfl⟩ :=
    Coordinator.split_at (Coordinator.takeOutcome?_known took)
  have team := split ▸ staffed.team
  obtain ⟨early, load, late, rfl, same⟩ := team.find
  rcases Coordinator.takeOutcome?_eq split (team.middle same).1 took with
    ⟨_, _, rfl⟩ | ⟨flight, ended, _, rfl⟩
  · exact steady
  · exact steady.awaited split same flight ended sound rfl rfl rfl

theorem awaitEach (kept : Coordinator → Prop) {answer : Except Fault Unit}
    (steady : Steady ⟨coordinator, hands, .free⟩) (start : kept coordinator)
    (step : ∀ {middle last index answer}, Steady ⟨middle, hands, .free⟩ → kept middle →
      index < middle.numThreads → middle.await? index = some (answer, last) → kept last)
    (all : coordinator.awaitEach? (List.range coordinator.numThreads) = some (answer, following)) :
    Steady ⟨following, hands, .free⟩ ∧ kept following := by
  have each := (@Coordinator.awaitEach?_keeps coordinator following (fun middle =>
    (Steady ⟨middle, hands, .free⟩ ∧ kept middle) ∧ middle.numThreads = coordinator.numThreads) _ _
    (fun before member first => by
      obtain ⟨⟨steady, kept⟩, many⟩ := before
      have bound := many.symm ▸ List.mem_range.mp member
      obtain ⟨calm, keeps⟩ := steady.sound.staffed.await bound first
      exact ⟨calm, ⟨steady.wait bound first, step steady kept bound first⟩,
        keeps.numThreads.trans many⟩) ⟨⟨steady, start⟩, rfl⟩ all).2
  exact each.1

theorem ensure {answer : Except Fault (Option RoundReport)}
    (steady : Steady ⟨coordinator, hands, .free⟩)
    (waited : coordinator.ensure? = some (answer, following)) :
    Steady ⟨following, hands, .free⟩ := by
  have staffed := steady.sound.staffed
  obtain ⟨last, all, rfl, rfl⟩ := staffed.ensure_eq waited
  obtain ⟨waits, _⟩ := steady.awaitEach (fun _ => True) trivial (fun _ _ _ _ => trivial) all
  exact waits.finalize (waits.rest (staffed.awaitAll all).2.2)

theorem poll (steady : Steady ⟨coordinator, hands, .free⟩)
    (split : coordinator.sweepers = before ++ sweeper :: after) :
    Steady ⟨{ coordinator with sweepers := before ++ sweeper.poll.2 :: after }, hands, .free⟩ := by
  have staffed := steady.sound.staffed
  have sound := steady.sound.still (staffed.poll split)
  obtain ⟨early, load, late, rfl, same⟩ := (split ▸ staffed.team).find
  refine ⟨sound, fun closed => ?_, fun _ halted => ?_, nofun⟩
  · have owed := steady.settled closed
    dsimp only at owed ⊢
    rw [split] at owed
    rw [dues_middle same] at owed ⊢
    rw [sweeper.poll_eq]
    exact owed
  · obtain ⟨closed, gone⟩ := steady.left rfl halted
    have still : sweeper.poll.2 = sweeper := by
      have finished : sweeper.isFinishedRound = true := by
        simp [Sweeper.isFinishedRound, (gone sweeper (by simp [split])).flight]
      simp [Sweeper.poll, finished]
    rw [still, ← split]
    exact ⟨closed, gone⟩

theorem start (steady : Steady ⟨coordinator, hands, .free⟩) (runs : coordinator.stopped = false)
    (idle : coordinator.inProgress = false)
    (young : ∀ page ∈ coordinator.sweptAtStart, page.sweeps + 1 < Word.halfLimit) :
    Steady ⟨coordinator.start.2, hands, .free⟩ := by
  by_cases alone : coordinator.numThreads = 0
  · rw [Coordinator.sweptAtStart, if_pos alone] at young
    have sound := (steady.sound.startHere runs alone young).2.1
    obtain ⟨nobody, rfl, _, loaded, _⟩ := steady.sound.unstaffed alone
    obtain ⟨site, round, report, started, _⟩ :=
      Coordinator.start_here runs alone (loaded.sweepPages young).1
    rw [started] at sound ⊢
    refine running sound runs fun _ => ?_
    dsimp only
    rw [nobody]
    rfl
  · have some := Nat.pos_of_ne_zero alone
    have sound := (steady.sound.startDealt runs idle some).2.1
    have rest := Coordinator.inProgress_false.mp idle
    have team := steady.sound.staffed.team
    simp only [runs] at team
    have empty := (team.rest rest).1
    obtain ⟨parts, site, round, started, _, _, _, opened⟩ :=
      Coordinator.start_dealt runs some fun sweeper member => ⟨rest sweeper member, empty sweeper member⟩
    rw [started] at sound ⊢
    exact running sound runs (by simp [opened.pending])

theorem move {site : Site} {chore : Chore} (steady : Steady ⟨coordinator, early ++ load :: late, client⟩)
    (split : coordinator.sweepers = before ++ sweeper :: after)
    (same : before.length = early.length)
    (move : Move coordinator.stopped sweeper load coordinator.site chore changed taken site)
    (young : ∀ page ∈ chore.sweeps, page.sweeps + 1 < Word.halfLimit) :
    Steady ⟨{ coordinator with site, sweepers := before ++ changed :: after },
      early ++ taken :: late, client⟩ := by
  obtain ⟨sound, settled, left, leaving⟩ := steady
  obtain ⟨calm, _, nextSound, _⟩ := sound.sweeper split same move young
  obtain ⟨shake, regular⟩ := sound.at_sweeper split same
  refine ⟨nextSound, fun closed => ?_, fun free halted => ?_, fun index nudged busy => ?_⟩
  · have owed := settled closed
    dsimp only at owed ⊢
    rw [split] at owed
    rw [dues_middle same] at owed ⊢
    rw [move.due calm young shake regular]
    exact owed
  · have gone := (left free halted).2 sweeper (by simp [split])
    exact absurd gone.phase move.inside
  · obtain ⟨known, each⟩ := leaving index nudged busy
    have halted : coordinator.stopped = true := sound.halted fun free => nomatch busy.symm.trans free
    rw [halted] at move
    dsimp only at known each ⊢
    rw [split] at each
    exact ⟨by simpa using known, each.replace same (fun _ _ _ _ old => old)
      (move.leaving calm (each.middle same))⟩

theorem halt (steady : Steady ⟨coordinator, hands, .free⟩) (runs : coordinator.stopped = false) :
    Steady ⟨{ coordinator with stopped := true }, hands, .stopping 0 false⟩ := by
  have team := steady.sound.staffed.team
  simp only [runs] at team
  refine ⟨steady.sound.stop.1, steady.settled, nofun, fun index nudged busy => ?_⟩
  cases busy
  exact ⟨Nat.zero_le _, Sweeper.Leaving.begin team⟩

theorem nudge (steady : Steady ⟨coordinator, hands, .stopping before.length false⟩)
    (split : coordinator.sweepers = before ++ sweeper :: after) :
    Steady ⟨{ coordinator with sweepers := before ++ sweeper.nudge :: after }, hands,
      .stopping before.length true⟩ := by
  obtain ⟨sound, settled, _, leaving⟩ := steady
  have each := (leaving _ _ rfl).2
  dsimp only at each
  rw [split] at each
  obtain ⟨early, load, late, rfl, same⟩ := (split ▸ sound.staffed.team).find
  refine ⟨(sound.nudge split).1, fun closed => ?_, nofun, fun index nudged busy => ?_⟩
  · have owed := settled closed
    dsimp only at owed ⊢
    rw [split] at owed
    rw [dues_middle same] at owed ⊢
    exact owed
  · cases busy
    exact ⟨by simp [same], Sweeper.Leaving.nudge each same⟩

theorem join {joined : Sweeper} {left : Assignment}
    (steady : Steady ⟨coordinator, hands, .stopping before.length true⟩)
    (split : coordinator.sweepers = before ++ sweeper :: after)
    (joins : sweeper.join? = some (left, joined)) :
    Steady ⟨(coordinator.settle before.length left joined).2, hands,
      .stopping (before.length + 1) false⟩ := by
  have sound := steady.sound
  have halted : coordinator.stopped = true := sound.halted nofun
  have posted := (Sweeper.join?_some joins).1
  obtain ⟨following, given, _, _, _, sweepers, round, _⟩ :=
    sound.staffed.settle halted split joins
  obtain ⟨_, again, nextSound, _⟩ := sound.join split joins
  rw [given] at again ⊢
  cases again
  have each := (steady.leaving _ _ rfl).2
  have team := sound.staffed.team
  dsimp only at each team
  rw [split] at each team
  obtain ⟨early, load, late, rfl, same⟩ := team.find
  have shake := (team.middle same).2.1
  refine ⟨nextSound, fun closed => ?_, nofun, fun index nudged busy => ?_⟩
  · dsimp only at closed ⊢
    rw [round] at closed
    rw [sweepers, dues_middle same, (shake.due_joined posted).2,
      (steady.clear split same closed).2]
    rfl
  · cases busy
    dsimp only
    rw [sweepers]
    exact ⟨by simp [same], Sweeper.Leaving.join each same (shake.acknowledged posted)⟩

theorem conclude (steady : Steady ⟨coordinator, hands, .stopping coordinator.numThreads false⟩) :
    Steady ⟨coordinator.finalize.2, hands, .free⟩ := by
  obtain ⟨sound, _, _, leaving⟩ := steady
  obtain ⟨_, sweepers, _⟩ := coordinator.finalize_frame
  have gone := Sweeper.Leaving.all_gone (leaving _ _ rfl).2 sound.numThreads
  refine ⟨sound.conclude.1, fun _ => ?_, fun _ _ => ⟨coordinator.finalize_closes, ?_⟩, nofun⟩
  · dsimp only
    rw [sweepers]
    exact dues_gone gone
  · dsimp only
    rw [sweepers]
    exact gone

end Steady

theorem Step.steady {scene next : Scene} {call : Call} (step : Step scene call next)
    (steady : Steady scene) (young : call.Young) : Steady next := by
  have sound := (step.sound steady.sound young).2
  cases step with
  | act act =>
      cases act with
      | sweeper split same move => exact steady.move split same move young
      | start running rest => exact steady.start running rest young
      | wait known waited => exact steady.wait known waited
      | ensure waited => exact steady.ensure waited
      | stop running => exact steady.halt running
      | nudge split => exact steady.nudge split
      | join split joins => exact steady.join split joins
      | conclude => exact steady.conclude
      | _ => exact ⟨sound, steady.settled, steady.left, steady.leaving⟩
  | take taken => exact steady.take taken
  | poll split => exact steady.poll split
  | @pollAll coordinator hands =>
      exact @Coordinator.poll_keeps coordinator (fun middle => Steady ⟨middle, hands, .free⟩) steady
        fun kept split => kept.poll split
  | stopAgain stopped =>
      rw [Coordinator.stop_again stopped]
      exact steady

theorem Run.steady {first scene : Scene} {calls : List Call} (run : Run first calls scene)
    (steady : Steady first) (young : ∀ call ∈ calls, call.Young) : Steady scene := by
  have kept : (∀ call ∈ calls, True) ∧ Steady scene :=
    run.keeps_while Steady steady young fun step youth kept => ⟨trivial, step.steady kept youth⟩
  exact kept.2

def toRest (scene : Scene) : Nat := ranks scene.coordinator.sweepers scene.hands

namespace Steady

variable {scene next : Scene}

/-- A client that waits for the round is answered, or a sweeper has a chore to do. -/
theorem answers (steady : Steady scene) (free : scene.client = .free) :
    (∃ report done, scene.coordinator.ensure? = some (.ok report, done)) ∨
      ∃ index chore reports following, Step scene (.act (.sweeper index chore) reports) following := by
  obtain ⟨coordinator, hands, client⟩ := scene
  cases free
  have staffed := steady.sound.staffed
  have answered {answer done} (waited : coordinator.ensure? = some (answer, done)) :
      ∃ report done, coordinator.ensure? = some (.ok report, done) := by
    obtain ⟨⟨report, rfl⟩, _⟩ := staffed.ensure waited
    exact ⟨report, done, waited⟩
  cases halted : coordinator.stopped with
  | true =>
      obtain ⟨_, _, waited⟩ := staffed.ensure_ready fun sweeper member flight =>
        nomatch flight.symm.trans ((steady.left rfl halted).2 sweeper member).flight
      exact .inl (answered waited)
  | false =>
      rcases staffed.progress halted with
        ⟨before, sweeper, after, early, load, late, split, same, place, chore, _, _, _, move⟩ |
          ⟨_, _, waited⟩
      · dsimp only at same
        subst same
        exact .inr ⟨_, _, _, _, .act (.sweeper split place move)⟩
      · exact .inl (answered waited)

theorem nearer {index : Nat} {chore : Chore} {reports : List RoundReport} (steady : Steady scene)
    (free : scene.client = .free) (step : Step scene (.act (.sweeper index chore) reports) next)
    (young : ∀ page ∈ chore.sweeps, page.sweeps + 1 < Word.halfLimit) :
    toRest next < toRest scene := by
  cases step with
  | act act =>
      cases act with
      | @sweeper coordinator before after sweeper changed early late load taken site client chore split
          same move =>
          obtain ⟨calm, _⟩ := steady.sound.sweeper split same move young
          obtain ⟨shake, regular⟩ := steady.sound.at_sweeper split same
          cases halted : coordinator.stopped with
          | true =>
              have gone := (steady.left free halted).2 sweeper (by simp [split])
              exact absurd gone.phase move.inside
          | false =>
              rw [halted] at move shake
              have nearer := move.rank calm young shake regular
              simp only [toRest]
              rw [split, ranks_middle same, ranks_middle same]
              omega

/-- Whoever stops the sweepers, or one of them, has something to do. -/
theorem goes (steady : Steady scene) (busy : scene.client ≠ .free) :
    ∃ act reports following, Step scene (.act act reports) following := by
  obtain ⟨coordinator, hands, client⟩ := scene
  cases client with
  | free => exact absurd rfl busy
  | stopping index nudged =>
      obtain ⟨known, leaving⟩ := steady.leaving index nudged rfl
      obtain ⟨act, following, step⟩ := steady.sound.goes known leaving
      exact ⟨act, _, following, .act step⟩

theorem ends {call : Call} (steady : Steady scene) (busy : scene.client ≠ .free)
    (step : Step scene call next) (young : call.Young) :
    ∃ act reports, call = .act act reports ∧
      (act.isConclude = true ∨ next.toStop < scene.toStop) := by
  cases step with
  | @act _ _ act step =>
      refine ⟨act, _, rfl, ?_⟩
      cases during : act.isConclude with
      | true => exact .inl rfl
      | false => exact .inr (step.nearer steady.sound busy during young)
  | _ => exact absurd rfl busy

end Steady

end Session

end Reclaim
