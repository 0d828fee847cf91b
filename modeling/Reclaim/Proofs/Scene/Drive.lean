import Reclaim.Proofs.Scene.Basic

/-! Driving the sweepers. The operations of a coordinator that take one sweeper through several chores
in one go are runs in which nobody else gets a turn. -/

namespace Reclaim

theorem Sweeper.finish_eq {sweeper : Sweeper} {batch : Assignment}
    (phase : sweeper.phase = .sweeping batch) (outcome : BatchYield) :
    sweeper.finish outcome =
      { sweeper with phase := .idle, outcome := some outcome, ended := sweeper.ended.post } := by
  simp only [finish, concludeBatch, phase, leaveOutcome, signalEnd]

namespace Load

theorem publish_ok {load taken : Load} {heap later : Heap} {kind : SpaceKind}
    (published : load.publish heap kind = (.ok (), taken, later)) :
    taken = load.without kind ∧ heap.publishBatch load.batch kind = (.ok (), later) := by
  unfold Load.publish at published
  generalize heap.publishBatch load.batch kind = result at published
  obtain ⟨answer, next⟩ := result
  cases published
  exact ⟨rfl, rfl⟩

theorem publishBatch_congr (heap : Heap) {batch other : Heap.Batch} {kind : SpaceKind}
    (pages : batch.pages.get kind = other.pages.get kind)
    (lists : batch.lists.get kind = other.lists.get kind) :
    heap.publishBatch batch kind = heap.publishBatch other kind := by
  rw [Heap.publishBatch, Heap.publishBatch, pages, lists]

theorem sweepPages_parts {heap last : Heap} {pages : List Page} {outcome : BatchYield}
    (swept : heap.sweepPages pages = (.ok outcome, last)) :
    ∃ load between middle,
      (ofPages pages).sweepEach heap pages.length = (.ok (), load, between) ∧
        between.publishBatch load.batch .data = (.ok (), middle) ∧
        middle.publishBatch load.batch .pointer = (.ok (), last) ∧
        outcome = load.batch.yielded := by
  rw [sweepPages_eq] at swept
  split at swept
  · cases swept
  · next load between each =>
      split at swept
      · cases swept
      · next held middle data =>
          split at swept
          · cases swept
          · next taken final pointer =>
              cases swept
              obtain ⟨rfl, first⟩ := publish_ok data
              obtain ⟨rfl, second⟩ := publish_ok pointer
              exact ⟨load, between, middle, each, first, second, rfl⟩

end Load

inductive Moves (stop : Bool) :
    Sweeper → Load → Site → List Chore → Sweeper → Load → Site → Prop
  | nil {sweeper : Sweeper} {load : Load} {site : Site} :
      Moves stop sweeper load site [] sweeper load site
  | cons {sweeper middle next : Sweeper} {load held taken : Load} {site between later : Site}
      {chore : Chore} {chores : List Chore}
      (move : Move stop sweeper load site chore middle held between)
      (rest : Moves stop middle held between chores next taken later) :
      Moves stop sweeper load site (chore :: chores) next taken later

namespace Moves

variable {stop : Bool} {sweeper middle next : Sweeper} {load held taken : Load}
  {site between later : Site} {chores more : List Chore}

theorem append (first : Moves stop sweeper load site chores middle held between)
    (rest : Moves stop middle held between more next taken later) :
    Moves stop sweeper load site (chores ++ more) next taken later := by
  induction first with
  | nil => exact rest
  | cons move _ ih => exact .cons move (ih rest)

theorem sweepEach (stop : Bool) (site : Site) {batch : Assignment} {heap : Heap}
    (phase : sweeper.phase = .sweeping batch)
    (swept : load.sweepEach site.heap load.left.length = (.ok (), taken, heap)) :
    ∃ chores, Moves stop sweeper load site chores sweeper taken { site with heap } ∧
      taken.left = [] := by
  generalize count : load.left.length = left at swept
  induction left generalizing load site with
  | zero =>
      cases swept
      exact ⟨[], .nil, List.eq_nil_of_length_eq_zero count⟩
  | succ left ih =>
      obtain ⟨page, rest, first⟩ := List.exists_cons_of_length_eq_add_one count
      have move : Move stop sweeper load site _ _ _ _ := .sweep phase first
      rw [Load.sweepEach] at swept
      split at swept
      · cases swept
      · next held between stepped =>
          rw [stepped] at move
          have fewer : held.left.length = left := by
            have same : (load.sweepNext site.heap).2.1.left = rest := by
              unfold Load.sweepNext
              rw [first]
            rw [stepped] at same
            rw [same]
            simpa [first] using count
          obtain ⟨chores, moves, none⟩ := ih { site with heap := between } fewer swept
          exact ⟨_, .cons move moves, none⟩

theorem publish (stop : Bool) (site : Site) {batch : Assignment} {heap : Heap} (kind : SpaceKind)
    (phase : sweeper.phase = .sweeping batch) (done : load.left = [])
    (published : site.heap.publishBatch load.batch kind = (.ok (), heap)) :
    ∃ chores taken, Moves stop sweeper load site chores sweeper taken { site with heap } ∧
      taken.left = [] ∧ taken.batch.yielded = load.batch.yielded ∧
      taken.batch.pages.get kind = [] ∧
      ∀ other, other ≠ kind → taken.batch.pages.get other = load.batch.pages.get other ∧
        taken.batch.lists.get other = load.batch.lists.get other := by
  by_cases some : load.batch.pages.get kind = []
  · have still : heap = site.heap := by
      rw [Heap.publishBatch, some] at published
      cases published
      rfl
    rw [still]
    exact ⟨[], load, .nil, done, rfl, some, fun _ _ => ⟨rfl, rfl⟩⟩
  · have move : Move stop sweeper load site _ _ _ _ := .publish kind phase done some
    rw [Load.publish, published] at move
    exact ⟨_, load.without kind, .cons move .nil, done, rfl, (load.without_get_same kind).1,
      fun _ => load.without_get_other⟩

theorem conclude (stop : Bool) (site : Site) {batch : Assignment}
    (phase : sweeper.phase = .sweeping batch) (done : load.pages = []) :
    Moves stop sweeper load site [.conclude, .leave, .signal]
      (sweeper.finish load.batch.yielded) load
      ((site.note (.sweeper sweeper.index)
        (.report (.batchSwept (some sweeper.index) load.batch.yielded.pages
          load.batch.yielded.freed))).note (.sweeper sweeper.index)
        (.leave (.sweepBatch batch.round sweeper.index batch.pages.length))) := by
  have concluded : (sweeper.concludeBatch load.batch.yielded).phase =
      .swept load.batch.yielded := by simp only [Sweeper.concludeBatch, phase]
  have left : ((sweeper.concludeBatch load.batch.yielded).leaveOutcome).phase = .reported := by
    simp only [Sweeper.leaveOutcome, concluded]
  exact .cons (.conclude phase done) (.cons (.leave concluded) (.cons (.signal left) .nil))

theorem wake (load : Load) (site : Site) {woken : Sweeper}
    (permit : sweeper.takePermit? = some woken) :
    Moves false sweeper load site [.wake, .heed, .take] (woken.heed false).takeBatch
        (.ofPages sweeper.assignment.pages)
        (site.note (.sweeper sweeper.index)
          (.enter (.sweepBatch sweeper.assignment.round sweeper.index
            sweeper.assignment.pages.length))) ∧
      Moves true sweeper load site [.wake, .heed, .acknowledge] (woken.heed true).acknowledge load
        ((site.note (.sweeper sweeper.index) (.report (.sweeperStopped sweeper.index))).note
          (.sweeper sweeper.index) (.leave (.sweeperThread sweeper.index))) := by
  obtain ⟨_, _, rfl⟩ := Sweeper.takePermit?_some permit
  exact ⟨.cons (.wake permit) (.cons (.heed rfl) (.cons (.take rfl) .nil)),
    .cons (.wake permit) (.cons (.heed rfl) (.cons (.acknowledge rfl) .nil))⟩

theorem finish (stop : Bool) (site : Site) {batch : Assignment} {outcome : BatchYield} {heap : Heap}
    (phase : sweeper.phase = .sweeping batch)
    (swept : site.heap.sweepPages batch.pages = (.ok outcome, heap)) :
    ∃ chores taken, taken.pages = [] ∧
      Moves stop sweeper (.ofPages batch.pages) site chores (sweeper.finish outcome) taken
        (({ site with heap }.note (.sweeper sweeper.index)
          (.report (.batchSwept (some sweeper.index) outcome.pages outcome.freed))).note
            (.sweeper sweeper.index)
            (.leave (.sweepBatch batch.round sweeper.index batch.pages.length))) := by
  obtain ⟨load, between, middle, each, data, pointer, rfl⟩ := Load.sweepPages_parts swept
  obtain ⟨_, sweeps, left⟩ := sweepEach stop site phase each
  obtain ⟨_, held, first, left, yielded, noData, others⟩ :=
    publish stop { site with heap := between } .data phase left data
  obtain ⟨pages, lists⟩ := others .pointer (by decide)
  rw [← Load.publishBatch_congr middle pages lists] at pointer
  obtain ⟨_, taken, second, left, same, noPointer, others⟩ :=
    publish stop { site with heap := middle } .pointer phase left pointer
  have empty : taken.pages = [] := by
    have stillNone := (others .data (by decide)).1.trans noData
    exact List.append_eq_nil_iff.mpr ⟨left, List.append_eq_nil_iff.mpr ⟨stillNone, noPointer⟩⟩
  rw [← yielded, ← same]
  exact ⟨_, taken, empty, (sweeps.append (first.append second)).append
    (conclude stop { site with heap } phase empty)⟩

end Moves

namespace Scene

variable {coordinator : Coordinator} {client : Client} {before after : List Sweeper}
  {sweeper next : Sweeper} {early late : List Load} {load taken : Load} {site later : Site}
  {chores : List Chore}

theorem Run.moves (moves : Moves coordinator.stopped sweeper load site chores next taken later)
    (same : before.length = early.length) :
    Run ⟨{ coordinator with site, sweepers := before ++ sweeper :: after }, early ++ load :: late,
        client⟩
      (chores.map (.sweeper before.length))
      ⟨{ coordinator with site := later, sweepers := before ++ next :: after },
        early ++ taken :: late, client⟩ := by
  induction moves with
  | nil => exact .nil
  | cons move _ ih => exact (Runs.nil.snoc (.sweeper rfl same move)).append ih

theorem Run.drive {stop : Bool} (halted : coordinator.stopped = stop)
    (split : coordinator.sweepers = before ++ sweeper :: after) (same : before.length = early.length)
    (moves : Moves stop sweeper load coordinator.site chores next taken later) :
    Run ⟨coordinator, early ++ load :: late, client⟩ (chores.map (.sweeper before.length))
      ⟨{ coordinator with site := later, sweepers := before ++ next :: after },
        early ++ taken :: late, client⟩ := by
  rw [← halted] at moves
  have run := @Run.moves coordinator client before after sweeper next early late load taken
    coordinator.site later chores moves same
  rwa [← split] at run

theorem Run.wake (client : Client) (late : List Load) (load : Load)
    (split : coordinator.sweepers = before ++ sweeper :: after)
    (same : before.length = early.length) (index : sweeper.index = before.length) :
    ∃ chores : List Chore, ∃ taken,
      Run ⟨coordinator, early ++ load :: late, client⟩ (chores.map (.sweeper before.length))
        ⟨coordinator.wake before.length, early ++ taken :: late, client⟩ := by
  have found : coordinator.sweepers[before.length]? = some sweeper := by simp [split]
  unfold Coordinator.wake
  rw [found]
  dsimp only
  cases permit : sweeper.takePermit? with
  | none =>
      simp only [Sweeper.wake?, permit, Option.map_none]
      exact ⟨[], load, .nil⟩
  | some woken =>
      obtain ⟨begun, ended⟩ := Moves.wake load coordinator.site permit
      obtain ⟨idle, posted, rfl⟩ := Sweeper.takePermit?_some permit
      simp only [Sweeper.wake?, permit, Option.map_some]
      cases halted : coordinator.stopped with
      | false =>
          rw [Coordinator.setSweeper_middle split _ (by exact index)]
          exact ⟨_, _, Run.drive halted split same begun⟩
      | true =>
          rw [Coordinator.setSweeper_middle split _ (by exact index)]
          exact ⟨_, _, Run.drive halted split same ended⟩

theorem Run.sweep {batch : Assignment} {outcome : BatchYield} {heap : Heap} (client : Client)
    (late : List Load) (split : coordinator.sweepers = before ++ sweeper :: after)
    (same : before.length = early.length) (index : sweeper.index = before.length)
    (phase : sweeper.phase = .sweeping batch)
    (swept : coordinator.site.heap.sweepPages batch.pages = (.ok outcome, heap)) :
    ∃ chores : List Chore, ∃ taken site, taken.pages = [] ∧
      coordinator.sweep before.length =
        { coordinator with site, sweepers := before ++ sweeper.finish outcome :: after } ∧
      Run ⟨coordinator, early ++ .ofPages batch.pages :: late, client⟩
        (chores.map (.sweeper before.length))
        ⟨coordinator.sweep before.length, early ++ taken :: late, client⟩ := by
  have found : coordinator.sweepers[before.length]? = some sweeper := by simp [split]
  obtain ⟨chores, taken, empty, moves⟩ :=
    Moves.finish coordinator.stopped coordinator.site phase swept
  have done : (sweeper.finish outcome).index = before.length := by
    rw [Sweeper.finish_eq phase]
    exact index
  have result : coordinator.sweep before.length =
      { coordinator with
        site := ({ coordinator.site with heap }.note (.sweeper before.length)
          (.report (.batchSwept (some before.length) outcome.pages outcome.freed))).note
            (.sweeper before.length) (.leave (.sweepBatch batch.round before.length
              batch.pages.length))
        sweepers := before ++ sweeper.finish outcome :: after } := by
    unfold Coordinator.sweep Site.sweepPages
    rw [found]
    simp only [phase, swept]
    rw [Coordinator.setSweeper_middle (by exact split) _ done]
    rfl
  refine ⟨chores, taken, _, empty, result, ?_⟩
  rw [result]
  have run := @Run.drive coordinator client before after sweeper (sweeper.finish outcome) early late
    (.ofPages batch.pages) taken _ chores _ rfl split same moves
  rwa [index] at run

theorem Run.dismiss {rested : Sweeper} (late : List Load) (load : Load)
    (halted : coordinator.stopped = true) (split : coordinator.sweepers = before ++ rested :: after)
    (same : before.length = early.length) (index : rested.index = before.length)
    (idle : rested.phase = .idle) (posted : 0 < rested.begun.permits) :
    ∃ left joined acts, ((coordinator.wake before.length).sweepers)[before.length]?.bind
        Sweeper.join? = some (left, joined) ∧
      Run ⟨coordinator, early ++ load :: late, .stopping before.length true⟩ acts
        ⟨((coordinator.wake before.length).settle before.length left joined).2,
          early ++ load :: late, .stopping (before.length + 1) false⟩ := by
  have permit : rested.takePermit? =
      some { rested with begun := ⟨rested.begun.permits - 1⟩, phase := .woken } := by
    simp only [Sweeper.takePermit?, idle, Semaphore.acquire?, posted, if_true, Option.map_some]
  have found : coordinator.sweepers[before.length]? = some rested := by simp [split]
  let exited : Sweeper := Sweeper.acknowledge (Sweeper.heed
    { rested with begun := ⟨rested.begun.permits - 1⟩, phase := .woken } true)
  have acknowledged : 0 < exited.stopped.permits := Nat.succ_pos _
  obtain ⟨left, joined, joins⟩ : ∃ left joined, exited.join? = some (left, joined) := by
    simp only [Sweeper.join?, Sweeper.acquireStopped?, Semaphore.acquire?, acknowledged, if_true,
      Option.map_some]
    exact ⟨_, _, rfl⟩
  have woke : coordinator.wake before.length =
      { coordinator with
        site := (coordinator.site.note (.sweeper rested.index)
          (.report (.sweeperStopped rested.index))).note (.sweeper rested.index)
            (.leave (.sweeperThread rested.index))
        sweepers := before ++ exited :: after } := by
    unfold Coordinator.wake
    rw [found]
    simp only [Sweeper.wake?, permit, Option.map_some, halted]
    rw [Coordinator.setSweeper_middle split _ (by exact index)]
    simp only [halted]
    rfl
  have present : (before ++ exited :: after)[before.length]? = some exited := by simp
  rw [woke]
  refine ⟨left, joined, _, ?_, (Run.drive halted split same
    (Moves.wake load coordinator.site permit).2).snoc (.join rfl joins)⟩
  rw [present]
  exact joins

theorem Run.stopSweeper (late : List Load) (halted : coordinator.stopped = true)
    (split : coordinator.sweepers = before ++ sweeper :: after) (same : before.length = early.length)
    (index : sweeper.index = before.length)
    (paused : sweeper.phase = .idle ∨ ∃ batch outcome heap, sweeper.phase = .sweeping batch ∧
      load = .ofPages batch.pages ∧
      coordinator.site.heap.sweepPages batch.pages = (.ok outcome, heap)) :
    ∃ acts taken, Run ⟨coordinator, early ++ load :: late, .stopping before.length false⟩ acts
      ⟨(coordinator.stopSweeper before.length).2, early ++ taken :: late,
        .stopping (before.length + 1) false⟩ := by
  have found : coordinator.sweepers[before.length]? = some sweeper := by simp [split]
  let nudged : Coordinator := { coordinator with sweepers := before ++ sweeper.nudge :: after }
  have nudge : coordinator.setSweeper sweeper.nudge = nudged :=
    Coordinator.setSweeper_middle split sweeper.nudge index
  have begun : Run ⟨coordinator, early ++ load :: late, .stopping before.length false⟩ _ _ :=
    .snoc .nil (.nudge split)
  rw [Coordinator.stopSweeper_eq, found]
  dsimp only
  rw [nudge, Coordinator.runOut]
  rcases paused with idle | ⟨batch, outcome, heap, phase, rfl, swept⟩
  · -- A sweeper that waits has no batch to sweep first.
    have still : nudged.sweep before.length = nudged := by
      have here : nudged.sweepers[before.length]? = some sweeper.nudge := by simp [nudged]
      unfold Coordinator.sweep
      rw [here]
      simp only [Sweeper.nudge, idle]
    rw [still]
    obtain ⟨left, joined, acts, joins, run⟩ := @Run.dismiss nudged before after early sweeper.nudge
      late load halted rfl same index idle (Nat.succ_pos _)
    rw [joins]
    exact ⟨_, load, begun.append run⟩
  · obtain ⟨chores, taken, site, _, result, run⟩ := @Run.sweep nudged before after sweeper.nudge
      early batch outcome heap (.stopping before.length true) late rfl same index phase swept
    obtain ⟨rested, finished, idle, known, posted⟩ :
        ∃ rested, sweeper.nudge.finish outcome = rested ∧ rested.phase = .idle ∧
          rested.index = before.length ∧ 0 < rested.begun.permits :=
      ⟨_, Sweeper.finish_eq (by exact phase) outcome, rfl, index, Nat.succ_pos _⟩
    rw [finished] at result
    rw [result] at run ⊢
    obtain ⟨left, joined, acts, joins, rest⟩ := @Run.dismiss
      { nudged with site, sweepers := before ++ rested :: after } before after early rested late
      taken halted rfl same known idle posted
    rw [joins]
    exact ⟨_, taken, begun.append (run.append rest)⟩

end Scene

end Reclaim
