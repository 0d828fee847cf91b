import Reclaim.Proofs.Scene.Opening

/-! Stopping the sweepers. The client sets the flag, then nudges, awaits and joins one sweeper after
another, with the others at whatever they are. Each sweeper sweeps the batch for which it is past its
look at the flag and leaves; what it never got to comes back; and the round is reported with what has
been swept. -/

namespace Reclaim

theorem Sweeper.Gone.due {sweeper : Sweeper} (gone : sweeper.Gone) (load : Load) :
    sweeper.due load = .zero := by
  rw [Handshake.due_idle (by rw [gone.phase]; rfl), gone.slot, gone.outcome]
  rfl

theorem dues_gone {sweepers : List Sweeper} {hands : List Load}
    (gone : ∀ sweeper ∈ sweepers, sweeper.Gone) : dues sweepers hands = .zero := by
  induction sweepers generalizing hands with
  | nil => rfl
  | cons sweeper rest ih =>
      cases hands with
      | nil => rfl
      | cons load hands =>
          rw [dues_cons, (gone sweeper (by simp)).due,
            ih fun other member => gone other (by simp [member])]
          rfl

namespace Sweeper.Leaving

variable {before after sweepers : List Sweeper} {sweeper : Sweeper} {early late hands : List Load}
  {load : Load}

theorem begin {hands : List Load} (team : Team false sweepers hands) :
    Each (fun place sweeper _ => sweeper.Leaving 0 false place) sweepers hands := by
  intro place sweeper load found held
  have shake := team.each place sweeper load found held
  exact ⟨nofun, fun _ exited => absurd exited (shake.running rfl).2, nofun⟩

theorem nudge (leaving : Each (fun place sweeper _ => sweeper.Leaving before.length false place)
      (before ++ sweeper :: after) (early ++ load :: late)) (same : before.length = early.length) :
    Each (fun place sweeper _ => sweeper.Leaving before.length true place)
      (before ++ sweeper.nudge :: after) (early ++ load :: late) := by
  have posted := (leaving.middle same).posted
  refine leaving.replace same (fun place other _ elsewhere old => ?_)
    ⟨fun joined => absurd joined (Nat.lt_irrefl _), posted, fun _ _ _ => Nat.succ_pos _⟩
  exact ⟨old.gone, old.posted, fun here => absurd here elsewhere⟩

theorem join (leaving : Each (fun place sweeper _ => sweeper.Leaving before.length true place)
      (before ++ sweeper :: after) (early ++ load :: late)) (same : before.length = early.length)
    (exited : sweeper.phase = .exited) :
    Each (fun place sweeper _ => sweeper.Leaving (before.length + 1) false place)
      (before ++ sweeper.joined :: after) (early ++ load :: late) := by
  refine leaving.replace same (fun place other _ elsewhere old => ?_) ?_
  · exact ⟨fun sooner => old.gone (by omega), fun later => old.posted (by omega), nofun⟩
  · exact ⟨fun _ => ⟨exited, rfl, rfl, rfl, rfl⟩, fun later => absurd later (by omega), nofun⟩

theorem all_gone {nudged : Bool}
    (leaving : Each (fun place sweeper _ => sweeper.Leaving sweepers.length nudged place)
      sweepers hands)
    (same : sweepers.length = hands.length) : ∀ sweeper ∈ sweepers, sweeper.Gone := by
  intro sweeper member
  obtain ⟨place, known, rfl⟩ := List.mem_iff_getElem.mp member
  exact (leaving _ _ _ (List.getElem?_eq_getElem known)
    (List.getElem?_eq_getElem (same ▸ known))).gone known

end Sweeper.Leaving

def Act.isConclude : Act → Bool
  | .conclude => true
  | _ => false

namespace Scene

theorem Run.busy {first last : Scene} {acts : List Act} (run : Run first acts last)
    (busy : first.client ≠ .free) (during : ∀ act ∈ acts, act.isConclude = false) :
    last.client ≠ .free ∧ ∀ act ∈ acts, act.isStart = false ∧ act.isPrepare = false := by
  induction run with
  | nil => exact ⟨busy, by simp⟩
  | @snoc acts act scene next _ step ih =>
      obtain ⟨before, here⟩ := List.forall_mem_append.mp during
      obtain ⟨still, quiet⟩ := ih before
      have last : next.client ≠ .free ∧ act.isStart = false ∧ act.isPrepare = false := by
        cases step with
        | sweeper _ _ _ => exact ⟨still, rfl, rfl⟩
        | nudge _ => exact ⟨nofun, rfl, rfl⟩
        | join _ _ => exact ⟨nofun, rfl, rfl⟩
        | conclude => exact nomatch here .conclude (by simp)
        | _ => exact absurd rfl still
      exact ⟨last.1, List.forall_mem_append.mpr ⟨quiet, by simpa using last.2⟩⟩

def passed (scene : Scene) (index : Nat) : List Page :=
  (List.zipWith Sweeper.passed scene.coordinator.sweepers scene.hands)[index]?.getD []

def toStop (scene : Scene) : Nat :=
  (List.zipWith Sweeper.parting scene.coordinator.sweepers scene.hands).sum +
    match scene.client with
    | .free => 0
    | .stopping index nudged => 2 * (scene.hands.length - index) + if nudged then 0 else 1

section Middle

variable {coordinator following : Coordinator} {before after : List Sweeper} {sweeper next : Sweeper}
  {early late : List Load} {load taken : Load} {client later : Client}
  (split : coordinator.sweepers = before ++ sweeper :: after)
  (same : before.length = early.length)
  (changed : following.sweepers = before ++ next :: after)

include split same changed

theorem passed_middle {pages : List Page} (step : pages ++ next.passed taken = sweeper.passed load)
    (index : Nat) :
    (if before.length = index then pages else []) ++
        (Scene.mk following (early ++ taken :: late) later).passed index =
      (Scene.mk coordinator (early ++ load :: late) client).passed index := by
  have width : (List.zipWith Sweeper.passed before early).length = before.length := by
    rw [List.length_zipWith, same, Nat.min_self]
  unfold passed
  dsimp only
  rw [split, changed, zipWith_middle _ same, zipWith_middle _ same]
  by_cases here : before.length = index
  · subst here
    rw [if_pos rfl, ← width]
    simpa using step
  · rw [if_neg here, List.nil_append]
    exact congrArg (·.getD []) (getElem?_middle _ _ (by rw [width]; exact Ne.symm here))

theorem passed_still (still : next.passed taken = sweeper.passed load) (index : Nat) :
    (Scene.mk following (early ++ taken :: late) later).passed index =
      (Scene.mk coordinator (early ++ load :: late) client).passed index := by
  have step : [] ++ next.passed taken = sweeper.passed load := still
  have kept := @passed_middle coordinator following before after sweeper next early late load taken
    client later split same changed [] step index
  rwa [ite_self, List.nil_append] at kept

theorem parting_middle :
    (List.zipWith Sweeper.parting following.sweepers (early ++ taken :: late)).sum +
        sweeper.parting load =
      (List.zipWith Sweeper.parting coordinator.sweepers (early ++ load :: late)).sum +
        next.parting taken := by
  rw [split, changed, zipWith_middle _ same, zipWith_middle _ same]
  simp only [List.sum_append, List.sum_cons]
  omega

end Middle

/-- The client or the sweeper that it waits for has something to do. -/
theorem Sound.goes {index : Nat} {nudged : Bool} {coordinator : Coordinator} {hands : List Load}
    (sound : (Scene.mk coordinator hands (.stopping index nudged)).Sound)
    (known : index + (if nudged then 1 else 0) ≤ hands.length)
    (leaving : Each (fun place sweeper _ => sweeper.Leaving index nudged place)
      coordinator.sweepers hands) :
    ∃ act following, Step ⟨coordinator, hands, .stopping index nudged⟩ act following := by
  have many := sound.numThreads
  dsimp only at many
  by_cases last : index = hands.length
  · obtain rfl : nudged = false := by
      by_contra nudged
      rw [if_pos (by simpa using nudged)] at known
      omega
    rw [last, ← many]
    exact ⟨_, _, .conclude⟩
  · obtain ⟨before, sweeper, after, split, rfl⟩ := Coordinator.split_at
      (show index < coordinator.sweepers.length by
        rw [show coordinator.sweepers.length = hands.length from many]
        omega)
    cases nudged with
    | false => exact ⟨_, _, .nudge split⟩
    | true =>
        -- The sweeper that has been nudged has said that it left, or has a permit whenever it waits.
        have team := sound.staffed.team
        dsimp only at team
        rw [split] at team leaving
        obtain ⟨early, load, late, rfl, same⟩ := team.find
        obtain ⟨_, posted, permit⟩ := leaving.middle same
        by_cases acknowledged : 0 < sweeper.stopped.permits
        · obtain ⟨left, joined, joins⟩ : ∃ left joined, sweeper.join? = some (left, joined) := by
            simp only [Sweeper.join?, Sweeper.acquireStopped?, Semaphore.acquire?, acknowledged,
              if_true, Option.map_some]
            exact ⟨_, _, rfl⟩
          exact ⟨_, _, .join split joins⟩
        · obtain ⟨chore, next, taken, site, move⟩ := Move.awake coordinator.site
            (team.middle same).2.1 (fun idle => permit rfl rfl (Or.inl idle))
            fun exited => acknowledged (posted (Nat.le_refl _) exited)
          exact ⟨_, _, .sweeper split same move⟩

theorem Step.nearer {scene next : Scene} {act : Act} (step : Step scene act next)
    (sound : scene.Sound) (busy : scene.client ≠ .free) (during : act.isConclude = false)
    (young : act.Young) : next.toStop < scene.toStop := by
  have halted := sound.halted busy
  cases step with
  | @sweeper coordinator before after sweeper next early late load taken site client chore split same move =>
      obtain ⟨calm, _⟩ := sound.sweeper split same move young
      obtain ⟨_, regular⟩ := sound.at_sweeper split same
      dsimp only at halted
      have moved := move
      rw [halted] at moved
      have nearer := (moved.parting calm young regular).2
      have sums := @parting_middle coordinator { coordinator with site, sweepers := before ++ next :: after }
        before after sweeper next early late load taken split same rfl
      simp only [toStop, List.length_append, List.length_cons]
      dsimp only at sums
      omega
  | @nudge coordinator hands before after sweeper split =>
      have team := sound.staffed.team
      dsimp only at team
      rw [split] at team
      obtain ⟨early, load, late, rfl, same⟩ := team.find
      have sums := @parting_middle coordinator
        { coordinator with sweepers := before ++ sweeper.nudge :: after } before after sweeper
        sweeper.nudge early late load load split same rfl
      have still : sweeper.nudge.parting load = sweeper.parting load := rfl
      simp only [toStop, Bool.false_eq_true, if_false, if_true]
      dsimp only at sums
      omega
  | @join coordinator hands before after sweeper joined left split joins =>
      obtain ⟨following, settled, staffed, _, _, sweepers, _⟩ :=
        sound.staffed.settle halted split joins
      have team := sound.staffed.team
      dsimp only at team settled
      rw [split] at team
      obtain ⟨early, load, late, rfl, same⟩ := team.find
      have exited := (team.middle same).2.1.acknowledged (Sweeper.join?_some joins).1
      have idle : sweeper.parting load = 0 ∧ sweeper.joined.parting load = 0 := by
        simp [Sweeper.parting, Sweeper.joined, exited]
      have sums := @parting_middle coordinator following before after sweeper sweeper.joined early
        late load load split same sweepers
      rw [settled]
      simp only [toStop, List.length_append, List.length_cons, Bool.false_eq_true, if_false, if_true]
      omega
  | conclude => cases during
  | _ => exact absurd rfl busy

structure Halting (whole : List Page) (part : Nat → List Page) (acts late : List Act) (halt : Scene)
    (index : Nat) (nudged : Bool) (back : Nat → List Page) (scene : Scene) : Prop where
  sound : scene.Sound
  client : scene.client = .stopping index nudged
  hands : scene.hands.length = halt.hands.length
  known : index + (if nudged then 1 else 0) ≤ scene.hands.length
  tally : Tally whole part (sweptBy (acts ++ late)) back scene.coordinator scene.hands
  none : ∀ place, index ≤ place → back place = []
  leaving : Each (fun place sweeper _ => sweeper.Leaving index nudged place)
    scene.coordinator.sweepers scene.hands
  unswept : ∀ kind, (scene.heap.space kind).unswept = (halt.heap.space kind).unswept ++
    ((List.range halt.hands.length).flatMap back).filter fun page => decide (page.space = kind)
  books : ∃ merged entries, scene.coordinator.round =
    { halt.coordinator.round with merged := merged, perThread := entries }
  counters : scene.coordinator.site.counters = halt.coordinator.site.counters
  passed : ∀ place, sweptBy late place ++ scene.passed place = halt.passed place
  bound : late.length + scene.toStop ≤ halt.toStop

namespace Halting

variable {whole : List Page} {part back : Nat → List Page} {acts passed : List Act} {halt : Scene}
  {index : Nat} {nudged : Bool} {coordinator : Coordinator} {hands early late : List Load}
  {client : Client} {before after : List Sweeper} {sweeper next : Sweeper} {load taken : Load}
  {site : Site} {chore : Chore}

theorem step_sweeper (halting : Halting whole part acts passed halt index nudged back
      ⟨coordinator, early ++ load :: late, client⟩)
    (split : coordinator.sweepers = before ++ sweeper :: after)
    (same : before.length = early.length)
    (move : Move coordinator.stopped sweeper load coordinator.site chore next taken site)
    (young : ∀ page ∈ chore.sweeps, page.sweeps + 1 < Word.halfLimit) :
    Halting whole part acts (passed ++ [.sweeper before.length chore]) halt index nudged back
      ⟨{ coordinator with site, sweepers := before ++ next :: after }, early ++ taken :: late,
        client⟩ := by
  have sound := halting.sound
  have busy : client = .stopping index nudged := halting.client
  obtain ⟨calm, waiting, nextSound, _⟩ := sound.sweeper split same move young
  obtain ⟨shake, regular⟩ := sound.at_sweeper split same
  have halted : coordinator.stopped = true := sound.halted (by
    dsimp only
    rw [busy]
    nofun)
  have moved := move
  rw [halted] at moved
  have rest := (moved.parting calm young regular).1
  have nearer := (Step.sweeper split same move).nearer sound
    (fun free => nomatch busy.symm.trans free) rfl young
  have leaving := halting.leaving
  dsimp only at leaving
  rw [split] at leaving
  exact {
    sound := nextSound
    client := busy
    hands := by simpa using halting.hands
    known := by simpa using halting.known
    tally := by
      rw [← List.append_assoc, sweptBy_snoc]
      exact halting.tally.move split same move calm young shake regular
    none := halting.none
    leaving := leaving.replace same (fun _ _ _ _ old => old) (moved.leaving calm (leaving.middle same))
    unswept := fun kind => (waiting kind).trans (halting.unswept kind)
    books := halting.books
    counters := move.counters.trans halting.counters
    passed := by
      intro place
      rw [sweptBy_snoc, List.append_assoc, ← halting.passed place]
      exact congrArg _ (passed_middle split same rfl rest place)
    bound := by
      have bound := halting.bound
      rw [List.length_append, List.length_singleton]
      omega }

theorem step_nudge (halting : Halting whole part acts passed halt before.length false back
      ⟨coordinator, hands, .stopping before.length false⟩)
    (split : coordinator.sweepers = before ++ sweeper :: after) :
    Halting whole part acts (passed ++ [.nudge before.length]) halt before.length true back
      ⟨{ coordinator with sweepers := before ++ sweeper.nudge :: after }, hands,
        .stopping before.length true⟩ := by
  obtain ⟨nextSound, _⟩ := halting.sound.nudge split
  have nearer := (@Step.nudge _ hands _ _ _ split).nearer halting.sound nofun rfl nofun
  have team := halting.sound.staffed.team
  have leaving := halting.leaving
  dsimp only at team leaving
  rw [split] at team leaving
  obtain ⟨early, load, late, rfl, same⟩ := team.find
  exact {
    sound := nextSound
    client := rfl
    hands := halting.hands
    known := by simp [same]
    tally := by
      rw [← List.append_assoc, sweptBy_snoc]
      simpa only [Act.sweepsOf, List.append_nil] using halting.tally.nudge split same
    none := halting.none
    leaving := Sweeper.Leaving.nudge leaving same
    unswept := halting.unswept
    books := halting.books
    counters := halting.counters
    passed := by
      intro place
      have kept := @passed_still coordinator
        { coordinator with sweepers := before ++ sweeper.nudge :: after } before after sweeper
        sweeper.nudge early late load load (.stopping before.length false)
        (.stopping before.length true) split same rfl rfl place
      rw [sweptBy_snoc, kept, ← halting.passed place]
      simp only [Act.sweepsOf, List.append_nil]
    bound := by
      have bound := halting.bound
      rw [List.length_append, List.length_singleton]
      omega }

theorem step_join {joined : Sweeper} {left : Assignment}
    (halting : Halting whole part acts passed halt before.length true back
      ⟨coordinator, hands, .stopping before.length true⟩)
    (split : coordinator.sweepers = before ++ sweeper :: after)
    (joins : sweeper.join? = some (left, joined)) (answer : Except Fault Unit) :
    ∃ given, Halting whole part acts (passed ++ [.join before.length answer]) halt
      (before.length + 1) false given
      ⟨(coordinator.settle before.length left joined).2, hands,
        .stopping (before.length + 1) false⟩ := by
  have sound := halting.sound
  have halted : coordinator.stopped = true := sound.halted nofun
  obtain ⟨following, settled, staffed, heap, _, sweepers, round, counted⟩ :=
    sound.staffed.settle halted split joins
  obtain ⟨_, again, nextSound, _⟩ := sound.join split joins
  have nearer := (@Step.join _ hands _ _ _ _ _ split joins).nearer sound nofun rfl nofun
  rw [settled] at again nearer ⊢
  cases again
  have team := sound.staffed.team
  have leaving := halting.leaving
  dsimp only at team leaving
  rw [split] at team leaving
  obtain ⟨early, load, late, rfl, same⟩ := team.find
  obtain ⟨_, shake, _⟩ := team.middle same
  have exited := shake.acknowledged (Sweeper.join?_some joins).1
  have many := halting.hands
  dsimp only at many heap round
  have some : before.length < halt.hands.length := by
    rw [← many]
    simp [same]
  -- A sweeper that can be joined is out of its loop, so what is in its slot will not be swept.
  obtain ⟨noPages, still⟩ : sweeper.passed load = [] ∧ sweeper.joined.passed load = [] := by
    simp [Sweeper.passed, Sweeper.joined, exited]
  refine ⟨fun index => if index = before.length then sweeper.assignment.pages else back index, ?_⟩
  exact {
    sound := nextSound
    client := rfl
    hands := many
    known := by simpa [many, Nat.succ_le_iff] using some
    tally := by
      rw [← List.append_assoc, sweptBy_snoc]
      simpa only [Act.sweepsOf, List.append_nil] using
        halting.tally.settle sound.staffed halted split joins halting.none sweepers round
    none := by
      intro place later
      rw [if_neg (by omega)]
      exact halting.none place (by omega)
    leaving := by
      rw [sweepers]
      exact Sweeper.Leaving.join leaving same exited
    unswept := by
      intro kind
      have unswept := halting.unswept kind
      rw [Tally.flatMap_given some halting.none, List.filter_append, ← List.append_assoc, ← unswept]
      simp only [Scene.heap, heap, Heap.space_restoreUnswept, PagedSpace.restoreUnswept]
    books := by
      obtain ⟨merged, entries, same⟩ := halting.books
      dsimp only at same
      rw [round, same]
      exact ⟨_, _, rfl⟩
    counters := counted.trans halting.counters
    passed := by
      intro place
      have kept := @passed_still coordinator following before after sweeper sweeper.joined early late
        load load (.stopping before.length true) (.stopping (before.length + 1) false) split same
        sweepers (still.trans noPages.symm) place
      rw [sweptBy_snoc, kept, ← halting.passed place]
      simp only [Act.sweepsOf, List.append_nil]
    bound := by
      have bound := halting.bound
      rw [List.length_append, List.length_singleton]
      omega }

theorem start (sound : (Scene.mk coordinator hands .free).Sound)
    (running : coordinator.stopped = false)
    (tally : Tally whole part (sweptBy acts) (fun _ => []) coordinator hands) :
    Halting whole part acts [] ⟨{ coordinator with stopped := true }, hands, .stopping 0 false⟩ 0
      false (fun _ => []) ⟨{ coordinator with stopped := true }, hands, .stopping 0 false⟩ := by
  have team := sound.staffed.team
  simp only [running] at team
  exact {
    sound := sound.stop.1
    client := rfl
    hands := rfl
    known := Nat.zero_le _
    tally := by
      rw [List.append_nil]
      exact tally.of_same rfl rfl
    none := fun _ _ => rfl
    leaving := Sweeper.Leaving.begin team
    unswept := by
      intro kind
      rw [List.flatMap_eq_nil_iff.mpr fun _ _ => rfl]
      exact (List.append_nil _).symm
    books := ⟨_, _, rfl⟩
    counters := rfl
    passed := fun _ => rfl
    bound := Nat.le_of_eq (Nat.zero_add _) }

theorem step {scene following : Scene} {act : Act}
    (halting : Halting whole part acts passed halt index nudged back scene)
    (step : Step scene act following) (during : act.isConclude = false) (young : act.Young) :
    ∃ index nudged back,
      Halting whole part acts (passed ++ [act]) halt index nudged back following := by
  cases step with
  | sweeper split same move => exact ⟨_, _, _, halting.step_sweeper split same move young⟩
  | nudge split =>
      obtain ⟨rfl, rfl⟩ := Client.stopping.inj halting.client
      exact ⟨_, _, _, halting.step_nudge split⟩
  | join split joins =>
      obtain ⟨rfl, rfl⟩ := Client.stopping.inj halting.client
      obtain ⟨given, kept⟩ := halting.step_join split joins _
      exact ⟨_, _, given, kept⟩
  | conclude => cases during
  | _ => cases halting.client

theorem run {scene : Scene} {late : List Act} (run : Run halt late scene)
    (begun : Halting whole part acts [] halt index nudged back halt)
    (during : ∀ act ∈ late, act.isConclude = false) (young : ∀ act ∈ late, act.Young) :
    ∃ index nudged back, Halting whole part acts late halt index nudged back scene := by
  induction run with
  | nil => exact ⟨_, _, _, begun⟩
  | snoc earlier step ih =>
      obtain ⟨stops, last⟩ := List.forall_mem_append.mp during
      obtain ⟨before, here⟩ := List.forall_mem_append.mp young
      obtain ⟨_, _, _, halting⟩ := ih stops before
      exact halting.step step (last _ (by simp)) (here _ (by simp))

theorem progress {scene : Scene}
    (halting : Halting whole part acts passed halt index nudged back scene) :
    ∃ act following, Step scene act following := by
  obtain ⟨coordinator, hands, client⟩ := scene
  obtain rfl : client = .stopping index nudged := halting.client
  exact halting.sound.goes halting.known halting.leaving

end Halting

end Scene

end Reclaim
