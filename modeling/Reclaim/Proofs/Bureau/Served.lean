import Reclaim.Proofs.Bureau.Sound

/-! What clients can count on. Whatever they call and in whatever order, a background task that is taken in
finds the pool in place, and the shutdown that takes the pool leaves no task behind unless each worker has
been killed by one. -/

namespace Reclaim

theorem Floor.Step.live {floor next : Floor} {beat : Beat} (step : Floor.Step floor beat next)
    (some : Floor.accepted [beat] ≠ []) : floor.desk.queue.terminated = false := by
  have passes := step.frame.passes
  cases made : beat.deal with
  | none => simp [Floor.accepted, Floor.deals, made] at some
  | some deal =>
      rw [made] at passes
      exact TaskQueue.Step.live passes (by simpa [Floor.accepted, Floor.deals, made] using some)

theorem Floor.handsOf_alone {floor : Floor} {squad : Squad} (alone : floor.squads = [squad]) :
    floor.handsOf .all = squad.hands := by
  simp only [handsOf, alone, Squad.handsOf, Selection.all, List.zipIdx_singleton, List.flatMap_cons,
    List.flatMap_nil, List.append_nil, if_true, ← List.map_eq_flatMap, List.zipIdx_map_fst]

namespace Bureau

variable {setting : PoolSetting} {cores : Nat} {bureau next last : Bureau} {beats made more : List Beat}

def Staffed (bureau : Bureau) : Prop :=
  ∃ hands, bureau.squads = [⟨.pool, hands, .held⟩] ∧
    bureau.platform.pool = some (hands.map Hand.state) ∧ hands.length = bureau.platform.poolSize ∧
    1 ≤ bureau.platform.poolSize ∧ bureau.platform.poolSize ≤ maxPoolSize

theorem Sound.staffed (sound : bureau.Sound) (live : bureau.platform.desk.queue.terminated = false)
    (needed : bureau.squads = [] → bureau.platform.pool = none → bureau.platform.shutDown = true) :
    bureau.Staffed := by
  obtain ⟨⟨desk, cores, size, pool, shutDown⟩, squads, calls⟩ := bureau
  obtain ⟨size, phase, _⟩ := sound
  dsimp only at live needed phase
  generalize calls.flatMap drops = dropped at phase
  cases phase with
  | early => cases needed rfl rfl
  | placed full => exact ⟨_, rfl, rfl, full, size⟩
  | unneeded ended | dropping _ _ ended | dropped _ _ ended => simp [live] at ended

theorem hiring_accepted : Floor.accepted bureau.hiring = [] := by
  simp [hiring, Floor.accepted, Floor.deals, List.filterMap_map]

theorem Step.live (step : Step bureau made next) (some : Floor.accepted made ≠ []) :
    bureau.platform.desk.queue.terminated = false := by
  cases step with
  | @append platform squads calls task who here =>
      have step : Floor.Step ⟨platform.desk, squads⟩ _ _ := .append task
      exact step.live some
  | part who here there owner step => exact (Floor.Step.squad_at _ there step).live some
  | labor number there worker step => exact (Floor.Step.squad_at _ there step).live some
  | ensure | ready => exact absurd hiring_accepted some
  | resize | announce | terminate | close => exact absurd rfl some

/-- A task is taken in from a client that has seen to the pool, or from a worker of it. -/
theorem Step.staffed (sound : bureau.Sound) (step : Step bureau made next)
    (some : Floor.accepted made ≠ []) : bureau.Staffed := by
  have live := step.live some
  cases step with
  | append who here => exact sound.staffed live fun _ => sound.calls _ (List.mem_of_getElem? here)
  | part who here there =>
      -- Whoever works or drops here belongs to a pool, so one has been started.
      refine sound.staffed live fun empty => ?_
      obtain rfl := empty
      cases there
  | labor number there =>
      refine sound.staffed live fun empty => ?_
      obtain rfl := empty
      cases there
  | ensure | ready => exact absurd hiring_accepted some
  | resize | announce | terminate | close => exact absurd rfl some

theorem Run.later (run : Run bureau more last) (sound : bureau.Sound) :
    last.Sound ∧ bureau.Advances last := by
  refine run.keeps (fun now => now.Sound ∧ bureau.Advances now) ⟨sound, ⟨id, id, id⟩⟩ ?_
  intro now made next step ⟨sound, before⟩
  obtain ⟨sound, here⟩ := step.sound sound
  exact ⟨sound, here.ready ∘ before.ready, here.closed ∘ before.closed, here.shut ∘ before.shut⟩

theorem Step.shut (shut : bureau.platform.shutDown = true) (step : Step bureau made next) :
    Floor.hires made = [] := by
  have nobody : Floor.hires bureau.hiring = [] := by
    rw [(ensure_later fun _ => shut).1]
    rfl
  cases step with
  | ensure | ready => exact nobody
  | resize | announce | append | terminate | close | part | labor => rfl

theorem Run.shut (run : Run bureau more last) (sound : bureau.Sound)
    (shut : bureau.platform.shutDown = true) : Floor.hires more = [] := by
  induction run using Emits.induction with
  | nil => rfl
  | @snoc beats made bureau next earlier step ih =>
      have now := step.shut ((Run.later earlier sound).2.shut shut)
      unfold Floor.hires at now ih ⊢
      rw [List.filterMap_append, ih, now]
      rfl

def Refused : Request → Prop
  | .post task (.replied answer) => answer = .error task
  | _ => True

/-- After the queue has been terminated, whoever comes has its own task back. -/
theorem Step.late (closed : bureau.platform.desk.queue.terminated = true)
    (step : Step bureau made next) {count : Nat}
    (refused : ∀ call ∈ bureau.calls.drop count, Refused call) :
    ∀ call ∈ next.calls.drop count, Refused call := by
  have changed {who : Nat} {fresh : Request} (back : Refused fresh) :
      ∀ call ∈ (bureau.calls.set who fresh).drop count, Refused call := by
    intro call member
    rw [List.drop_set] at member
    split at member
    · exact refused call member
    · rcases List.mem_or_eq_of_mem_set member with before | now
      · exact refused call before
      · exact now ▸ back
  have come {fresh : Request} (back : Refused fresh) :
      ∀ call ∈ (bureau.calls ++ [fresh]).drop count, Refused call := by
    intro call member
    rw [List.drop_append] at member
    rcases List.mem_append.mp member with before | now
    · exact refused call before
    · rw [List.mem_singleton.mp (List.mem_of_mem_drop now)]
      exact back
  cases step with
  | resize | ensure | labor => exact refused
  | announce | terminate => exact come trivial
  | ready | close | part => exact changed trivial
  | append => exact changed (TaskQueue.answer_closed closed _)

theorem Run.late (run : Run bureau more last) (sound : bureau.Sound)
    (closed : bureau.platform.desk.queue.terminated = true) :
    Floor.accepted more = [] ∧ ∀ call ∈ last.calls.drop bureau.calls.length, Refused call := by
  induction run using Emits.induction with
  | nil =>
      rw [List.drop_length]
      exact ⟨rfl, nofun⟩
  | @snoc beats made now next earlier step ih =>
      have closed := (Run.later earlier sound).2.closed closed
      have nothing : Floor.accepted made = [] := by
        by_contra some
        simp [step.live some] at closed
      refine ⟨?_, step.late closed ih.2⟩
      calc Floor.accepted (beats ++ made)
          = Floor.accepted beats ++ Floor.accepted made := by simp [Floor.accepted, Floor.deals]
        _ = [] := by rw [ih.1, nothing, List.append_nil]

theorem answers (closed : bureau.platform.desk.queue.terminated = true) {who : Nat} {task : Task}
    (here : bureau.calls[who]? = some (.post task .ready)) : ∃ made next, Step bureau made next ∧
      next.calls[who]? = some (.post task (.replied (.error task))) := by
  obtain ⟨platform, squads, calls⟩ := bureau
  refine ⟨_, _, .append who here, ?_⟩
  rw [List.getElem?_set_self (List.getElem?_eq_some_iff.mp here).1, TaskQueue.answer_closed closed]

theorem Sound.prompt (sound : bureau.Sound) (closed : bureau.platform.desk.queue.terminated = true)
    {who : Nat} {task : Task} (here : bureau.calls[who]? = some (.post task .announced) ∨
      bureau.calls[who]? = some (.post task .ready)) :
    ∃ more last, Run bureau more last ∧
      last.calls[who]? = some (.post task (.replied (.error task))) := by
  rcases here with announced | ready
  · have step : Step bureau _ _ := .ready who announced
    have seen := List.getElem?_set_self (a := Request.post task .ready)
      (List.getElem?_eq_some_iff.mp announced).1
    have closed : ({ bureau.ensure with
        calls := bureau.calls.set who (.post task .ready) } : Bureau).platform.desk.queue.terminated =
          true := sound.ensure.2.1.closed closed
    obtain ⟨made, last, answer, back⟩ := answers closed seen
    exact ⟨_, last, .snoc (.snoc .nil step) answer, back⟩
  · obtain ⟨made, last, answer, back⟩ := answers closed ready
    exact ⟨_, last, .snoc .nil answer, back⟩

/-- The shutdown that drops the pool is not stuck either: it goes on, or a worker that it waits for does. -/
theorem Run.goes (run : Run (opened setting cores) beats bureau) {who number : Nat}
    (here : bureau.calls[who]? = some (.shutdown (.dropping number))) :
    ∃ stint deal next, Step bureau [⟨.squad number .pool stint, deal⟩] next := by
  have floor : Floor.Run (.opened (.fresh .platform)) beats bureau.floor := run.floor
  have member := List.mem_of_getElem? here
  obtain ⟨squad, there, pool, going⟩ :=
    run.sound.phase.going (List.mem_flatMap.mpr ⟨_, member, List.mem_singleton_self _⟩)
  have sound : squad.Sound bureau.platform.desk.queue := floor.sound squad (List.mem_of_getElem? there)
  obtain ⟨stint, deal, next, changed, step⟩ := sound.dropped pool going (run.sound.calls _ member)
  obtain ⟨platform, squads, calls⟩ := bureau
  rw [← pool]
  by_cases worker : stint.isLabor = true
  · exact ⟨stint, deal, _, .labor number there worker step⟩
  · exact ⟨stint, deal, _, .part who here there (by simpa using worker) step⟩

structure Served (beats : List Beat) (bureau : Bureau) : Prop where
  single : (Floor.hires beats).length ≤ 1
  shut : bureau.platform.shutDown = true →
    ∀ more last, Run bureau more last → Floor.hires more = []
  placed : ∀ made next, Step bureau made next → Floor.accepted made ≠ [] → bureau.Staffed
  kept : ∀ squad ∈ bureau.squads, bureau.platform.pool = none ∨ squad.tenure ≠ .held →
    bureau.platform.desk.queue.terminated = true
  order : Floor.taken .all beats ++ bureau.platform.desk.queue.pending = Floor.accepted beats
  scripts : ∀ (number place : Nat) (squad : Squad) (hand : Hand),
    bureau.squads[number]? = some squad → squad.hands[place]? = some hand →
      hand.Told .platform (Floor.laborsOf (.ofHand number place) beats)
  returned : .shutdown (.returned true) ∈ bureau.calls → ∃ squad, bureau.squads = [squad] ∧
    squad.crew.running = 0 ∧ ((Floor.failed .all beats).length < squad.hands.length →
      bureau.platform.desk.queue.pending = [] ∧
      (Floor.accepted beats).Perm (Floor.completed .all beats ++ Floor.failed .all beats))
  late : ∀ closing, .shutdown closing ∈ bureau.calls → ∀ more last, Run bureau more last →
    Floor.accepted more = [] ∧ ∀ call ∈ last.calls.drop bureau.calls.length, Refused call
  prompt : ∀ closing, .shutdown closing ∈ bureau.calls → ∀ (who : Nat) (task : Task),
    bureau.calls[who]? = some (.post task .announced) ∨
      bureau.calls[who]? = some (.post task .ready) →
    ∃ more last, Run bureau more last ∧
      last.calls[who]? = some (.post task (.replied (.error task)))
  goes : ∀ who number : Nat, bureau.calls[who]? = some (.shutdown (.dropping number)) →
    ∃ stint deal next, Step bureau [⟨.squad number .pool stint, deal⟩] next

theorem Run.returned (run : Run (opened setting cores) beats bureau)
    (member : .shutdown (.returned true) ∈ bureau.calls) : ∃ squad, bureau.squads = [squad] ∧
    squad.crew.running = 0 ∧ ((Floor.failed .all beats).length < squad.hands.length →
      bureau.platform.desk.queue.pending = [] ∧
      (Floor.accepted beats).Perm (Floor.completed .all beats ++ Floor.failed .all beats)) := by
  have floor : Floor.Run (.opened (.fresh .platform)) beats bureau.floor := run.floor
  obtain ⟨squad, alone, pool, released⟩ :=
    run.sound.phase.gone (List.mem_flatMap.mpr ⟨_, member, List.mem_singleton_self _⟩)
  have all : bureau.floor.handsOf .all = squad.hands := Floor.handsOf_alone alone
  have here : bureau.floor.squads[0]? = some squad := by
    rw [show bureau.floor.squads = [squad] from alone]
    rfl
  have inside : squad.station ≠ .outside := by
    rw [pool]
    nofun
  have emptied := floor.emptied rfl here inside released
  refine ⟨squad, alone, emptied.gone, fun few => ?_⟩
  have same : (Floor.failed .all beats).length = (Floor.failed (.ofSquad 0) beats).length := by
    rw [floor.deaths, floor.deaths, all, Floor.handsOf_squad here]
  obtain ⟨spent, _⟩ := emptied.spent (same ▸ few)
  have idle : bureau.floor.busy .all = [] := by
    rw [Floor.busy, all, ← Floor.handsOf_squad here]
    exact emptied.idle
  have whole := floor.whole rfl
  rw [idle, spent.1, List.append_nil, List.append_nil] at whole
  exact ⟨spent.1, whole⟩

/-- One pool is started at most, and none once the platform is shut down. When the shutdown that has
taken the pool returns, every task that was taken in has been run, unless all workers have died. -/
theorem Run.served (run : Run (opened setting cores) beats bureau) : Served beats bureau := by
  have floor : Floor.Run (.opened (.fresh .platform)) beats bureau.floor := run.floor
  have sound := run.sound
  constructor
  · rw [floor.hires, List.length_map]
    exact sound.phase.few
  · intro shut more last later
    exact later.shut sound shut
  · intro made next step some
    exact step.staffed sound some
  · intro squad member leaves
    exact sound.phase.kept member leaves
  · rw [← floor.handed_eq]
    exact floor.fifo rfl
  · intro number place squad hand here there
    exact floor.told here there
  · exact run.returned
  · intro closing member more last later
    exact later.late sound (sound.calls _ member)
  · intro closing member who task here
    exact sound.prompt (sound.calls _ member) here
  · intro who number here
    exact run.goes here

def sampleCalls : List Beat :=
  -- Two clients post while two others shut the platform down. The first task is taken in, kills
  -- a worker and is run all the same; the second one comes back.
  let first : Task := .make 1 [] [] .short false true
  let second : Task := .make 2 [] [] .long false false
  [⟨.note, none⟩, ⟨.note, none⟩, ⟨.hire .pool 2, none⟩,
    ⟨.append first, some (.append first (.ok ()))⟩, ⟨.terminate, some .terminate⟩,
    ⟨.append second, some (.append second (.error second))⟩, ⟨.terminate, some .terminate⟩,
    ⟨.squad 0 .pool (.labor 0 (.take first)), some (.next (some first))⟩,
    ⟨.squad 0 .pool .drop, some .terminate⟩, ⟨.squad 0 .pool (.labor 0 (.fail first)), none⟩,
    ⟨.squad 0 .pool (.labor 1 .leave), some (.next none)⟩,
    ⟨.squad 0 .pool (.join .died), none⟩, ⟨.squad 0 .pool (.join .finished), none⟩,
    ⟨.squad 0 .pool .release, none⟩]

theorem sampleCalls_served : ∃ bureau, Run (opened ⟨2⟩ 8) sampleCalls bureau ∧
    Served sampleCalls bureau ∧ .shutdown (.returned true) ∈ bureau.calls ∧
    (Floor.failed .all sampleCalls).length = 1 := by
  let first : Task := .make 1 [] [] .short false true
  let second : Task := .make 2 [] [] .long false false
  let desk : Desk := ((Desk.fresh .platform).announce first .main).announce second .main
  have announced : Run (opened ⟨2⟩ 8) _ _ := .snoc .nil (.announce first)
  have both : Run _ _ _ := .snoc announced (.announce second)
  have ready : Run (opened ⟨2⟩ 8) (sampleCalls.take 3)
      ⟨⟨desk, 8, 2, some [.running, .running], false⟩, [.start .pool 2],
        [.post first .ready, .post second .announced]⟩ := .snoc both (.ready 0 rfl)
  have brought : Run (opened ⟨2⟩ 8) (sampleCalls.take 4)
      ⟨⟨{ desk with queue := ⟨[first], false⟩ }, 8, 2, some [.running, .running], false⟩,
        [.start .pool 2], [.post first (.replied (.ok ())), .post second .announced]⟩ :=
    .snoc ready (.append 0 rfl)
  have ended : Run _ _ _ := .snoc brought .terminate
  have late : Run (opened ⟨2⟩ 8) (sampleCalls.take 5)
      ⟨⟨{ desk with queue := ⟨[first], true⟩ }, 8, 2, some [.running, .running], false⟩,
        [.start .pool 2],
        [.post first (.replied (.ok ())), .post second .ready, .shutdown .terminated]⟩ :=
    .snoc ended (.ready 1 rfl)
  have refused : Run (opened ⟨2⟩ 8) (sampleCalls.take 6)
      ⟨⟨{ desk with queue := ⟨[first], true⟩ }, 8, 2, some [.running, .running], false⟩,
        [.start .pool 2],
        [.post first (.replied (.ok ())), .post second (.replied (.error second)),
          .shutdown .terminated]⟩ := .snoc late (.append 1 rfl)
  have closed : Run _ _ _ := .snoc refused (.close 2 rfl)
  have again : Run _ _ _ := .snoc closed .terminate
  have nothing : Run (opened ⟨2⟩ 8) (sampleCalls.take 7)
      ⟨⟨{ desk with queue := ⟨[first], true⟩ }, 8, 2, none, true⟩, [.start .pool 2],
        [.post first (.replied (.ok ())), .post second (.replied (.error second)),
          .shutdown (.dropping 0), .shutdown (.returned false)]⟩ := .snoc again (.close 3 rfl)
  have taken : Run _ _ _ := .snoc nothing (.labor 0 rfl rfl (.labor_at 0 rfl (.take rfl)))
  have dropped : Run _ _ _ := .snoc taken (.part 2 rfl rfl rfl .dropPool)
  have failed : Run _ _ _ := .snoc dropped (.labor 0 rfl rfl (.labor_at 0 rfl (.fail rfl)))
  have left : Run _ _ _ := .snoc failed (.labor 0 rfl rfl (.labor_at 1 rfl (.leave rfl)))
  have buried : Run _ _ _ := .snoc left (.part 2 rfl rfl rfl (.join_at 0 rfl (by decide)))
  have joined : Run _ _ _ := .snoc buried (.part 2 rfl rfl rfl (.join_at 1 rfl (by decide)))
  have run : Run (opened ⟨2⟩ 8) sampleCalls _ := .snoc joined (.part 2 rfl rfl rfl .release)
  exact ⟨_, run, run.served, List.mem_of_getElem? (i := 2) rfl, rfl⟩

end Bureau

end Reclaim
