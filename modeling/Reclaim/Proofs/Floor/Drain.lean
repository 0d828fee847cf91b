import Reclaim.Proofs.Floor.Script

/-! Draining a floor. Who drops a pool terminates the queue and waits for every worker of it. A worker that
leaves its loop has found the queue spent, so unless every worker of the pool has been killed by a task
nothing is left in the queue. -/

namespace Reclaim

namespace Hand

variable {runner : Runner} {desk next : Desk} {hand changed : Hand} {labor : Labor}
  {deal : Option (Deal Task)}

theorem Step.running (step : hand.Step runner desk labor deal next changed) :
    hand.state = .running := by
  cases step <;> rfl

/-- A worker that leaves its loop has found the queue spent. -/
theorem Step.finished {station : Station} (step : hand.Step station.runner desk labor deal next changed)
    (inside : station ≠ .outside) (finished : changed = .finished) : next.queue.Spent := by
  cases step with
  | leave told => exact TaskQueue.next_eq_finished.mp told
  | quit outside => cases station <;> simp [Station.runner] at inside outside
  | take | perform | finish | fail => cases finished

theorem goes (hand : Hand) (runner : Runner) (closed : desk.queue.terminated = true)
    (running : hand.state = .running) :
    ∃ labor deal next changed, hand.Step runner desk labor deal next changed := by
  cases hand with
  | free =>
      cases pending : desk.queue.pending with
      | nil => exact ⟨_, _, _, _, .leave (TaskQueue.next_eq_finished.mpr ⟨pending, closed⟩)⟩
      | cons task rest => exact ⟨_, _, _, _, .take (TaskQueue.next_of_pending pending)⟩
  | busy task left =>
      cases left with
      | cons duty left => exact ⟨_, _, _, _, .perform⟩
      | nil =>
          cases fails : task.fails with
          | false => exact ⟨_, _, _, _, .finish fails⟩
          | true => exact ⟨_, _, _, _, .fail fails⟩
  | finished | died => cases running

end Hand

namespace Squad

def joined (squad : Squad) : List Hand :=
  match squad.tenure with
  | .held => []
  | .leaving joined => squad.hands.take joined
  | .released => squad.hands

structure Sound (queue : TaskQueue Task) (squad : Squad) : Prop where
  closed : squad.station = .pool → squad.tenure ≠ .held → queue.terminated = true
  spent : squad.station ≠ .outside → .finished ∈ squad.hands → queue.Spent
  gone : ∀ hand ∈ squad.joined, hand.state ≠ .running
  bound : ∀ joined, squad.tenure = .leaving joined → joined ≤ squad.hands.length

variable {desk next : Desk} {squad changed : Squad} {stint : Stint} {deal : Option (Deal Task)}

theorem Sound.start (queue : TaskQueue Task) (station : Station) (threads : Nat) :
    Sound queue (.start station threads) where
  closed _ dropped := absurd rfl dropped
  spent _ member := by cases List.eq_of_mem_replicate member
  gone _ member := by cases member
  bound _ leaving := by cases leaving

theorem Sound.pass {queue after : TaskQueue Task} (sound : squad.Sound queue)
    (passes : queue.Passes deal after) : squad.Sound after where
  closed pool dropped := passes.terminated (sound.closed pool dropped)
  spent inside finished := by
    have spent := sound.spent inside finished
    rwa [passes.spent spent]
  gone := sound.gone
  bound := sound.bound

theorem Sound.labor {station : Station} {early late : List Hand} {hand changed : Hand} {tenure : Tenure}
    (gone : ∀ other ∈ joined ⟨station, early ++ hand :: late, tenure⟩, other.state ≠ .running)
    (running : hand.state = .running) :
    ∀ other ∈ joined ⟨station, early ++ changed :: late, tenure⟩, other.state ≠ .running := by
  cases tenure with
  | held => exact gone
  | released => exact absurd running (gone hand (by simp [joined]))
  | leaving count =>
      dsimp only [joined] at gone ⊢
      by_cases first : count ≤ early.length
      · rw [List.take_append_of_le_length first] at gone ⊢
        exact gone
      · have here : hand ∈ (early ++ hand :: late).take count := by
          obtain ⟨more, rfl⟩ := Nat.exists_eq_add_of_lt (Nat.lt_of_not_le first)
          simp [List.take_append, Nat.add_assoc]
        exact absurd running (gone hand here)

theorem Sound.step (sound : squad.Sound desk.queue)
    (step : squad.Step desk stint deal next changed) : changed.Sound next.queue := by
  obtain ⟨closed, spent, gone, bound⟩ := sound.pass step.frame.passes
  cases step with
  | @labor station early late hand changed tenure labor deal next step =>
      refine ⟨closed, fun inside finished => ?_, Sound.labor gone step.running, fun count leaving => ?_⟩
      · rcases List.mem_append.mp finished with before | after
        · exact spent inside (List.mem_append_left _ before)
        · rcases List.mem_cons.mp after with now | after
          · exact step.finished inside now.symm
          · exact spent inside (List.mem_append_right _ (List.mem_cons_of_mem _ after))
      · have before := bound count leaving
        rw [List.length_append, List.length_cons] at before ⊢
        exact before
  | dropPool =>
      refine ⟨fun _ _ => rfl, spent, nofun, fun count leaving => ?_⟩
      cases leaving
      exact Nat.zero_le _
  | dropSingle =>
      refine ⟨nofun, spent, nofun, fun count leaving => ?_⟩
      cases leaving
      exact Nat.zero_le _
  | @join station early late hand left =>
      refine ⟨fun pool _ => closed pool nofun, spent, fun other member => ?_, fun count leaving => ?_⟩
      · dsimp only [joined] at gone member
        rw [List.append_cons, ← List.length_singleton, ← List.length_append, List.take_left] at member
        rw [List.take_left] at gone
        rcases List.mem_append.mp member with before | now
        · exact gone other before
        · rw [List.mem_singleton.mp now]
          exact left
      · cases leaving
        simp
  | @release station hands =>
      refine ⟨fun pool _ => closed pool nofun, spent, fun other member => ?_, nofun⟩
      dsimp only [joined] at gone member
      rw [List.take_length] at gone
      exact gone other member

/-- A pool that is being dropped is never stuck: its next worker can be joined, or it can go on. -/
theorem Sound.goes (sound : squad.Sound desk.queue) {count : Nat} (leaving : squad.tenure = .leaving count)
    (closed : desk.queue.terminated = true) :
    ∃ stint deal next changed, squad.Step desk stint deal next changed := by
  obtain ⟨station, hands, tenure⟩ := squad
  obtain rfl : tenure = .leaving count := leaving
  have bound : count ≤ hands.length := sound.bound count rfl
  by_cases last : count = hands.length
  · subst last
    exact ⟨_, _, _, _, .release⟩
  · have there := List.getElem?_eq_getElem (Nat.lt_of_le_of_ne bound last)
    by_cases running : hands[count].state = .running
    · obtain ⟨labor, deal, next, changed, step⟩ := hands[count].goes station.runner closed running
      exact ⟨_, _, _, _, .labor_at count there step⟩
    · exact ⟨_, _, _, _, .join_at count there running⟩

theorem Sound.dropped (sound : squad.Sound desk.queue) (pool : squad.station = .pool)
    (going : squad.tenure ≠ .released) (closed : desk.queue.terminated = true) :
    ∃ stint deal next changed, squad.Step desk stint deal next changed := by
  obtain ⟨station, hands, tenure⟩ := squad
  obtain rfl : station = .pool := pool
  cases tenure with
  | held => exact ⟨_, _, _, _, .dropPool⟩
  | leaving count => exact sound.goes rfl closed
  | released => exact absurd rfl going

end Squad

def Episode.hire? : Episode → Option (Station × Nat)
  | .hire station threads => some (station, threads)
  | _ => none

theorem Squad.Step.size {desk next : Desk} {squad changed : Squad} {stint : Stint}
    {deal : Option (Deal Task)} (step : squad.Step desk stint deal next changed) :
    changed.station = squad.station ∧ changed.hands.length = squad.hands.length := by
  cases step with
  | labor => exact ⟨rfl, by simp⟩
  | dropPool | dropSingle | join | release => exact ⟨rfl, rfl⟩

namespace Floor

variable {desk : Desk} {floor next : Floor} {beats : List Beat} {beat : Beat}

def Sound (floor : Floor) : Prop := ∀ squad ∈ floor.squads, squad.Sound floor.desk.queue

theorem Sound.step (sound : floor.Sound) (step : Step floor beat next) : next.Sound := by
  have passed : ∀ squad ∈ floor.squads, squad.Sound next.desk.queue :=
    fun squad member => (sound squad member).pass step.frame.passes
  cases step with
  | append | terminate | note => exact passed
  | hire station threads =>
      intro squad member
      rcases List.mem_append.mp member with before | hired
      · exact passed squad before
      · rw [List.mem_singleton.mp hired]
        exact .start _ station threads
  | @squad desk next before after squad changed stint deal step =>
      intro other member
      rcases List.mem_append.mp member with early | late
      · exact passed other (List.mem_append_left _ early)
      · rcases List.mem_cons.mp late with here | late
        · rw [here]
          exact (sound squad (by simp)).step step
        · exact passed other (List.mem_append_right _ (List.mem_cons_of_mem _ late))

theorem Run.sound (run : Run (opened desk) beats floor) : floor.Sound :=
  run.keeps Floor.Sound (List.forall_mem_nil _) fun step kept => kept.step step

theorem Run.fifo (run : Run (opened desk) beats floor) (fresh : desk.queue = .fresh) :
    handed beats ++ floor.desk.queue.pending = accepted beats := by
  have fifo := run.queue.fifo
  rwa [fresh] at fifo

theorem Run.whole (run : Run (opened desk) beats floor) (fresh : desk.queue = .fresh) :
    (accepted beats).Perm
      (completed .all beats ++ (failed .all beats ++ (floor.busy .all ++ floor.desk.queue.pending))) := by
  have balanced := (run.balanced .all).append_right floor.desk.queue.pending
  rwa [← run.handed_eq, run.fifo fresh, List.append_assoc, List.append_assoc] at balanced

def hires (beats : List Beat) : List (Station × Nat) :=
  beats.filterMap fun beat => Episode.hire? beat.episode

theorem Run.hires (run : Run (opened desk) beats floor) :
    Floor.hires beats = floor.squads.map fun squad => (squad.station, squad.hands.length) := by
  induction run with
  | nil => rfl
  | @snoc beats beat floor next _ step ih =>
      have more : Floor.hires (beats ++ [beat]) =
          Floor.hires beats ++ (Episode.hire? beat.episode).toList := by
        cases hire : Episode.hire? beat.episode <;> simp [Floor.hires, hire]
      rw [more, ih]
      cases step with
      | append | terminate | note => exact List.append_nil _
      | hire station threads => simp [Episode.hire?, Squad.start]
      | squad step =>
          obtain ⟨station, size⟩ := step.size
          simp [Episode.hire?, station, size]

structure Emptied (beats : List Beat) (floor : Floor) (number : Nat) (squad : Squad) : Prop where
  gone : squad.crew.running = 0
  idle : floor.busy (.ofSquad number) = []
  ran : (taken (.ofSquad number) beats).Perm
    (completed (.ofSquad number) beats ++ failed (.ofSquad number) beats)
  spent : (failed (.ofSquad number) beats).length < squad.hands.length →
    floor.desk.queue.Spent ∧ handed beats = accepted beats

/-- A pool is dropped when all its workers have left their loops or died. Each of those that have not died
has found the queue spent. -/
theorem Run.emptied (run : Run (opened desk) beats floor) (fresh : desk.queue = .fresh) {number : Nat}
    {squad : Squad} (here : floor.squads[number]? = some squad)
    (inside : squad.station ≠ .outside) (released : squad.tenure = .released) :
    Emptied beats floor number squad := by
  have sound : squad.Sound floor.desk.queue := run.sound squad (List.mem_of_getElem? here)
  have gone : ∀ hand ∈ squad.hands, hand.state ≠ .running := by
    have joined : squad.joined = squad.hands := by rw [Squad.joined, released]
    exact joined ▸ sound.gone
  have idle : floor.busy (.ofSquad number) = [] := by
    rw [busy, handsOf_squad here]
    refine List.flatMap_eq_nil_iff.mpr fun hand member => ?_
    cases hand with
    | busy => exact absurd rfl (gone _ member)
    | free | finished | died => rfl
  refine ⟨?_, idle, ?_, ?_⟩
  · refine List.count_eq_zero.mpr fun running => ?_
    obtain ⟨hand, member, state⟩ := List.mem_map.mp running
    exact gone hand member state
  · have balanced := run.balanced (.ofSquad number)
    rwa [idle, List.append_nil] at balanced
  · intro few
    rw [run.deaths, handsOf_squad here] at few
    suffices spent : floor.desk.queue.Spent by
      have fifo := run.fifo fresh
      rw [spent.1, List.append_nil] at fifo
      exact ⟨spent, fifo⟩
    -- Who has not died has left its loop, and a worker leaves only a spent queue.
    by_contra left
    have lost : ∀ hand ∈ squad.hands, hand.state = .died := by
      intro hand member
      cases hand with
      | free | busy => exact absurd rfl (gone _ member)
      | finished => exact absurd (sound.spent inside member) left
      | died => rfl
    have all : Crew.dead (squad.hands.map Hand.state) = squad.hands.length := by
      rw [Crew.dead, List.count_eq_length.mpr, List.length_map]
      intro state member
      obtain ⟨hand, inside, rfl⟩ := List.mem_map.mp member
      exact (lost hand inside).symm
    omega

end Floor

end Reclaim
