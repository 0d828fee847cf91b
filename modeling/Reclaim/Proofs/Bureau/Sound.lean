import Reclaim.Proofs.Bureau.Basic
import Reclaim.Proofs.Floor.Drain

/-! The pool of a bureau. It is started once, it is taken once, and it is not taken before the queue has been
terminated. So a post that has seen to the pool finds it in place, or finds the queue terminated. -/

namespace Reclaim

theorem poolSizeFor_bounds (requested cores : Nat) :
    1 ≤ poolSizeFor requested cores ∧ poolSizeFor requested cores ≤ maxPoolSize := by
  unfold poolSizeFor maxPoolSize
  dsimp only
  omega

theorem Platform.setPoolSize_desk (platform : Platform) (requested : Nat) :
    (platform.setPoolSize requested).desk = platform.desk := by
  unfold setPoolSize
  split <;> rfl

theorem Platform.append_eq (platform : Platform) (task : Task) :
    (platform.append task).2 = { platform with desk := (platform.desk.append task).2 } := by
  unfold append
  split <;> simp [*]

namespace Bureau

variable {bureau next : Bureau} {made : List Beat}

def drops : Request → List Closing
  | .shutdown (.dropping number) => [.dropping number]
  | .shutdown (.returned true) => [.returned true]
  | _ => []

inductive Phase (size : Nat) (closed : Bool) :
    Option Crew → Bool → List Squad → List Closing → Prop
  | early : Phase size closed none false [] []
  | placed {hands : List Hand} (full : hands.length = size) :
      Phase size closed (some (hands.map Hand.state)) false [⟨.pool, hands, .held⟩] []
  | unneeded (ended : closed = true) : Phase size closed none true [] []
  | dropping {squad : Squad} (pool : squad.station = .pool) (going : squad.tenure ≠ .released)
      (ended : closed = true) : Phase size closed none true [squad] [.dropping 0]
  | dropped {squad : Squad} (pool : squad.station = .pool) (released : squad.tenure = .released)
      (ended : closed = true) : Phase size closed none true [squad] [.returned true]

def Serves (bureau : Bureau) : Request → Prop
  | .post _ .ready => bureau.platform.pool = none → bureau.platform.shutDown = true
  | .post _ _ => True
  | .shutdown _ => bureau.platform.desk.queue.terminated = true

structure Sound (bureau : Bureau) : Prop where
  size : 1 ≤ bureau.platform.poolSize ∧ bureau.platform.poolSize ≤ maxPoolSize
  phase : Phase bureau.platform.poolSize bureau.platform.desk.queue.terminated bureau.platform.pool
    bureau.platform.shutDown bureau.squads (bureau.calls.flatMap drops)
  calls : ∀ call ∈ bureau.calls, bureau.Serves call

theorem ensure_early (none : bureau.platform.pool = none) (live : bureau.platform.shutDown = false) :
    bureau.hiring = [⟨.hire .pool bureau.platform.poolSize, .none⟩] ∧
      bureau.ensure = ⟨{ bureau.platform with pool := some (.start bureau.platform.poolSize) },
        bureau.squads ++ [.start .pool bureau.platform.poolSize], bureau.calls⟩ := by
  simp [hiring, ensure, started, Platform.ensurePool, none, live, Crew.start]

theorem ensure_later (later : bureau.platform.pool = none → bureau.platform.shutDown = true) :
    bureau.hiring = [] ∧ bureau.ensure = bureau := by
  have same : bureau.platform.ensurePool = bureau.platform := by
    unfold Platform.ensurePool
    split
    · rfl
    · next none => rw [if_pos (later none)]
  have nobody : bureau.started = [] := by
    rw [started, same]
    cases bureau.platform.pool <;> rfl
  simp [hiring, ensure, same, nobody]

theorem ensure_floor {first : Floor} {beats : List Beat} (run : Floor.Run first beats bureau.floor) :
    Floor.Run first (beats ++ bureau.hiring) bureau.ensure.floor := by
  by_cases later : bureau.platform.pool = none → bureau.platform.shutDown = true
  · obtain ⟨nobody, same⟩ := ensure_later later
    rwa [nobody, same, List.append_nil]
  · obtain ⟨none, live⟩ := Classical.not_imp.mp later
    obtain ⟨hires, started⟩ := ensure_early none (by simpa using live)
    rw [hires, started]
    exact run.snoc (.hire .pool _)

/-- To the floor, what happens in a bureau is a run. -/
theorem Step.floor {first : Floor} {beats : List Beat} (run : Floor.Run first beats bureau.floor)
    (step : Step bureau made next) : Floor.Run first (beats ++ made) next.floor := by
  cases step with
  | @resize platform squads calls requested =>
      rw [List.append_nil, Bureau.floor, Platform.setPoolSize_desk]
      exact run
  | ensure => exact ensure_floor run
  | @announce platform squads calls task =>
      obtain ⟨keeps, same⟩ := Desk.announce_keeps platform.desk task .main
      exact run.snoc (.note keeps same)
  | ready => exact ensure_floor run
  | @append platform squads calls task who here =>
      rw [Bureau.floor, Platform.append_eq]
      exact run.snoc (.append task)
  | terminate => exact run.snoc .terminate
  | close =>
      rw [List.append_nil]
      exact run
  | part who here there owner step => exact run.snoc (.squad_at _ there step)
  | labor number there worker step => exact run.snoc (.squad_at _ there step)

theorem Run.floor {first : Bureau} {beats : List Beat} (run : Run first beats bureau) :
    Floor.Run first.floor beats bureau.floor := by
  induction run using Emits.induction with
  | nil => exact .nil
  | snoc _ step ih => exact step.floor ih

/-! Each section keeps the pool where it is, or brings it on its way. -/

namespace Phase

variable {size : Nat} {closed shutDown : Bool} {pool : Option Crew} {squads : List Squad}
  {drops : List Closing} {squad : Squad}

theorem few (phase : Phase size closed pool shutDown squads drops) : squads.length ≤ 1 := by
  cases phase <;> simp

theorem alone {number : Nat} (phase : Phase size closed pool shutDown squads drops)
    (there : squads[number]? = some squad) : number = 0 ∧ squads = [squad] := by
  match squads, number, phase.few, there with
  | [_], 0, _, rfl => exact ⟨rfl, rfl⟩

theorem kept (phase : Phase size closed pool shutDown squads drops) (member : squad ∈ squads)
    (leaves : pool = none ∨ squad.tenure ≠ .held) : closed = true := by
  cases phase with
  | early => cases member
  | placed =>
      rcases leaves with gone | dropped
      · cases gone
      · rw [List.mem_singleton.mp member] at dropped
        exact absurd rfl dropped
  | unneeded ended | dropping _ _ ended | dropped _ _ ended => exact ended

theorem going {number : Nat} (phase : Phase size closed pool shutDown squads drops)
    (member : .dropping number ∈ drops) : ∃ squad : Squad, squads[number]? = some squad ∧
      squad.station = .pool ∧ squad.tenure ≠ .released := by
  cases phase with
  | early | placed | unneeded => cases member
  | dropping pool going ended =>
      cases List.mem_singleton.mp member
      exact ⟨_, rfl, pool, going⟩
  | dropped => cases List.mem_singleton.mp member

theorem gone (phase : Phase size closed pool shutDown squads drops)
    (member : .returned true ∈ drops) : ∃ squad : Squad, squads = [squad] ∧
      squad.station = .pool ∧ squad.tenure = .released := by
  cases phase with
  | early | placed | unneeded => cases member
  | dropping => cases List.mem_singleton.mp member
  | dropped pool released => exact ⟨_, rfl, pool, released⟩

theorem resize (phase : Phase size closed none shutDown squads drops) {other : Nat} :
    Phase other closed none shutDown squads drops := by
  cases phase with
  | early => exact .early
  | unneeded ended => exact .unneeded ended
  | dropping pool going ended => exact .dropping pool going ended
  | dropped pool released ended => exact .dropped pool released ended

theorem pass (phase : Phase size closed pool shutDown squads drops) {after : Bool}
    (lasting : closed = true → after = true) : Phase size after pool shutDown squads drops := by
  cases phase with
  | early => exact .early
  | placed full => exact .placed full
  | unneeded ended => exact .unneeded (lasting ended)
  | dropping pool going ended => exact .dropping pool going (lasting ended)
  | dropped pool released ended => exact .dropped pool released (lasting ended)

theorem start (phase : Phase size closed none false squads drops) :
    Phase size closed (some (.start size)) false (squads ++ [.start .pool size]) drops := by
  cases phase
  have placed := @Phase.placed size closed (List.replicate size .free) List.length_replicate
  rwa [List.map_replicate] at placed

theorem close {front back : List Closing}
    (phase : Phase size closed pool shutDown squads (front ++ back)) (ended : closed = true) :
    Phase size closed none true squads
      (front ++ Bureau.drops (.shutdown (.taken squads pool)) ++ back) := by
  have nothing (squads : List Squad) : Bureau.drops (.shutdown (.taken squads none)) = [] := rfl
  generalize same : front ++ back = drops at phase
  cases phase with
  | placed =>
      obtain ⟨rfl, rfl⟩ := List.append_eq_nil_iff.mp same
      exact .dropping rfl nofun ended
  | early | unneeded =>
      obtain ⟨rfl, rfl⟩ := List.append_eq_nil_iff.mp same
      exact .unneeded ended
  | dropping pool going ended =>
      rw [nothing, List.append_nil, same]
      exact .dropping pool going ended
  | dropped pool released ended =>
      rw [nothing, List.append_nil, same]
      exact .dropped pool released ended

section

variable {desk next : Desk} {changed : Squad} {stint : Stint} {deal : Option (Deal Task)} {number : Nat}

theorem labor (phase : Phase size desk.queue.terminated pool shutDown squads drops)
    (there : squads[number]? = some squad) (worker : stint.isLabor = true)
    (step : squad.Step desk stint deal next changed) :
    Phase size next.queue.terminated (pool.map fun _ => changed.crew) shutDown
      (squads.set number changed) drops := by
  obtain ⟨rfl, rfl⟩ := phase.alone there
  have phase := phase.pass step.frame.passes.terminated
  obtain ⟨_, length⟩ := step.size
  cases step with
  | labor =>
      cases phase with
      | placed full => exact .placed (length.trans full)
      | dropping pool going ended => exact .dropping pool going ended
      | dropped pool released ended => exact .dropped pool released ended
  | dropPool | dropSingle | join | release => cases worker

theorem part {front back : List Closing} (phase : Phase size desk.queue.terminated pool shutDown squads
      (front ++ .dropping number :: back))
    (there : squads[number]? = some squad) (owner : stint.isLabor = false)
    (step : squad.Step desk stint deal next changed) :
    Phase size next.queue.terminated (pool.map fun _ => changed.crew) shutDown
      (squads.set number changed)
      (front ++ Bureau.drops (.shutdown (.parted number stint)) ++ back) := by
  obtain ⟨rfl, rfl⟩ := phase.alone there
  have phase := phase.pass step.frame.passes.terminated
  generalize same : front ++ .dropping 0 :: back = drops at phase
  cases phase with
  | placed => simp at same
  | dropping pool going ended =>
      obtain ⟨rfl, rfl⟩ : front = [] ∧ back = [] := by simpa [List.append_eq_singleton_iff] using same
      cases step with
      | labor => cases owner
      | release => exact .dropped pool rfl ended
      | dropPool | dropSingle | join => exact .dropping pool nofun ended
  | dropped => simp [List.append_eq_singleton_iff] at same

end

end Phase

structure Advances (bureau next : Bureau) : Prop where
  ready : (bureau.platform.pool = none → bureau.platform.shutDown = true) →
    next.platform.pool = none → next.platform.shutDown = true
  closed : bureau.platform.desk.queue.terminated = true → next.platform.desk.queue.terminated = true
  shut : bureau.platform.shutDown = true → next.platform.shutDown = true

theorem Serves.later {call : Request} (serves : bureau.Serves call) (advances : bureau.Advances next) :
    next.Serves call := by
  match call, serves with
  | .post _ .ready, ready => exact advances.ready ready
  | .post _ .announced, _ | .post _ (.replied _), _ => exact trivial
  | .shutdown _, closed => exact advances.closed closed

/-- Who sees to the pool finds it in place from then on, until it is taken. -/
theorem Sound.ensure (sound : bureau.Sound) : bureau.ensure.Sound ∧ bureau.Advances bureau.ensure ∧
    (bureau.ensure.platform.pool = none → bureau.ensure.platform.shutDown = true) := by
  by_cases later : bureau.platform.pool = none → bureau.platform.shutDown = true
  · rw [(ensure_later later).2]
    exact ⟨sound, ⟨id, id, id⟩, later⟩
  · obtain ⟨none, live⟩ := Classical.not_imp.mp later
    have live : bureau.platform.shutDown = false := by simpa using live
    have advances : bureau.Advances bureau.ensure := by
      rw [(ensure_early none live).2]
      exact ⟨nofun, id, id⟩
    refine ⟨⟨?_, ?_, fun call member => (sound.calls call member).later advances⟩, advances, ?_⟩
    all_goals rw [(ensure_early none live).2]
    · exact sound.size
    · have phase := sound.phase
      rw [none, live] at phase
      dsimp only
      rw [live]
      exact phase.start
    · nofun

/-! A call that goes on, among all calls. -/

section

variable {calls : List Request} {who : Nat} {old changed fresh : Request}

theorem drops_set (here : calls[who]? = some old) : ∃ front back,
    calls.flatMap drops = front ++ drops old ++ back ∧
      ∀ changed, (calls.set who changed).flatMap drops = front ++ drops changed ++ back := by
  obtain ⟨early, late, rfl, rfl, replaced⟩ := getElem?_split here
  refine ⟨early.flatMap drops, late.flatMap drops, by simp, fun changed => ?_⟩
  rw [replaced changed]
  simp

theorem drops_same (here : calls[who]? = some old) (same : drops changed = drops old) :
    (calls.set who changed).flatMap drops = calls.flatMap drops := by
  obtain ⟨front, back, before, after⟩ := drops_set here
  rw [after, before, same]

theorem drops_snoc (nothing : drops fresh = []) :
    (calls ++ [fresh]).flatMap drops = calls.flatMap drops := by
  rw [List.flatMap_append, List.flatMap_singleton, nothing, List.append_nil]

theorem serves_set (serves : bureau.Serves changed) :
    ∀ call ∈ calls.set who changed, call ∈ calls ∨ bureau.Serves call := by
  intro call member
  rcases List.mem_or_eq_of_mem_set member with before | now
  · exact .inl before
  · exact .inr (now ▸ serves)

theorem serves_snoc (serves : bureau.Serves fresh) :
    ∀ call ∈ calls ++ [fresh], call ∈ calls ∨ bureau.Serves call := by
  intro call member
  rcases List.mem_append.mp member with before | now
  · exact .inl before
  · exact .inr (List.mem_singleton.mp now ▸ serves)

end

theorem Advances.squad {platform : Platform} {squads after : List Squad} {calls later : List Request}
    {squad changed : Squad} {stint : Stint} {deal : Option (Deal Task)} {next : Desk}
    (step : squad.Step platform.desk stint deal next changed) :
    Advances ⟨platform, squads, calls⟩ ⟨worked platform next changed, after, later⟩ :=
  ⟨fun ready none => ready (Option.map_eq_none_iff.mp none), step.frame.passes.terminated, id⟩

/-- A section leaves a sound bureau if it brings the pool on its way and serves the call that it is of. -/
theorem Sound.advance (sound : bureau.Sound) (advances : bureau.Advances next)
    (size : next.platform.poolSize = bureau.platform.poolSize)
    {dropped : List Closing} (phase : Phase next.platform.poolSize
      next.platform.desk.queue.terminated next.platform.pool next.platform.shutDown next.squads dropped)
    (calls : next.calls.flatMap drops = dropped)
    (fit : ∀ call ∈ next.calls, call ∈ bureau.calls ∨ next.Serves call) : next.Sound := by
  refine ⟨size ▸ sound.size, calls ▸ phase, fun call member => ?_⟩
  rcases fit call member with before | now
  · exact (sound.calls call before).later advances
  · exact now

-- A section changes what it has locked and the call that it is of; the phase says where the pool is then.
theorem Step.sound (sound : bureau.Sound) (step : Step bureau made next) :
    next.Sound ∧ bureau.Advances next := by
  cases step with
  | @resize platform squads calls requested =>
      obtain ⟨desk, cores, size, pool, shutDown⟩ := platform
      cases pool with
      | some crew => exact ⟨sound, ⟨id, id, id⟩⟩
      | none =>
      exact ⟨⟨poolSizeFor_bounds requested cores, sound.phase.resize, sound.calls⟩, ⟨id, id, id⟩⟩
  | ensure => exact ⟨sound.ensure.1, sound.ensure.2.1⟩
  | @announce platform squads calls task =>
      have lasting : platform.desk.queue.terminated = true →
          (platform.desk.announce task .main).queue.terminated = true := by
        rw [(Desk.announce_keeps platform.desk task .main).2]
        exact id
      have advances : Advances ⟨platform, squads, calls⟩
          ⟨{ platform with desk := platform.desk.announce task .main }, squads,
            calls ++ [.post task .announced]⟩ := ⟨id, lasting, id⟩
      exact ⟨sound.advance advances rfl (sound.phase.pass lasting) (drops_snoc rfl)
        (serves_snoc trivial), advances⟩
  | @ready _ task who here =>
      obtain ⟨seen, advances, ready⟩ := sound.ensure
      exact ⟨seen.advance ⟨id, id, id⟩ rfl seen.phase (drops_same here rfl) (serves_set ready),
        ⟨advances.ready, advances.closed, advances.shut⟩⟩
  | @append platform squads calls task who here =>
      rw [Platform.append_eq]
      have lasting : platform.desk.queue.terminated = true →
          (platform.desk.append task).2.queue.terminated = true :=
        fun closed => (Desk.append_spec platform.desk task).2.terminated.mpr (.inl closed)
      have advances : Advances ⟨platform, squads, calls⟩
          ⟨{ platform with desk := (platform.desk.append task).2 }, squads,
            calls.set who (.post task (.replied (platform.desk.queue.answer task)))⟩ :=
        ⟨id, lasting, id⟩
      exact ⟨sound.advance advances rfl (sound.phase.pass lasting) (drops_same here rfl)
        (serves_set trivial), advances⟩
  | @terminate platform squads calls =>
      have advances : Advances ⟨platform, squads, calls⟩
          ⟨platform.terminate, squads, calls ++ [.shutdown .terminated]⟩ :=
        ⟨id, fun _ => rfl, id⟩
      exact ⟨sound.advance advances rfl (sound.phase.pass fun _ => rfl) (drops_snoc rfl)
        (serves_snoc rfl), advances⟩
  | @close platform squads calls who here =>
      have closed := sound.calls _ (List.mem_of_getElem? here)
      have advances : Advances ⟨platform, squads, calls⟩
          ⟨platform.close.2, squads, calls.set who (.shutdown (.taken squads platform.close.1))⟩ :=
        ⟨fun _ _ => rfl, id, fun _ => rfl⟩
      obtain ⟨front, back, before, after⟩ := drops_set here
      have phase := sound.phase
      dsimp only at phase
      rw [before, show drops (.shutdown .terminated) = [] from rfl, List.append_nil] at phase
      exact ⟨sound.advance advances rfl (phase.close closed) (after _) (serves_set closed), advances⟩
  | @part platform squads calls squad changed stint deal next number who here there owner step =>
      have closed := sound.calls _ (List.mem_of_getElem? here)
      have advances : Advances ⟨platform, squads, calls⟩ ⟨worked platform next changed,
          squads.set number changed, calls.set who (.shutdown (.parted number stint))⟩ :=
        .squad step
      obtain ⟨front, back, before, after⟩ := drops_set here
      have phase := sound.phase
      dsimp only at phase
      rw [before, show drops (.shutdown (.dropping number)) = [.dropping number] from rfl,
        List.append_assoc, List.singleton_append] at phase
      exact ⟨sound.advance advances rfl (phase.part there owner step) (after _)
        (serves_set (advances.closed closed)), advances⟩
  | @labor platform squads calls squad changed stint deal next number there worker step =>
      have advances : Advances ⟨platform, squads, calls⟩
          ⟨worked platform next changed, squads.set number changed, calls⟩ := .squad step
      exact ⟨sound.advance advances rfl (sound.phase.labor there worker step) rfl fun _ => .inl,
        advances⟩

theorem Run.sound {setting : PoolSetting} {cores : Nat} {beats : List Beat}
    (run : Run (opened setting cores) beats bureau) : bureau.Sound :=
  run.keeps Sound ⟨poolSizeFor_bounds setting.threads cores, .early, nofun⟩
    fun step sound => (step.sound sound).1

end Bureau

end Reclaim
