import Reclaim.Proofs.Coordinator.Rounds
import Reclaim.Proofs.Items

/-! The team of a coordinator and its books. Every sweeper keeps its handshake; what has been merged
and what is still due stay within the pages of the round, so that no wait overflows the books. -/

namespace Reclaim

namespace Handshake

variable {stop : Bool} {sweeper : Sweeper} {load : Load}

theorem due_idle (idle : sweeper.phase.busy = false) :
    sweeper.due load = (harvest sweeper.assignment.pages).plus (sweeper.outcome.getD .zero) := by
  unfold Sweeper.due
  cases phase : sweeper.phase <;> first | rfl | simp [phase, SweeperPhase.busy] at idle

theorem due_ended (shake : Handshake stop sweeper load) (ended : 0 < sweeper.ended.permits) :
    sweeper.phase.busy = false ∧ sweeper.assignment.pages = [] ∧
      sweeper.due load = sweeper.outcome.getD .zero := by
  have idle : sweeper.phase.busy = false := by
    by_contra busy
    have none := (shake.busy (by simpa using busy)).2
    omega
  have empty : sweeper.assignment.pages = [] := by
    by_contra held
    have none := (shake.slot held).2.1
    omega
  refine ⟨idle, empty, ?_⟩
  rw [due_idle idle, empty]
  exact BatchYield.zero_plus _

theorem due_awaited (shake : Handshake stop sweeper load) (ended : 0 < sweeper.ended.permits) :
    sweeper.awaited.due load = .zero := by
  obtain ⟨idle, empty, _⟩ := shake.due_ended ended
  rw [due_idle (by exact idle)]
  simp only [Sweeper.awaited, empty]
  rfl

theorem due_joined (shake : Handshake stop sweeper load) (posted : 0 < sweeper.stopped.permits) :
    sweeper.due load = (harvest sweeper.assignment.pages).plus (sweeper.outcome.getD .zero) ∧
      sweeper.joined.due load = .zero := by
  have idle : sweeper.phase.busy = false := by
    rw [shake.acknowledged posted]
    rfl
  refine ⟨due_idle idle, ?_⟩
  rw [due_idle (by exact idle)]
  rfl

theorem due_rest (shake : Handshake false sweeper load) (rest : sweeper.inFlight = false) :
    sweeper.due load = .zero ∧ load.pages = [] := by
  obtain ⟨idle, _, _, outcome, empty⟩ := shake.rest rest
  constructor
  · rw [due_idle (by rw [idle]; rfl), outcome, empty]
    rfl
  · exact shake.hand (by rw [idle]; rfl)

theorem due_dealt (shake : Handshake false sweeper load) (rest : sweeper.inFlight = false)
    (round : Nat) (pages : List Page) : (sweeper.dealt round pages).due load = harvest pages := by
  obtain ⟨idle, _, _, outcome, _⟩ := shake.rest rest
  rw [due_idle (by simp only [Sweeper.dealt, idle]; rfl)]
  simp only [Sweeper.dealt, outcome]
  exact BatchYield.plus_zero _

end Handshake

structure Team (stop : Bool) (sweepers : List Sweeper) (hands : List Load) : Prop where
  indices : sweepers.map (·.index) = List.range sweepers.length
  shakes : List.Forall₂ (Handshake stop) sweepers hands

namespace Team

variable {stop : Bool} {before after : List Sweeper} {sweeper : Sweeper}
  {early late hands : List Load} {load : Load}

theorem middle (team : Team stop (before ++ sweeper :: after) (early ++ load :: late))
    (same : before.length = early.length) :
    sweeper.index = before.length ∧ Handshake stop sweeper load ∧
      ∀ next taken, next.index = sweeper.index → Handshake stop next taken →
        Team stop (before ++ next :: after) (early ++ taken :: late) := by
  obtain ⟨early', load', late', split, same', front, shake, back⟩ := forall₂_middle team.shakes
  obtain ⟨rfl, rest⟩ := List.append_inj split (same.symm.trans same')
  obtain ⟨rfl, rfl⟩ := List.cons.inj rest
  have place : sweeper.index = before.length := by
    have entry := congrArg (·[before.length]?) team.indices
    simpa using entry
  refine ⟨place, shake, fun next taken index shake => ⟨?_, ?_⟩⟩
  · have indices := team.indices
    simpa [index] using indices
  · exact List.rel_append front (List.Forall₂.cons shake back)

theorem find (team : Team stop (before ++ sweeper :: after) hands) :
    ∃ early load late, hands = early ++ load :: late ∧ before.length = early.length := by
  obtain ⟨early, load, late, split, same, _⟩ := forall₂_middle team.shakes
  exact ⟨early, load, late, split, same⟩

theorem stopped (team : Team stop before hands) : Team true before hands where
  indices := team.indices
  shakes := team.shakes.imp fun _ _ shake => shake.stopped

theorem fresh (threads : Nat) :
    Team stop ((List.range threads).map Sweeper.fresh) (List.replicate threads (.ofPages [])) where
  indices := by
    rw [List.map_map, List.length_map, List.length_range]
    exact List.map_id _
  shakes := by
    have hands : List.replicate threads (Load.ofPages []) =
        (List.range threads).map fun _ => Load.ofPages [] := by simp
    rw [hands, List.forall₂_map_left_iff, List.forall₂_map_right_iff]
    exact List.forall₂_same.mpr fun index _ => .fresh index

end Team

theorem dues_middle {before after : List Sweeper} {early late : List Load}
    (same : before.length = early.length) (sweeper : Sweeper) (load : Load) :
    dues (before ++ sweeper :: after) (early ++ load :: late) =
      (sweeper.due load).plus (dues (before ++ after) (early ++ late)) := by
  rw [dues_append same, dues_append same, dues_cons, ← BatchYield.plus_assoc,
    BatchYield.plus_comm (dues before early), BatchYield.plus_assoc]

theorem Team.rest {sweepers : List Sweeper} {hands : List Load} (team : Team false sweepers hands)
    (rest : ∀ sweeper ∈ sweepers, sweeper.inFlight = false) :
    (∀ sweeper ∈ sweepers, sweeper.assignment.pages = []) ∧ (∀ load ∈ hands, load.pages = []) ∧
      dues sweepers hands = .zero := by
  have shakes := team.shakes
  clear team
  induction shakes with
  | nil => exact ⟨by simp, by simp, rfl⟩
  | @cons sweeper load sweepers hands shake _ ih =>
      obtain ⟨slots, empty, owed⟩ := ih fun other member => rest other (by simp [member])
      have idle := rest sweeper (by simp)
      refine ⟨?_, ?_, ?_⟩
      · intro other member
        rcases List.mem_cons.mp member with rfl | inRest
        · exact (shake.rest idle).2.2.2.2
        · exact slots other inRest
      · intro other member
        rcases List.mem_cons.mp member with rfl | inRest
        · exact (shake.due_rest idle).2
        · exact empty other inRest
      · rw [dues_cons, owed, (shake.due_rest idle).1]
        rfl

theorem Team.rest_zipWith {γ : Type} {sweepers : List Sweeper} {hands : List Load}
    (team : Team false sweepers hands) (rest : ∀ sweeper ∈ sweepers, sweeper.inFlight = false)
    (combine : Sweeper → Load → γ) (value : γ)
    (each : ∀ sweeper load, Handshake false sweeper load → sweeper.inFlight = false →
      combine sweeper load = value) :
    List.zipWith combine sweepers hands = List.replicate sweepers.length value := by
  have shakes := team.shakes
  clear team
  induction shakes with
  | nil => rfl
  | @cons sweeper load sweepers hands shake _ ih =>
      have later := ih fun other member => rest other (by simp [member])
      rw [List.zipWith_cons_cons, each sweeper load shake (rest sweeper (by simp)), later]
      rfl

theorem Team.dealt {sweepers : List Sweeper} {hands : List Load} (team : Team false sweepers hands)
    (rest : ∀ sweeper ∈ sweepers, sweeper.inFlight = false) (round : Nat)
    {parts : List (List Page)} (same : parts.length = sweepers.length) :
    let dealt := List.zipWith (fun sweeper part => sweeper.dealt round part) sweepers parts
    Team false dealt hands ∧ dues dealt hands = harvest parts.flatten ∧
      dealt.map (·.assignment.pages) = parts := by
  intro dealt
  obtain ⟨indices, shakes⟩ := team
  have each : dealt.map (·.index) = sweepers.map (·.index) ∧
      List.Forall₂ (Handshake false) dealt hands ∧ dues dealt hands = harvest parts.flatten ∧
      dealt.map (·.assignment.pages) = parts := by
    clear indices
    induction shakes generalizing parts with
    | nil =>
        obtain rfl := List.eq_nil_of_length_eq_zero same
        exact ⟨rfl, List.Forall₂.nil, rfl, rfl⟩
    | @cons sweeper load sweepers hands shake _ ih =>
        cases parts with
        | nil => cases same
        | cons part parts =>
            obtain ⟨names, shakes, owed, slots⟩ :=
              ih (fun other member => rest other (by simp [member])) (by simpa using same)
            have idle := rest sweeper (by simp)
            refine ⟨congrArg (sweeper.index :: ·) names,
              List.Forall₂.cons (shake.dealt idle round part) shakes, ?_,
              congrArg (part :: ·) slots⟩
            rw [List.flatten_cons, harvest_append, ← owed, ← shake.due_dealt idle round part]
            rfl
  obtain ⟨names, shakes, owed, slots⟩ := each
  have many : dealt.length = sweepers.length := by simp [dealt, same]
  exact ⟨⟨by rw [names, many, indices], shakes⟩, owed, slots⟩

structure Books (round : RoundState) (due : BatchYield) : Prop where
  fits : (round.merged.plus due).Fits
  entries : ∀ pages ∈ round.perThread, pages ≤ round.merged.pages

namespace Books

variable {round : RoundState} {outcome due : BatchYield}

theorem mem_modify_add {entries : List Nat} {index amount entry : Nat}
    (member : entry ∈ entries.modify index (· + amount)) :
    ∃ old ∈ entries, entry ≤ old + amount := by
  obtain ⟨position, bound, rfl⟩ := List.mem_iff_getElem.mp member
  rw [List.length_modify] at bound
  refine ⟨entries[position], List.getElem_mem bound, ?_⟩
  rw [List.getElem_modify]
  split
  · exact Nat.le_refl _
  · exact Nat.le_add_right _ _

theorem merge (books : Books round (outcome.plus due)) (index : Nat) :
    round.merge index outcome = (.ok (), round.gain index outcome) ∧
      Books (round.gain index outcome) due := by
  have fits := books.fits
  rw [← BatchYield.plus_assoc] at fits
  refine ⟨RoundState.merge_eq index fits.of_plus_left books.entries, fits, fun entry member => ?_⟩
  obtain ⟨old, inside, bound⟩ := mem_modify_add member
  have small := books.entries old inside
  simp only [RoundState.gain, BatchYield.plus]
  omega

theorem less {other : BatchYield} (books : Books round (other.plus due)) : Books round due where
  fits := by
    have fits := books.fits
    rw [BatchYield.plus_comm other, ← BatchYield.plus_assoc] at fits
    exact fits.of_plus_left
  entries := books.entries

end Books

theorem RoundState.gain_zero (round : RoundState) (index : Nat) :
    round.gain index .zero = round := by
  have same (entries : List Nat) :
      entries.modify index (· + BatchYield.zero.pages) = entries := List.modify_id index entries
  simp only [gain, BatchYield.plus_zero, same]

namespace Coordinator

variable {coordinator next : Coordinator} {hands : List Load}

theorem inProgress_false :
    coordinator.inProgress = false ↔ ∀ sweeper ∈ coordinator.sweepers, sweeper.inFlight = false := by
  simp [inProgress]

def slots (coordinator : Coordinator) : List (List Page) :=
  coordinator.sweepers.map (·.assignment.pages)

structure Staffed (coordinator : Coordinator) (hands : List Load) : Prop where
  team : Team coordinator.stopped coordinator.sweepers hands
  books : Books coordinator.round (dues coordinator.sweepers hands)

theorem merge_eq (coordinator : Coordinator) {outcome : Option BatchYield} {due : BatchYield}
    (books : Books coordinator.round ((outcome.getD .zero).plus due)) (index : Nat) :
    coordinator.merge index outcome =
        (.ok (), { coordinator with round := coordinator.round.gain index (outcome.getD .zero) }) ∧
      Books (coordinator.round.gain index (outcome.getD .zero)) due := by
  obtain ⟨merged, later⟩ := books.merge index
  cases outcome with
  | none =>
      refine ⟨?_, later⟩
      rw [Option.getD_none, RoundState.gain_zero]
      rfl
  | some outcome =>
      refine ⟨?_, later⟩
      rw [Option.getD_some] at merged
      simp only [merge, merged, Option.getD_some]

theorem Staffed.await_eq {before after : List Sweeper} {sweeper : Sweeper} {early late : List Load}
    {load : Load} {answer : Except Fault Unit}
    (staffed : coordinator.Staffed (early ++ load :: late))
    (split : coordinator.sweepers = before ++ sweeper :: after)
    (same : before.length = early.length)
    (waited : coordinator.await? before.length = some (answer, next)) :
    answer = .ok () ∧
      (sweeper.inFlight = false ∧ next = coordinator ∨
        sweeper.inFlight = true ∧ 0 < sweeper.ended.permits ∧
          next =
            { coordinator with
              sweepers := before ++ sweeper.awaited :: after
              round := coordinator.round.gain before.length (sweeper.due load) }) := by
  obtain ⟨team, books⟩ := staffed
  rw [split] at team books
  obtain ⟨index, shake, _⟩ := team.middle same
  rcases await?_eq split index waited with ⟨rest, rfl, rfl⟩ | ⟨flight, ended, merged⟩
  · exact ⟨rfl, Or.inl ⟨rest, rfl⟩⟩
  · rw [dues_middle same, (shake.due_ended ended).2.2] at books
    rw [(merge_eq _ (by exact books) before.length).1] at merged
    cases merged
    rw [(shake.due_ended ended).2.2]
    exact ⟨rfl, Or.inr ⟨flight, ended, rfl⟩⟩

theorem split_at {α : Type} {items : List α} {index : Nat} (known : index < items.length) :
    ∃ before item after, items = before ++ item :: after ∧ before.length = index :=
  ⟨items.take index, items[index], items.drop (index + 1), by simp, by simp; omega⟩

structure Keeps (coordinator : Coordinator) (hands : List Load) (next : Coordinator) : Prop where
  staffed : next.Staffed hands
  heap : next.site.heap = coordinator.site.heap
  stopped : next.stopped = coordinator.stopped
  slots : next.slots = coordinator.slots

theorem Keeps.numThreads (keeps : coordinator.Keeps hands next) :
    next.numThreads = coordinator.numThreads := by
  simpa [Coordinator.slots, Coordinator.numThreads] using congrArg List.length keeps.slots

theorem Keeps.trans {middle : Coordinator} (first : coordinator.Keeps hands middle)
    (second : middle.Keeps hands next) : coordinator.Keeps hands next :=
  ⟨second.staffed, second.heap.trans first.heap, second.stopped.trans first.stopped,
    second.slots.trans first.slots⟩

theorem Staffed.await {index : Nat} {answer : Except Fault Unit}
    (staffed : coordinator.Staffed hands) (known : index < coordinator.numThreads)
    (waited : coordinator.await? index = some (answer, next)) :
    answer = .ok () ∧ coordinator.Keeps hands next := by
  obtain ⟨before, sweeper, after, split, rfl⟩ := split_at known
  obtain ⟨team, books⟩ := staffed
  rw [split] at team books
  obtain ⟨early, load, late, rfl, same⟩ := team.find
  obtain ⟨rfl, ⟨rest, rfl⟩ | ⟨flight, ended, rfl⟩⟩ :=
    Staffed.await_eq ⟨by rwa [split], by rwa [split]⟩ split same waited
  · exact ⟨rfl, ⟨by rwa [split], by rwa [split]⟩, rfl, rfl, rfl⟩
  · obtain ⟨_, shake, replace⟩ := team.middle same
    rw [dues_middle same] at books
    refine ⟨rfl, ⟨replace _ _ rfl (shake.awaited flight ended), ?_⟩, rfl, rfl, ?_⟩
    · dsimp only
      rw [dues_middle same, shake.due_awaited ended, BatchYield.zero_plus]
      exact (books.merge before.length).2
    · simp [slots, split, Sweeper.awaited]

/-- The sweepers that are still in flight after a wait are others than the one that was waited for. -/
theorem Staffed.await_others {index : Nat} {answer : Except Fault Unit}
    (staffed : coordinator.Staffed hands) (known : index < coordinator.numThreads)
    (waited : coordinator.await? index = some (answer, next)) :
    ∀ position sweeper, next.sweepers[position]? = some sweeper → sweeper.inFlight = true →
      position ≠ index ∧ coordinator.sweepers[position]? = some sweeper := by
  obtain ⟨before, sweeper, after, split, rfl⟩ := split_at known
  have team := staffed.team
  rw [split] at team
  obtain ⟨early, load, late, rfl, same⟩ := team.find
  intro position other found flight
  obtain ⟨_, ⟨rest, rfl⟩ | ⟨_, _, rfl⟩⟩ := staffed.await_eq split same waited
  · refine ⟨?_, found⟩
    rintro rfl
    rw [split, List.getElem?_append_right (Nat.le_refl _), Nat.sub_self,
      List.getElem?_cons_zero] at found
    cases found
    rw [rest] at flight
    cases flight
  · by_cases here : position = before.length
    · subst here
      rw [List.getElem?_append_right (Nat.le_refl _), Nat.sub_self,
        List.getElem?_cons_zero] at found
      cases found
      cases flight
    · refine ⟨here, ?_⟩
      rw [split, ← getElem?_middle sweeper.awaited sweeper here]
      exact found

theorem awaitEach?_keeps {Kept : Coordinator → Prop} {indices : List Nat}
    {answer : Except Fault Unit}
    (step : ∀ {coordinator next index answer}, Kept coordinator → index ∈ indices →
      coordinator.await? index = some (answer, next) → answer = .ok () ∧ Kept next)
    (kept : Kept coordinator)
    (waited : coordinator.awaitEach? indices = some (answer, next)) :
    answer = .ok () ∧ Kept next := by
  induction indices generalizing coordinator with
  | nil =>
      cases waited
      exact ⟨rfl, kept⟩
  | cons index rest ih =>
      rw [awaitEach?] at waited
      split at waited
      · cases waited
      · next failed =>
          obtain ⟨calm, _⟩ := step kept (by simp) failed
          cases calm
      · next middle first =>
          obtain ⟨_, later⟩ := step kept (by simp) first
          exact ih (fun kept member => step kept (by simp [member])) later waited

theorem Staffed.awaitEach {indices : List Nat} {answer : Except Fault Unit}
    (staffed : coordinator.Staffed hands) (known : ∀ index ∈ indices, index < coordinator.numThreads)
    (waited : coordinator.awaitEach? indices = some (answer, next)) :
    answer = .ok () ∧ coordinator.Keeps hands next ∧
      ∀ position sweeper, next.sweepers[position]? = some sweeper → sweeper.inFlight = true →
        position ∉ indices ∧ coordinator.sweepers[position]? = some sweeper := by
  induction indices generalizing coordinator with
  | nil =>
      cases waited
      exact ⟨rfl, ⟨staffed, rfl, rfl, rfl⟩, fun position sweeper found _ => ⟨List.not_mem_nil, found⟩⟩
  | cons index rest ih =>
      rw [awaitEach?] at waited
      split at waited
      · cases waited
      · next failed =>
          obtain ⟨calm, _⟩ := staffed.await (known index (by simp)) failed
          cases calm
      · next middle first =>
          obtain ⟨_, keeps⟩ := staffed.await (known index (by simp)) first
          have others := staffed.await_others (known index (by simp)) first
          obtain ⟨calm, later, left⟩ := ih keeps.staffed
            (fun other member => by rw [keeps.numThreads]; exact known other (by simp [member])) waited
          refine ⟨calm, keeps.trans later, fun position sweeper found flight => ?_⟩
          obtain ⟨apart, before⟩ := left position sweeper found flight
          obtain ⟨distinct, start⟩ := others position sweeper before flight
          exact ⟨by simp [distinct, apart], start⟩

theorem Staffed.awaitAll {answer : Except Fault Unit} (staffed : coordinator.Staffed hands)
    (waited : coordinator.awaitEach? (List.range coordinator.numThreads) = some (answer, next)) :
    answer = .ok () ∧ coordinator.Keeps hands next ∧
      ∀ sweeper ∈ next.sweepers, sweeper.inFlight = false := by
  obtain ⟨calm, keeps, others⟩ := staffed.awaitEach (fun _ member => List.mem_range.mp member) waited
  refine ⟨calm, keeps, fun sweeper member => ?_⟩
  by_contra flight
  obtain ⟨position, bound, rfl⟩ := List.getElem_of_mem member
  have apart := (others position _ (List.getElem?_eq_getElem bound) (by simpa using flight)).1
  rw [← keeps.numThreads] at apart
  exact apart (List.mem_range.mpr bound)

theorem Staffed.finalize (staffed : coordinator.Staffed hands) :
    coordinator.Keeps hands coordinator.finalize.2 := by
  obtain ⟨team, books⟩ := staffed
  obtain ⟨counters, journal, round, closed, merged, _, entries⟩ := coordinator.finalize_kept
  rw [closed]
  refine ⟨⟨team, ?_, ?_⟩, rfl, rfl, rfl⟩
  · simp only [merged]
    exact books.fits
  · intro pages member
    rcases entries with same | none
    · simp only [same, merged] at member ⊢
      exact books.entries pages member
    · simp [none] at member

theorem ensure?_eq (coordinator : Coordinator) :
    coordinator.ensure? =
      match coordinator.awaitEach? (List.range coordinator.numThreads) with
      | none => none
      | some (.error fault, last) => some (.error fault, last)
      | some (.ok (), last) => some (.ok last.finalize.1, last.finalize.2) := rfl

/-- Whoever waits for the round waits for each sweeper and then makes the report. -/
theorem Staffed.ensure_eq {answer : Except Fault (Option RoundReport)}
    (staffed : coordinator.Staffed hands) (waited : coordinator.ensure? = some (answer, next)) :
    ∃ last, coordinator.awaitEach? (List.range coordinator.numThreads) = some (.ok (), last) ∧
      answer = .ok last.finalize.1 ∧ next = last.finalize.2 := by
  rw [ensure?_eq] at waited
  split at waited
  · cases waited
  · next failed =>
      obtain ⟨calm, _⟩ := staffed.awaitAll failed
      cases calm
  · next last all =>
      cases waited
      exact ⟨last, all, rfl, rfl⟩

theorem Staffed.ensure {answer : Except Fault (Option RoundReport)}
    (staffed : coordinator.Staffed hands) (waited : coordinator.ensure? = some (answer, next)) :
    (∃ report, answer = .ok report) ∧ coordinator.Keeps hands next := by
  obtain ⟨last, all, rfl, rfl⟩ := staffed.ensure_eq waited
  have keeps := (staffed.awaitAll all).2.1
  exact ⟨⟨_, rfl⟩, keeps.trans keeps.staffed.finalize⟩

theorem Staffed.start (staffed : coordinator.Staffed hands) (running : coordinator.stopped = false)
    (rest : coordinator.inProgress = false) (some : 0 < coordinator.numThreads)
    (fits : (harvest coordinator.site.heap.takeUnswept.1).Fits) :
    ∃ next, coordinator.start = (.ok (), next) ∧ next.Staffed hands ∧
      next.site.heap = coordinator.site.heap.takeUnswept.2 ∧ next.stopped = false ∧
      next.slots.flatten = coordinator.site.heap.takeUnswept.1 ∧
      next.numThreads = coordinator.numThreads := by
  obtain ⟨team, books⟩ := staffed
  rw [running] at team
  have idle := inProgress_false.mp rest
  have empty := (team.rest idle).1
  obtain ⟨parts, site, round, started, heap, flat, lengths, opened⟩ :=
    start_dealt running some fun sweeper member => ⟨idle sweeper member, empty sweeper member⟩
  have same : parts.length = coordinator.sweepers.length := by
    simpa [numThreads] using congrArg List.length lengths
  obtain ⟨dealt, owed, slots⟩ := team.dealt idle coordinator.site.nextRound same
  refine ⟨_, started, ⟨by rwa [running], ?_⟩, heap, running, ?_, ?_⟩
  · dsimp only
    rw [owed, flat]
    constructor
    · rwa [opened.merged, BatchYield.zero_plus]
    · rw [opened.perThread]
      intro pages member
      rw [(List.mem_replicate.mp member).2]
      exact Nat.zero_le _
  · rw [Coordinator.slots, slots, flat]
  · simp [numThreads, same]

theorem Staffed.settle {before after : List Sweeper} {sweeper joined : Sweeper} {left : Assignment}
    (staffed : coordinator.Staffed hands) (halted : coordinator.stopped = true)
    (split : coordinator.sweepers = before ++ sweeper :: after)
    (joins : sweeper.join? = some (left, joined)) :
    ∃ next, coordinator.settle before.length left joined = (.ok (), next) ∧ next.Staffed hands ∧
      next.site.heap = coordinator.site.heap.restoreUnswept sweeper.assignment.pages ∧
      next.stopped = true ∧ next.sweepers = before ++ sweeper.joined :: after ∧
      next.round = coordinator.round.gain before.length (sweeper.outcome.getD .zero) ∧
      next.site.counters = coordinator.site.counters := by
  obtain ⟨posted, rfl, taken⟩ := Sweeper.join?_some joins
  obtain ⟨team, books⟩ := staffed
  rw [split] at team books
  rw [halted] at team
  obtain ⟨early, load, late, rfl, same⟩ := team.find
  obtain ⟨index, shake, replace⟩ := team.middle same
  obtain ⟨owed, nothing⟩ := shake.due_joined posted
  rw [dues_middle same, owed, BatchYield.plus_assoc] at books
  obtain ⟨merged, later⟩ := merge_eq
    { coordinator with sweepers := before ++ sweeper.joined :: after } books.less before.length
  obtain ⟨journal, returned⟩ := giveBack_eq
    { coordinator with
      sweepers := before ++ sweeper.joined :: after
      round := coordinator.round.gain before.length (sweeper.outcome.getD .zero) }
    before.length sweeper.assignment
  have settled : coordinator.settle before.length sweeper.assignment joined =
      (.ok (),
        { coordinator with
          site :=
            { coordinator.site with
              heap := coordinator.site.heap.restoreUnswept sweeper.assignment.pages
              journal }
          sweepers := before ++ sweeper.joined :: after
          round := coordinator.round.gain before.length (sweeper.outcome.getD .zero) }) := by
    rw [settle, taken]
    dsimp only
    rw [setSweeper_middle split sweeper.joined index, merged]
    simp only [returned]
  refine ⟨_, settled, ⟨?_, ?_⟩, rfl, halted, rfl, rfl, rfl⟩
  · simp only [halted]
    exact replace _ _ rfl (shake.joined posted)
  · dsimp only
    rw [dues_middle same, nothing, BatchYield.zero_plus]
    exact later

end Coordinator

end Reclaim
