import Reclaim.Proofs.Callers.Basic

/-! The account of a round with callers. What has been merged, what callers carry and what the sweepers
still owe add up to the yield of the round at any point. A report tells what has been merged, so it
misses what is with other callers at that moment; this is the one way in which it can fall short. -/

namespace Reclaim

open Caller (carrying carryingFor carrying_middle carryingFor_middle)

def Coordinator.flights (coordinator : Coordinator) : List Bool :=
  coordinator.sweepers.map (·.inFlight)

structure Caller.Heeds (caller : Caller) (coordinator : Coordinator) : Prop where
  known : ∀ index ∈ caller.left, index < coordinator.numThreads
  waited : caller.reports = true →
    ∀ index : Nat, coordinator.flights[index]? = some true → index ∈ caller.left

theorem Caller.Heeds.less {caller : Caller} {coordinator next : Coordinator}
    (heeds : caller.Heeds coordinator) (many : next.numThreads = coordinator.numThreads)
    (flights : ∀ index : Nat, next.flights[index]? = some true →
      coordinator.flights[index]? = some true) : caller.Heeds next where
  known := by
    rw [many]
    exact heeds.known
  waited reports index flight := heeds.waited reports index (flights index flight)

theorem Caller.Heeds.advance {index : Nat} {left : List Nat} {reports : Bool}
    {carried : Option (Nat × BatchYield)} {coordinator next : Coordinator}
    (heeds : (Caller.mk (index :: left) none reports).Heeds coordinator)
    (many : next.numThreads = coordinator.numThreads)
    (flights : ∀ position : Nat, next.flights[position]? = some true →
      position ≠ index ∧ coordinator.flights[position]? = some true) :
    (Caller.mk left carried reports).Heeds next where
  known position member := by
    rw [many]
    exact heeds.known position (List.mem_cons_of_mem index member)
  waited reporting position flight := by
    obtain ⟨distinct, before⟩ := flights position flight
    exact (List.mem_cons.mp (heeds.waited reporting position before)).resolve_left distinct

/-- Besides the books of the coordinator there are those that it would have if every caller had merged
what it carries at once, and if they had not been closed. They are in order. -/
structure Account (base : Heap) (whole : List Page) (shares : List Nat) (books : RoundState)
    (lobby : Lobby) : Prop where
  ledger : Ledger base whole shares { lobby.coordinator with round := books } lobby.hands
  merged : lobby.coordinator.round.merged.plus (carrying lobby.callers) = books.merged
  entries : lobby.coordinator.round.pending = true → ∀ index, books.perThread[index]? =
    lobby.coordinator.round.perThread[index]?.map (· + carryingFor index lobby.callers)
  small : ∀ pages ∈ lobby.coordinator.round.perThread,
    pages ≤ lobby.coordinator.round.merged.pages
  calls : ∀ caller ∈ lobby.callers, caller.Heeds lobby.coordinator

namespace Account

variable {base : Heap} {whole : List Page} {shares : List Nat} {books : RoundState}
  {coordinator : Coordinator} {hands : List Load} {callers first last : List Caller}
  {caller : Caller} {lobby next : Lobby} {errand : Errand}

theorem total (account : Account base whole shares books lobby) :
    lobby.coordinator.round.merged.plus
      ((carrying lobby.callers).plus (dues lobby.coordinator.sweepers lobby.hands)) =
        harvest whole := by
  rw [← BatchYield.plus_assoc, account.merged]
  exact account.ledger.owed

theorem books_fit (account : Account base whole shares books lobby) (ready : base.Ready whole) :
    Books lobby.coordinator.round (carrying lobby.callers) where
  fits := by
    have fits := ready.totals
    rw [← account.total, ← BatchYield.plus_assoc] at fits
    exact fits.of_plus_left
  entries := account.small

theorem exchange {others : List Caller}
    (account : Account base whole shares books ⟨coordinator, hands, callers⟩)
    (totals : carrying others = carrying callers)
    (pages : ∀ index, carryingFor index others = carryingFor index callers)
    (calls : ∀ caller ∈ others, caller.Heeds coordinator) :
    Account base whole shares books ⟨coordinator, hands, others⟩ where
  ledger := account.ledger
  merged := by
    rw [totals]
    exact account.merged
  entries pending index := by
    rw [pages]
    exact account.entries pending index
  small := account.small
  calls := calls

theorem call (account : Account base whole shares books ⟨coordinator, hands, callers⟩)
    (empty : caller.carried = none) (heeds : caller.Heeds coordinator) :
    Account base whole shares books ⟨coordinator, hands, callers ++ [caller]⟩ := by
  obtain ⟨nothing, none⟩ := Caller.carries_none empty
  apply account.exchange
  · rw [carrying_middle, List.append_nil, nothing, BatchYield.zero_plus]
  · intro index
    rw [carryingFor_middle, List.append_nil, none, Nat.zero_add]
  · exact List.forall_mem_append.mpr ⟨account.calls, by simpa using heeds⟩

theorem leave (account : Account base whole shares books ⟨coordinator, hands, first ++ caller :: last⟩)
    (empty : caller.carried = none) :
    Account base whole shares books ⟨coordinator, hands, first ++ last⟩ := by
  obtain ⟨nothing, none⟩ := Caller.carries_none empty
  apply account.exchange
  · rw [carrying_middle, nothing, BatchYield.zero_plus]
  · intro index
    rw [carryingFor_middle, none, Nat.zero_add]
  · obtain ⟨before, _, after⟩ := forall_mem_middle.mp account.calls
    exact List.forall_mem_append.mpr ⟨before, after⟩

theorem sweeper {before after : List Sweeper} {sweeper next : Sweeper} {early late : List Load}
    {load taken : Load} {site : Site} {chore : Chore}
    (account : Account base whole shares books ⟨coordinator, early ++ load :: late, callers⟩)
    (ready : base.Ready whole) (split : coordinator.sweepers = before ++ sweeper :: after)
    (same : before.length = early.length)
    (move : Move coordinator.stopped sweeper load coordinator.site chore next taken site) :
    chore.fault? = none ∧ Account base whole shares books
      ⟨{ coordinator with site, sweepers := before ++ next :: after }, early ++ taken :: late,
        callers⟩ := by
  obtain ⟨calm, ledger, _⟩ := account.ledger.move ready split same move
  have flights : Coordinator.flights { coordinator with site, sweepers := before ++ next :: after } =
      coordinator.flights := by
    simp [Coordinator.flights, split, move.flight calm]
  refine ⟨calm, ledger, account.merged, account.entries, account.small, ?_⟩
  intro caller member
  apply (account.calls caller member).less
  · simp [Coordinator.numThreads, split]
  · intro index flight
    rwa [flights] at flight

theorem take {next : Coordinator} {index : Nat} {left : List Nat} {reports : Bool}
    {outcome : Option BatchYield}
    (account : Account base whole shares books
      ⟨coordinator, hands, first ++ ⟨index :: left, none, reports⟩ :: last⟩)
    (ready : base.Ready whole)
    (taken : coordinator.takeOutcome? index = .ok (some (outcome, next))) :
    next.round = coordinator.round ∧ ∃ later, Account base whole shares later
      ⟨next, hands, first ++ ⟨left, outcome.map (index, ·), reports⟩ :: last⟩ := by
  obtain ⟨inFirst, heeds, inLast⟩ := forall_mem_middle.mp account.calls
  obtain ⟨before, sweeper, after, split, rfl⟩ :=
    Coordinator.split_at (heeds.known index List.mem_cons_self)
  have team := account.ledger.team
  dsimp only at split team
  rw [split] at team
  obtain ⟨early, load, late, rfl, same⟩ := team.find
  obtain ⟨place, shake, _⟩ := team.middle same
  -- The others wait as before, and so does this one, but for the sweeper that it has waited for.
  have calls {later : Coordinator} (many : later.numThreads = coordinator.numThreads)
      (flights : ∀ position : Nat, later.flights[position]? = some true →
        position ≠ before.length ∧ coordinator.flights[position]? = some true) :
      ∀ caller ∈ first ++ ⟨left, outcome.map (before.length, ·), reports⟩ :: last,
        caller.Heeds later := by
    refine forall_mem_middle.mpr ⟨?_, heeds.advance many flights, ?_⟩
    · exact fun caller member =>
        (inFirst caller member).less many fun position flight => (flights position flight).2
    · exact fun caller member =>
        (inLast caller member).less many fun position flight => (flights position flight).2
  rcases Coordinator.takeOutcome?_eq split place taken with
    ⟨rest, rfl, rfl⟩ | ⟨flight, ended, rfl, rfl⟩
  · refine ⟨rfl, books, account.exchange ?_ ?_ (calls rfl ?_)⟩
    · rw [carrying_middle, carrying_middle]
      rfl
    · intro index
      rw [carryingFor_middle, carryingFor_middle]
      rfl
    · intro position flight
      refine ⟨?_, flight⟩
      rintro rfl
      simp [Coordinator.flights, split, rest] at flight
  · obtain ⟨_, _, due⟩ := shake.due_ended ended
    obtain ⟨totals, pages⟩ := Caller.carries_taken left before.length sweeper.outcome reports
    have settled : (sweeper.due load).plus (sweeper.awaited.due load) = sweeper.due load := by
      rw [shake.due_awaited ended, BatchYield.plus_zero]
    refine ⟨rfl, books.gain before.length (sweeper.due load), ?_, ?_, ?_, account.small,
      calls ?_ ?_⟩
    · refine account.ledger.replace ready split same ?_ (shake.awaited flight ended)
        (.still _ ?_ (account.ledger.exact load (by simp))) [] (List.Perm.refl _) ?_
        (sweeper.due load) settled
      · rfl
      · rfl
      · rfl
    · have merged := account.merged
      dsimp only at merged ⊢
      rw [carrying_middle, (Caller.carries_none rfl).1, BatchYield.zero_plus] at merged
      rw [carrying_middle, totals, ← due, BatchYield.plus_comm (sweeper.due load),
        ← BatchYield.plus_assoc, merged]
      rfl
    · intro pending position
      have entry := account.entries pending position
      dsimp only at entry ⊢
      rw [carryingFor_middle, (Caller.carries_none rfl).2, Nat.zero_add] at entry
      rw [carryingFor_middle, pages, ← due, RoundState.gain, List.getElem?_modify, entry]
      cases coordinator.round.perThread[position]? with
      | none => rfl
      | some count =>
          simp only [Option.map_some, Option.map_eq_map]
          split <;> simp only [Option.some.injEq] <;> omega
    · simp [Coordinator.numThreads, split]
    · intro position flight
      have distinct : position ≠ before.length := by
        rintro rfl
        simp [Coordinator.flights, Sweeper.awaited] at flight
      refine ⟨distinct, ?_⟩
      simp only [Coordinator.flights, split, List.map_append, List.map_cons] at flight ⊢
      rwa [getElem?_middle _ sweeper.awaited.inFlight (by simpa using distinct)]

theorem merge {index : Nat} {left : List Nat} {reports : Bool} {outcome : BatchYield}
    (account : Account base whole shares books
      ⟨coordinator, hands, first ++ ⟨left, some (index, outcome), reports⟩ :: last⟩)
    (ready : base.Ready whole) :
    coordinator.merge index (some outcome) =
        (.ok (), { coordinator with round := coordinator.round.gain index outcome }) ∧
      Account base whole shares books
        ⟨{ coordinator with round := coordinator.round.gain index outcome }, hands,
          first ++ ⟨left, none, reports⟩ :: last⟩ := by
  have fit := account.books_fit ready
  dsimp only at fit
  rw [carrying_middle] at fit
  obtain ⟨merged, later⟩ := @Coordinator.merge_eq coordinator (some outcome) _ fit index
  refine ⟨merged, account.ledger, ?_, ?_, later.entries, ?_⟩
  · have totals := account.merged
    dsimp only at totals ⊢
    rw [carrying_middle] at totals
    rw [carrying_middle, (Caller.carries_none rfl).1, BatchYield.zero_plus, ← totals,
      ← BatchYield.plus_assoc]
    rfl
  · intro pending position
    have entry := account.entries pending position
    dsimp only at entry ⊢
    rw [carryingFor_middle] at entry
    rw [carryingFor_middle, (Caller.carries_none rfl).2, Nat.zero_add, entry, RoundState.gain,
      List.getElem?_modify]
    cases coordinator.round.perThread[position]? with
    | none => rfl
    | some count =>
        simp only [Option.map_some, Option.map_eq_map, Caller.carriesFor, Option.elim]
        split <;> simp only [Option.some.injEq] <;> omega
  · obtain ⟨inFirst, heeds, inLast⟩ := forall_mem_middle.mp account.calls
    refine forall_mem_middle.mpr ⟨?_, ⟨heeds.known, heeds.waited⟩, ?_⟩
    · exact fun caller member => (inFirst caller member).less rfl fun _ => id
    · exact fun caller member => (inLast caller member).less rfl fun _ => id

theorem finalize (account : Account base whole shares books ⟨coordinator, hands, callers⟩) :
    Account base whole shares books ⟨coordinator.finalize.2, hands, callers⟩ := by
  cases pending : coordinator.round.pending with
  | false =>
      rw [Coordinator.finalize_closed pending]
      exact account
  | true =>
      obtain ⟨counters, journal, reported⟩ := coordinator.finalize_pending pending
      obtain ⟨ledger, merged, _, _, calls⟩ := account
      rw [reported]
      refine ⟨?_, merged, nofun, by simp, ?_⟩
      · exact { ledger with }
      · exact fun caller member => (calls caller member).less rfl fun _ => id

/-- What a report leaves out is what other callers carry at that moment. -/
theorem report {report : RoundReport}
    (account : Account base whole shares books ⟨coordinator, hands, first ++ caller :: last⟩)
    (reports : caller.reports = true) (done : caller.left = [])
    (reported : coordinator.finalize.1 = some report) :
    report.pages + (carrying (first ++ caller :: last)).pages = whole.length ∧
      report.freed + (carrying (first ++ caller :: last)).freed = (harvest whole).freed ∧
      ∀ index, report.perThread[index]?.map
        (· + carryingFor index (first ++ caller :: last)) = shares[index]? := by
  have pending : coordinator.round.pending = true := by
    by_contra closed
    rw [Coordinator.finalize_closed (by simpa using closed)] at reported
    cases reported
  have rest : ∀ sweeper ∈ coordinator.sweepers, sweeper.inFlight = false := by
    intro sweeper member
    by_contra flight
    obtain ⟨index, place⟩ := List.mem_iff_getElem?.mp member
    have waited := (account.calls caller (by simp)).waited reports index
      (by simpa [Coordinator.flights, place] using flight)
    rw [done] at waited
    cases waited
  obtain ⟨merged, entries, _⟩ := account.ledger.ended rest
  obtain ⟨counters, journal, closed⟩ := coordinator.finalize_pending pending
  rw [closed] at reported
  cases reported
  have totals := account.merged
  dsimp only at merged entries totals
  rw [merged] at totals
  refine ⟨?_, congrArg BatchYield.freed totals, ?_⟩
  · rw [← harvest_pages]
    exact congrArg BatchYield.pages totals
  · intro index
    rw [← entries]
    exact (account.entries pending index).symm

theorem step (account : Account base whole shares books lobby) (ready : base.Ready whole)
    (step : Lobby.Step lobby errand next) :
    errand.fault? = none ∧ (∃ later, Account base whole shares later next) ∧
      errand.report?.toList.length + next.coordinator.round.pending.toNat =
        lobby.coordinator.round.pending.toNat := by
  cases step with
  | sweeper split same move =>
      obtain ⟨calm, later⟩ := account.sweeper ready split same move
      exact ⟨calm, ⟨books, later⟩, Nat.zero_add _⟩
  | wait known =>
      refine ⟨rfl, ⟨books, account.call rfl ⟨?_, nofun⟩⟩, Nat.zero_add _⟩
      simpa using known
  | @ensure coordinator hands callers =>
      refine ⟨rfl, ⟨books, account.call rfl ⟨?_, ?_⟩⟩, Nat.zero_add _⟩
      · exact fun index member => List.mem_range.mp member
      · intro _ index flight
        obtain ⟨bound, _⟩ := List.getElem?_eq_some_iff.mp flight
        apply List.mem_range.mpr
        rwa [Coordinator.flights, List.length_map] at bound
  | take taken =>
      obtain ⟨same, later⟩ := account.take ready taken
      dsimp only
      rw [same]
      exact ⟨rfl, later, Nat.zero_add _⟩
  | merge =>
      obtain ⟨merged, later⟩ := account.merge ready
      rw [merged]
      exact ⟨rfl, ⟨books, later⟩, Nat.zero_add _⟩
  | @report coordinator hands first last =>
      refine ⟨rfl, ⟨books, (account.leave rfl).finalize⟩, ?_⟩
      cases pending : coordinator.round.pending with
      | false =>
          rw [Coordinator.finalize_closed pending]
          simp [Errand.report?, pending]
      | true =>
          obtain ⟨counters, journal, reported⟩ := coordinator.finalize_pending pending
          rw [reported]
          simp [Errand.report?]
  | leave => exact ⟨rfl, ⟨books, account.leave rfl⟩, Nat.zero_add _⟩

end Account

end Reclaim
