import Reclaim.Proofs.Coordinator.Ledger
import Reclaim.Proofs.Sweeper.Parting

/-! The tally of a round, which goes on when the sweepers are stopped: what has become of the part that
each of them was dealt, next to the books. What has been merged, what is due and what the pages that
came back would have yielded add up to the yield of the round. -/

namespace Reclaim

def Each (holds : Nat → Sweeper → Load → Prop) (sweepers : List Sweeper) (hands : List Load) :
    Prop :=
  ∀ index sweeper load, sweepers[index]? = some sweeper → hands[index]? = some load →
    holds index sweeper load

namespace Each

variable {holds later : Nat → Sweeper → Load → Prop} {before after : List Sweeper}
  {sweeper next : Sweeper} {early late : List Load} {load taken : Load}

theorem middle (each : Each holds (before ++ sweeper :: after) (early ++ load :: late))
    (same : before.length = early.length) : holds before.length sweeper load :=
  each _ _ _ (by simp) (by simp [same])

theorem replace (each : Each holds (before ++ sweeper :: after) (early ++ load :: late))
    (same : before.length = early.length)
    (others : ∀ index sweeper load, index ≠ before.length → holds index sweeper load →
      later index sweeper load)
    (changed : later before.length next taken) :
    Each later (before ++ next :: after) (early ++ taken :: late) := by
  intro index other hand found held
  by_cases here : index = before.length
  · subst here
    rw [List.getElem?_append_right (Nat.le_refl _), Nat.sub_self,
      List.getElem?_cons_zero] at found
    rw [same, List.getElem?_append_right (Nat.le_refl _), Nat.sub_self,
      List.getElem?_cons_zero] at held
    cases found
    cases held
    exact changed
  · rw [getElem?_middle next sweeper here] at found
    rw [getElem?_middle taken load (same ▸ here)] at held
    exact others index other hand here (each index other hand found held)

end Each

theorem Team.each {stop : Bool} {sweepers : List Sweeper} {hands : List Load}
    (team : Team stop sweepers hands) : Each (fun _ => Handshake stop) sweepers hands := by
  intro index sweeper load found held
  obtain ⟨_, all⟩ := List.forall₂_iff_get.mp team.shakes
  obtain ⟨known, rfl⟩ := List.getElem?_eq_some_iff.mp found
  obtain ⟨bound, rfl⟩ := List.getElem?_eq_some_iff.mp held
  exact all index known bound

theorem BatchYield.plus_exchange (merged outcome due rest returned more : BatchYield) :
    (merged.plus outcome).plus ((due.plus rest).plus (returned.plus more)) =
      merged.plus (((outcome.plus (due.plus more)).plus rest).plus returned) := by
  simp only [plus, mk.injEq]
  refine ⟨?_, ?_, ?_, ?_⟩ <;> ac_rfl

theorem Share.of_same {part done back : List Page} {sweeper next : Sweeper} {load : Load}
    (share : Share part done back sweeper load) (assignment : next.assignment = sweeper.assignment)
    (phase : next.phase = sweeper.phase) : Share part done back next load := by
  obtain ⟨parts, whole, gone⟩ := share
  rw [← assignment] at parts whole
  rw [← phase] at gone
  exact ⟨parts, whole, gone⟩

structure Tally (whole : List Page) (part done back : Nat → List Page) (coordinator : Coordinator)
    (hands : List Load) : Prop where
  shares : Each (fun index => Share (part index) (done index) (back index)) coordinator.sweepers hands
  owed : coordinator.round.merged.plus ((dues coordinator.sweepers hands).plus
    (harvest ((List.range coordinator.numThreads).flatMap back))) = harvest whole
  width : coordinator.round.pending = true →
    coordinator.round.perThread.length = coordinator.numThreads
  entries : coordinator.round.pending = true → Each (fun index sweeper load =>
    ∃ entry, coordinator.round.perThread[index]? = some entry ∧
      entry + (sweeper.due load).pages + (back index).length = (part index).length)
    coordinator.sweepers hands

namespace Tally

variable {whole : List Page} {part done back : Nat → List Page} {coordinator : Coordinator}
  {before after : List Sweeper} {sweeper next : Sweeper} {early late hands : List Load}
  {load taken : Load} {site : Site} {chore : Chore}

/-- One sweeper changes. Of what it owed some has been merged, and some pages have come back. -/
theorem replace (tally : Tally whole part done back coordinator (early ++ load :: late))
    (split : coordinator.sweepers = before ++ sweeper :: after)
    (same : before.length = early.length) {now given : Nat → List Page} {more : List Page}
    {outcome : BatchYield}
    (others : ∀ index, index ≠ before.length → now index = done index ∧ given index = back index)
    (share : Share (part before.length) (now before.length) (given before.length) next taken)
    (length : (given before.length).length = (back before.length).length + more.length)
    (all : (List.range coordinator.numThreads).flatMap given =
      (List.range coordinator.numThreads).flatMap back ++ more)
    (due : outcome.plus ((next.due taken).plus (harvest more)) = sweeper.due load) (site : Site) :
    Tally whole part now given
      { coordinator with
        site
        sweepers := before ++ next :: after
        round := coordinator.round.gain before.length outcome }
      (early ++ taken :: late) := by
  have many : (before ++ next :: after).length = coordinator.numThreads := by
    simp [Coordinator.numThreads, split]
  obtain ⟨shares, owed, width, entries⟩ := tally
  rw [split] at shares owed
  constructor
  · refine shares.replace same (fun index other hand elsewhere old => ?_) share
    rw [(others index elsewhere).1, (others index elsewhere).2]
    exact old
  · simp only [Coordinator.numThreads, many] at all ⊢
    rw [← owed, all, dues_middle same, dues_middle same, ← due, harvest_append]
    exact BatchYield.plus_exchange _ _ _ _ _ _
  · intro pending
    simpa [RoundState.gain, Coordinator.numThreads, split] using width pending
  · intro pending
    have old := entries pending
    rw [split] at old
    refine old.replace same (fun index other hand elsewhere known => ?_) ?_
    · obtain ⟨entry, found, counted⟩ := known
      refine ⟨entry, ?_, ?_⟩
      · simp [RoundState.gain, Ne.symm elsewhere, found]
      · rw [(others index elsewhere).2]
        exact counted
    · obtain ⟨entry, found, counted⟩ := old.middle same
      refine ⟨entry + outcome.pages, ?_, ?_⟩
      · simp [RoundState.gain, found]
      · have pages := congrArg BatchYield.pages due
        simp only [BatchYield.plus, harvest_pages] at pages
        omega

theorem of_same {following : Coordinator} (tally : Tally whole part done back coordinator hands)
    (sweepers : following.sweepers = coordinator.sweepers)
    (round : following.round = coordinator.round) :
    Tally whole part done back following hands := by
  obtain ⟨shares, owed, width, entries⟩ := tally
  unfold Coordinator.numThreads at owed width
  rw [← sweepers, ← round] at owed width entries
  rw [← sweepers] at shares
  exact ⟨shares, owed, width, entries⟩

theorem move (tally : Tally whole part done back coordinator (early ++ load :: late))
    (split : coordinator.sweepers = before ++ sweeper :: after)
    (same : before.length = early.length)
    (move : Move coordinator.stopped sweeper load coordinator.site chore next taken site)
    (calm : chore.fault? = none) (young : ∀ page ∈ chore.sweeps, page.sweeps + 1 < Word.halfLimit)
    (shake : Handshake coordinator.stopped sweeper load) (regular : load.Regular coordinator.site.heap) :
    Tally whole part
      (fun index => done index ++ if before.length = index then chore.sweeps else []) back
      { coordinator with site, sweepers := before ++ next :: after } (early ++ taken :: late) := by
  have share := tally.shares
  rw [split] at share
  rw [← coordinator.round.gain_zero before.length]
  refine tally.replace split same ?_ ?_ rfl (List.append_nil _).symm ?_ site
  · intro index elsewhere
    rw [if_neg (Ne.symm elsewhere), List.append_nil]
    exact ⟨rfl, rfl⟩
  · rw [if_pos rfl]
    exact move.share calm young shake regular (share.middle same)
  · rw [BatchYield.zero_plus, move.due calm young shake regular]
    exact BatchYield.plus_zero _

theorem nudge (tally : Tally whole part done back coordinator (early ++ load :: late))
    (split : coordinator.sweepers = before ++ sweeper :: after)
    (same : before.length = early.length) :
    Tally whole part done back { coordinator with sweepers := before ++ sweeper.nudge :: after }
      (early ++ load :: late) := by
  have share := tally.shares
  rw [split] at share
  rw [← coordinator.round.gain_zero before.length]
  have still : Share (part before.length) (done before.length) (back before.length) sweeper.nudge
      load := (share.middle same).of_same rfl rfl
  refine tally.replace split same (fun _ _ => ⟨rfl, rfl⟩) still rfl (List.append_nil _).symm ?_
    coordinator.site
  rw [BatchYield.zero_plus]
  exact BatchYield.plus_zero _

theorem await {index : Nat} {answer : Except Fault Unit} {following : Coordinator}
    (tally : Tally whole part done back coordinator hands) (staffed : coordinator.Staffed hands)
    (known : index < coordinator.numThreads)
    (waited : coordinator.await? index = some (answer, following)) :
    Tally whole part done back following hands := by
  obtain ⟨before, sweeper, after, split, rfl⟩ := Coordinator.split_at known
  have team := staffed.team
  rw [split] at team
  obtain ⟨early, load, late, rfl, same⟩ := team.find
  have shake := (team.middle same).2.1
  obtain ⟨_, ⟨_, rfl⟩ | ⟨_, ended, rfl⟩⟩ := staffed.await_eq split same waited
  · exact tally
  · have share := tally.shares
    rw [split] at share
    have still : Share (part before.length) (done before.length) (back before.length)
        sweeper.awaited load := (share.middle same).of_same rfl rfl
    refine tally.replace split same (fun _ _ => ⟨rfl, rfl⟩) still rfl (List.append_nil _).symm ?_
      coordinator.site
    rw [shake.due_awaited ended]
    exact BatchYield.plus_zero _

theorem finalize (tally : Tally whole part done back coordinator hands) :
    Tally whole part done back coordinator.finalize.2 hands := by
  cases pending : coordinator.round.pending with
  | false =>
      rw [Coordinator.finalize_closed pending]
      exact tally
  | true =>
      obtain ⟨counters, journal, reported⟩ := coordinator.finalize_pending pending
      rw [reported]
      exact ⟨tally.shares, tally.owed, nofun, nofun⟩

theorem ensure {answer : Except Fault (Option RoundReport)} {following : Coordinator}
    (tally : Tally whole part done back coordinator hands) (staffed : coordinator.Staffed hands)
    (waited : coordinator.ensure? = some (answer, following)) :
    Tally whole part done back following hands := by
  obtain ⟨last, all, _, rfl⟩ := staffed.ensure_eq waited
  have waits := (@Coordinator.awaitEach?_keeps coordinator last (fun middle =>
    Tally whole part done back middle hands ∧ middle.Staffed hands ∧
      middle.numThreads = coordinator.numThreads) _ _
    (fun kept member first => by
      obtain ⟨tally, staffed, many⟩ := kept
      have known := many.symm ▸ List.mem_range.mp member
      obtain ⟨calm, keeps⟩ := staffed.await known first
      exact ⟨calm, tally.await staffed known first, keeps.staffed, keeps.numThreads.trans many⟩)
    ⟨tally, staffed, rfl⟩ all).2
  exact waits.1.finalize

theorem flatMap_given {back : Nat → List Page} {place threads : Nat} (known : place < threads)
    (none : ∀ index, place ≤ index → back index = []) (pages : List Page) :
    ((List.range threads).flatMap fun index => if index = place then pages else back index) =
      (List.range threads).flatMap back ++ pages := by
  induction threads with
  | zero => omega
  | succ threads ih =>
      rw [List.range_succ, List.flatMap_append, List.flatMap_append, List.flatMap_singleton,
        List.flatMap_singleton]
      by_cases last : threads = place
      · subst last
        rw [if_pos rfl, none threads (Nat.le_refl _), List.append_nil]
        congr 1
        refine List.flatMap_congr fun index member => ?_
        have earlier := List.mem_range.mp member
        rw [if_neg (by omega)]
      · rw [if_neg last, none threads (by omega), List.append_nil, List.append_nil]
        exact ih (by omega)

theorem settle {joined : Sweeper} {left : Assignment} {following : Coordinator}
    (tally : Tally whole part done back coordinator hands) (staffed : coordinator.Staffed hands)
    (halted : coordinator.stopped = true)
    (split : coordinator.sweepers = before ++ sweeper :: after)
    (joins : sweeper.join? = some (left, joined))
    (none : ∀ index, before.length ≤ index → back index = [])
    (sweepers : following.sweepers = before ++ sweeper.joined :: after)
    (round : following.round =
      coordinator.round.gain before.length (sweeper.outcome.getD .zero)) :
    Tally whole part done
      (fun index => if index = before.length then sweeper.assignment.pages else back index)
      following hands := by
  have posted := (Sweeper.join?_some joins).1
  have team := staffed.team
  rw [split, halted] at team
  obtain ⟨early, load, late, rfl, same⟩ := team.find
  have shake := (team.middle same).2.1
  have exited := shake.acknowledged posted
  have known : before.length < coordinator.numThreads := by simp [Coordinator.numThreads, split]
  have shares := tally.shares
  rw [split] at shares
  obtain ⟨parts, whole, _⟩ := shares.middle same
  rw [none _ (Nat.le_refl _), List.append_nil] at parts whole
  have share : Share (part before.length) (done before.length) sweeper.assignment.pages
      sweeper.joined load := ⟨parts, whole, fun _ => exited⟩
  refine of_same (tally.replace split same (fun index elsewhere => ⟨rfl, if_neg elsewhere⟩) ?_ ?_
    (flatMap_given known none sweeper.assignment.pages) ?_ coordinator.site) sweepers round
  · rw [if_pos rfl]
    exact share
  · rw [if_pos rfl, none _ (Nat.le_refl _)]
    exact (Nat.zero_add _).symm
  · obtain ⟨owed, nothing⟩ := shake.due_joined posted
    rw [owed, nothing, BatchYield.zero_plus]
    exact BatchYield.plus_comm _ _

end Tally

namespace Coordinator

variable {coordinator : Coordinator} {hands : List Load}

def slot (coordinator : Coordinator) (index : Nat) : List Page :=
  coordinator.sweepers[index]?.elim [] (·.assignment.pages)

theorem tally_opening {whole : List Page} (empty : ∀ load ∈ hands, load.left = [])
    (owed : coordinator.round.merged.plus (dues coordinator.sweepers hands) = harvest whole)
    (entries : coordinator.round.pending = true →
      coordinator.round.perThread = List.replicate coordinator.numThreads 0 ∧
        Each (fun _ sweeper load => (sweeper.due load).pages = sweeper.assignment.pages.length)
          coordinator.sweepers hands) :
    Tally whole coordinator.slot (fun _ => []) (fun _ => []) coordinator hands where
  shares index sweeper load found held := by
    have left := empty load (List.mem_of_getElem? held)
    refine ⟨?_, fun _ => left, fun some => absurd rfl some⟩
    simp [slot, found, left]
  owed := by
    rw [← owed, List.flatMap_eq_nil_iff.mpr fun _ _ => rfl]
    exact congrArg _ (BatchYield.plus_zero _)
  width pending := by rw [(entries pending).1, List.length_replicate]
  entries pending index sweeper load found held := by
    obtain ⟨none, dealt⟩ := entries pending
    have known : index < coordinator.numThreads := (List.getElem?_eq_some_iff.mp found).1
    refine ⟨0, ?_, ?_⟩
    · rw [none, List.getElem?_replicate, if_pos known]
    · rw [dealt index sweeper load found held]
      simp [slot, found]

theorem tally_fresh (site : Site) (threads : Nat) :
    Tally [] (fresh site threads).slot (fun _ => []) (fun _ => []) (fresh site threads)
      (List.replicate threads (.ofPages [])) := by
  have idle : ∀ sweeper ∈ (fresh site threads).sweepers, sweeper.inFlight = false := by
    intro sweeper member
    obtain ⟨index, _, rfl⟩ := List.mem_map.mp member
    rfl
  obtain ⟨_, _, owed⟩ := (@Team.fresh false threads).rest idle
  refine tally_opening ?_ ?_ nofun
  · intro load member
    rw [(List.mem_replicate.mp member).2]
    rfl
  · rw [show (fresh site threads).sweepers = (List.range threads).map Sweeper.fresh from rfl, owed]
    rfl

theorem Staffed.tally (staffed : coordinator.Staffed hands) (running : coordinator.stopped = false)
    (rest : coordinator.inProgress = false) (some : 0 < coordinator.numThreads) :
    Tally coordinator.site.heap.takeUnswept.1 coordinator.start.2.slot (fun _ => []) (fun _ => [])
        coordinator.start.2 hands ∧
      coordinator.start.2.slots.flatten = coordinator.site.heap.takeUnswept.1 := by
  have team := staffed.team
  rw [running] at team
  have idle := inProgress_false.mp rest
  obtain ⟨empty, bare, _⟩ := team.rest idle
  obtain ⟨parts, site, round, started, _, flat, lengths, opened⟩ :=
    start_dealt running some fun sweeper member => ⟨idle sweeper member, empty sweeper member⟩
  have same : parts.length = coordinator.sweepers.length := by
    simpa [numThreads] using congrArg List.length lengths
  obtain ⟨_, owed, slots⟩ := team.dealt idle coordinator.site.nextRound same
  rw [started]
  refine ⟨tally_opening ?_ ?_ fun _ => ⟨?_, ?_⟩, ?_⟩
  · exact fun load member => (List.append_eq_nil_iff.mp (bare load member)).1
  · rw [opened.merged, BatchYield.zero_plus]
    exact owed.trans (congrArg harvest flat)
  · rw [opened.perThread]
    simp [numThreads, same]
  · intro index sweeper load found held
    obtain ⟨old, part, known, _, rfl⟩ := List.getElem?_zipWith_eq_some.mp found
    rw [(team.each index old load known held).due_dealt (idle old (List.mem_of_getElem? known)),
      harvest_pages]
    rfl
  · exact (congrArg List.flatten slots).trans flat

end Coordinator

end Reclaim
