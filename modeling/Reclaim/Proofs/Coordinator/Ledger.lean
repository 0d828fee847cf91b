import Reclaim.Proofs.Coordinator.Team
import Reclaim.Proofs.Heap.Alike
import Reclaim.Proofs.Sweeper.Effect

/-! The ledger of a round. At any point of it the pages are in three lots: those that have been swept
and published, those that are still in the hands of the sweepers, and those that have yet to be swept.
Together they are the pages of the round, in some order; what has been merged and what is due add up
to what the round yields. -/

namespace Reclaim

/-- One lot among several is exchanged: some of it has gone, and the rest has taken its place. -/
theorem perm_exchange {gone more early lot changed late whole : List Page}
    (parted : (gone ++ (early ++ (lot ++ late))).Perm whole)
    (exchange : (more ++ changed).Perm lot) :
    ((gone ++ more) ++ (early ++ (changed ++ late))).Perm whole := by
  refine List.Perm.trans (List.perm_iff_count.mpr fun page => ?_) parted
  have counted := List.perm_iff_count.mp exchange page
  simp only [List.count_append] at counted ⊢
  omega

def comings (kind : SpaceKind) (sweepers : List Sweeper) (hands : List Load) : List Page :=
  (List.zipWith (fun sweeper load => sweeper.coming load kind) sweepers hands).flatten

def aheads (sweepers : List Sweeper) (hands : List Load) : List Page :=
  (List.zipWith Sweeper.ahead sweepers hands).flatten

def ranks (sweepers : List Sweeper) (hands : List Load) : Nat :=
  (List.zipWith Sweeper.rank sweepers hands).sum

section Middle

variable {before after : List Sweeper} {early late : List Load} (same : before.length = early.length)
  (sweeper : Sweeper) (load : Load)

include same

theorem comings_middle (kind : SpaceKind) :
    comings kind (before ++ sweeper :: after) (early ++ load :: late) =
      comings kind before early ++ (sweeper.coming load kind ++ comings kind after late) := by
  rw [comings, zipWith_middle _ same, List.flatten_append, List.flatten_cons]
  rfl

theorem aheads_middle :
    aheads (before ++ sweeper :: after) (early ++ load :: late) =
      aheads before early ++ (sweeper.ahead load ++ aheads after late) := by
  rw [aheads, zipWith_middle _ same, List.flatten_append, List.flatten_cons]
  rfl

theorem ranks_middle :
    ranks (before ++ sweeper :: after) (early ++ load :: late) =
      ranks before early + (sweeper.rank load + ranks after late) := by
  rw [ranks, zipWith_middle _ same, List.sum_append, List.sum_cons]
  rfl

end Middle

theorem aheads_slots {sweepers : List Sweeper} {hands : List Load}
    (bare : ∀ load ∈ hands, load.left = []) (same : sweepers.length = hands.length) :
    aheads sweepers hands = (sweepers.map (·.assignment.pages)).flatten := by
  induction sweepers generalizing hands with
  | nil => rfl
  | cons sweeper sweepers ih =>
      cases hands with
      | nil => cases same
      | cons load hands =>
          have later := @ih hands (fun other member => bare other (by simp [member]))
            (by simpa using same)
          have head : aheads (sweeper :: sweepers) (load :: hands) =
              sweeper.ahead load ++ aheads sweepers hands := rfl
          rw [head, later, Sweeper.ahead, bare load (by simp), List.append_nil]
          rfl

def RoundState.settled (round : RoundState) (sweepers : List Sweeper) (hands : List Load) : List Nat :=
  List.zipWith (fun entry due => entry + due.pages) round.perThread
    (List.zipWith Sweeper.due sweepers hands)

theorem RoundState.settled_gain {before after : List Sweeper} {early late : List Load}
    {sweeper next : Sweeper} {load taken : Load} {outcome : BatchYield} (round : RoundState)
    (same : before.length = early.length) (place : before.length < round.perThread.length)
    (due : outcome.plus (next.due taken) = sweeper.due load) :
    (round.gain before.length outcome).settled (before ++ next :: after) (early ++ taken :: late) =
      round.settled (before ++ sweeper :: after) (early ++ load :: late) := by
  obtain ⟨front, entry, back, parted, width⟩ := Coordinator.split_at place
  have entries : front.length = (List.zipWith Sweeper.due before early).length := by
    rw [List.length_zipWith, ← same, Nat.min_self, width]
  simp only [settled, gain, parted]
  rw [← width, modify_middle, zipWith_middle _ same, zipWith_middle _ same,
    zipWith_middle _ entries, zipWith_middle _ entries, ← due, Nat.add_assoc]
  rfl

structure Ledger (base : Heap) (whole : List Page) (shares : List Nat) (coordinator : Coordinator)
    (hands : List Load) : Prop where
  team : Team false coordinator.sweepers hands
  running : coordinator.stopped = false
  pending : coordinator.round.pending = true
  small : ∀ pages ∈ coordinator.round.perThread, pages ≤ coordinator.round.merged.pages
  entries : coordinator.round.perThread.length = coordinator.sweepers.length
  owed : coordinator.round.merged.plus (dues coordinator.sweepers hands) = harvest whole
  settled : coordinator.round.settled coordinator.sweepers hands = shares
  exact : ∀ load ∈ hands, load.Exact
  counted : ∃ swept, (swept ++ aheads coordinator.sweepers hands).Perm whole ∧
    coordinator.site.heap.totals = base.totals.after swept
  published : ∀ kind, ∃ pages,
    coordinator.site.heap.space kind = (base.space kind).receive pages ∧
      (pages ++ comings kind coordinator.sweepers hands).Perm (renewedIn kind whole)
  id : coordinator.site.heap.id = base.id
  nextPage : coordinator.site.heap.nextPage = base.nextPage

theorem Move.sweeps_left {stop : Bool} {sweeper next : Sweeper} {load taken : Load}
    {site later : Site} {chore : Chore} (move : Move stop sweeper load site chore next taken later) :
    ∀ page ∈ chore.sweeps, page ∈ load.left := by
  intro page member
  cases move with
  | sweep _ first =>
      rw [first, List.mem_singleton.mp member]
      exact List.mem_cons_self
  | _ => cases member

namespace Ledger

variable {base : Heap} {whole : List Page} {shares : List Nat} {coordinator : Coordinator}
  {before after : List Sweeper} {sweeper next : Sweeper} {early late : List Load}
  {load taken : Load} {site : Site} {chore : Chore}

theorem books {hands : List Load} (ledger : Ledger base whole shares coordinator hands)
    (ready : base.Ready whole) :
    Books coordinator.round (dues coordinator.sweepers hands) where
  fits := by
    rw [ledger.owed]
    exact ready.totals
  entries := ledger.small

theorem staffed {hands : List Load} (ledger : Ledger base whole shares coordinator hands)
    (ready : base.Ready whole) : coordinator.Staffed hands :=
  ⟨by rw [ledger.running]; exact ledger.team, ledger.books ready⟩

theorem room (ledger : Ledger base whole shares coordinator (early ++ load :: late))
    (ready : base.Ready whole) (split : coordinator.sweepers = before ++ sweeper :: after)
    (same : before.length = early.length) :
    (∀ page ∈ load.left, page.Sweepable) ∧
      (∀ kind, ((coordinator.site.heap.space kind).free.join (mapOf (load.coming kind))).Fits) ∧
      (sweeper.due load).Fits := by
  refine ⟨?_, ?_, ?_⟩
  · intro page member
    obtain ⟨swept, parted, _⟩ := ledger.counted
    rw [split, aheads_middle same] at parted
    apply ready.sweepable page
    rw [← parted.mem_iff]
    simp [Sweeper.ahead, member]
  · intro kind
    obtain ⟨pages, space, parted⟩ := ledger.published kind
    rw [split, comings_middle same] at parted
    have grown : ((base.space kind).receive pages).free =
        (base.space kind).free.join (mapOf pages) := rfl
    rw [space, grown, FreeList.join_assoc, ← mapOf_append]
    refine room_of_perm (ready.lists kind) (comings kind before early ++
      (renewedIn kind sweeper.assignment.pages ++ comings kind after late)) ?_
    refine List.Perm.trans (List.perm_iff_count.mpr fun page => ?_) parted
    simp only [Sweeper.coming, List.count_append]
    omega
  · have owed := ready.totals
    rw [← ledger.owed, split, dues_middle same, BatchYield.plus_comm, BatchYield.plus_assoc] at owed
    exact owed.of_plus_left

theorem replace (ledger : Ledger base whole shares coordinator (early ++ load :: late))
    (ready : base.Ready whole) (split : coordinator.sweepers = before ++ sweeper :: after)
    (same : before.length = early.length) (index : next.index = sweeper.index)
    (shake : Handshake false next taken)
    (effect : Effect sweeper next load taken coordinator.site.heap site.heap) (more : List Page)
    (ahead : (more ++ next.ahead taken).Perm (sweeper.ahead load))
    (grown : site.heap.totals = coordinator.site.heap.totals.after more) (outcome : BatchYield)
    (due : outcome.plus (next.due taken) = sweeper.due load) :
    Ledger base whole shares
      { coordinator with
        site
        sweepers := before ++ next :: after
        round := coordinator.round.gain before.length outcome }
      (early ++ taken :: late) := by
  have team := ledger.team
  have books := ledger.books ready
  rw [split] at team books
  rw [dues_middle same, ← due, BatchYield.plus_assoc] at books
  constructor
  · exact (team.middle same).2.2 next taken index shake
  · exact ledger.running
  · exact ledger.pending
  · exact (books.merge before.length).2.entries
  · simpa [RoundState.gain, split] using ledger.entries
  · have owed := ledger.owed
    rw [split, dues_middle same, ← due, BatchYield.plus_assoc, ← BatchYield.plus_assoc] at owed
    rw [dues_middle same]
    exact owed
  · have place : before.length < coordinator.round.perThread.length := by
      rw [ledger.entries, split]
      simp
    have settled := ledger.settled
    rw [split] at settled
    exact (coordinator.round.settled_gain same place due).trans settled
  · intro other member
    rcases List.mem_append.mp member with inEarly | inRest
    · exact ledger.exact other (by simp [inEarly])
    · rcases List.mem_cons.mp inRest with rfl | inLate
      · exact effect.exact
      · exact ledger.exact other (by simp [inLate])
  · obtain ⟨swept, parted, totals⟩ := ledger.counted
    rw [split, aheads_middle same] at parted
    refine ⟨swept ++ more, ?_, ?_⟩
    · rw [aheads_middle same]
      exact perm_exchange parted ahead
    · rw [SweepTotals.after_append, ← totals]
      exact grown
  · intro kind
    obtain ⟨pages, space, parted⟩ := ledger.published kind
    obtain ⟨more, received, exchange⟩ := effect.brought kind
    rw [split, comings_middle same] at parted
    refine ⟨pages ++ more, ?_, ?_⟩
    · rw [← PagedSpace.receive_receive, ← space]
      exact received
    · rw [comings_middle same]
      exact perm_exchange parted exchange
  · exact effect.id.trans ledger.id
  · exact effect.nextPage.trans ledger.nextPage

theorem move (ledger : Ledger base whole shares coordinator (early ++ load :: late))
    (ready : base.Ready whole) (split : coordinator.sweepers = before ++ sweeper :: after)
    (same : before.length = early.length)
    (move : Move coordinator.stopped sweeper load coordinator.site chore next taken site) :
    chore.fault? = none ∧
      Ledger base whole shares { coordinator with site, sweepers := before ++ next :: after }
        (early ++ taken :: late) ∧
      ranks (before ++ next :: after) (early ++ taken :: late) <
        ranks coordinator.sweepers (early ++ load :: late) := by
  have team := ledger.team
  rw [split] at team
  have shake := (team.middle same).2.1
  obtain ⟨sweepable, lists, totals⟩ := ledger.room ready split same
  rw [ledger.running] at move
  obtain ⟨calm, regular, effect⟩ :=
    move.effect shake (ledger.exact load (by simp)) sweepable lists totals
  have young : ∀ page ∈ chore.sweeps, page.sweeps + 1 < Word.halfLimit :=
    fun page member => (sweepable page (move.sweeps_left page member)).young
  have due := move.due calm young shake regular
  obtain ⟨ahead, grown⟩ := move.counted calm young shake regular
  refine ⟨calm, ?_, ?_⟩
  · have moved := ledger.replace ready split same (move.index calm) (move.handshake calm shake)
      effect _ ahead grown .zero (by rw [BatchYield.zero_plus, due])
    rwa [RoundState.gain_zero] at moved
  · rw [split, ranks_middle same, ranks_middle same]
    have nearer := move.rank calm young shake regular
    omega

theorem wait {hands : List Load} {index : Nat} {answer : Except Fault Unit} {later : Coordinator}
    (ledger : Ledger base whole shares coordinator hands) (ready : base.Ready whole)
    (known : index < coordinator.numThreads)
    (waited : coordinator.await? index = some (answer, later)) :
    answer = .ok () ∧ Ledger base whole shares later hands ∧
      ranks later.sweepers hands = ranks coordinator.sweepers hands := by
  obtain ⟨before, sweeper, after, split, rfl⟩ := Coordinator.split_at known
  have team := ledger.team
  rw [split] at team
  obtain ⟨early, load, late, rfl, same⟩ := team.find
  have shake := (team.middle same).2.1
  obtain ⟨rfl, ⟨rest, rfl⟩ | ⟨flight, ended, rfl⟩⟩ :=
    (ledger.staffed ready).await_eq split same waited
  · exact ⟨rfl, ledger, rfl⟩
  · refine ⟨rfl, ?_, ?_⟩
    · refine ledger.replace ready split same ?_ (shake.awaited flight ended)
        (.still _ ?_ (ledger.exact load (by simp))) [] (List.Perm.refl _) ?_
        (sweeper.due load) ?_
      · rfl
      · rfl
      · rfl
      · rw [shake.due_awaited ended, BatchYield.plus_zero]
    · rw [split, ranks_middle same, ranks_middle same]
      rfl

theorem awaitEach {hands : List Load} {indices : List Nat} {answer : Except Fault Unit}
    {later : Coordinator} (ledger : Ledger base whole shares coordinator hands)
    (ready : base.Ready whole) (known : ∀ index ∈ indices, index < coordinator.numThreads)
    (waited : coordinator.awaitEach? indices = some (answer, later)) :
    Ledger base whole shares later hands ∧ later.numThreads = coordinator.numThreads := by
  refine (@Coordinator.awaitEach?_keeps coordinator later (fun middle =>
    Ledger base whole shares middle hands ∧ middle.numThreads = coordinator.numThreads) indices answer
    (fun kept member first => ?_) ⟨ledger, rfl⟩ waited).2
  obtain ⟨ledger, many⟩ := kept
  have bound := many.symm ▸ known _ member
  obtain ⟨calm, later, _⟩ := ledger.wait ready bound first
  exact ⟨calm, later, ((ledger.staffed ready).await bound first).2.numThreads.trans many⟩

/-- When every sweeper has been waited for, the books hold the whole round, and the heap is as if one
party had swept all of the pages. -/
theorem ended {hands : List Load} (ledger : Ledger base whole shares coordinator hands)
    (rest : ∀ sweeper ∈ coordinator.sweepers, sweeper.inFlight = false) :
    coordinator.round.merged = harvest whole ∧ coordinator.round.perThread = shares ∧
      coordinator.site.heap.Alike (base.reclaim whole) := by
  have none := (ledger.team.rest rest).2.2
  -- With nobody in flight nothing is ahead and nothing is coming: the first lot is the whole.
  have bare : aheads coordinator.sweepers hands = [] ∧
      ∀ kind, comings kind coordinator.sweepers hands = [] := by
    constructor
    · rw [aheads, ledger.team.rest_zipWith rest _ [], List.flatten_replicate_nil]
      intro sweeper load shake idle
      obtain ⟨_, _, _, _, slot⟩ := shake.rest idle
      obtain ⟨left, _⟩ := List.append_eq_nil_iff.mp (shake.due_rest idle).2
      rw [Sweeper.ahead, slot, left, List.append_nil]
    · intro kind
      rw [comings, ledger.team.rest_zipWith rest _ [], List.flatten_replicate_nil]
      intro sweeper load shake idle
      obtain ⟨_, _, _, _, slot⟩ := shake.rest idle
      rw [Sweeper.coming, slot, Load.coming_empty (shake.due_rest idle).2]
      rfl
  refine ⟨?_, ?_, ?_⟩
  · rw [← ledger.owed, none, BatchYield.plus_zero]
  · have settled := ledger.settled
    rw [RoundState.settled, ledger.team.rest_zipWith rest _ .zero
      fun sweeper load shake idle => (shake.due_rest idle).1] at settled
    rw [← settled]
    apply List.ext_getElem
    · simp [ledger.entries]
    · intro position _ _
      simp [BatchYield.zero]
  · obtain ⟨swept, parted, totals⟩ := ledger.counted
    rw [bare.1, List.append_nil] at parted
    refine ⟨ledger.id, ?_, ledger.nextPage, ?_⟩
    · rw [totals, base.totals.after_perm parted]
      rfl
    · intro kind
      obtain ⟨pages, space, parted⟩ := ledger.published kind
      rw [bare.2, List.append_nil] at parted
      rw [space, Heap.space_reclaim]
      exact PagedSpace.receive_alike _ parted

theorem ensure {hands : List Load} {answer : Except Fault (Option RoundReport)} {done : Coordinator}
    (ledger : Ledger base whole shares coordinator hands) (ready : base.Ready whole)
    (waited : coordinator.ensure? = some (answer, done)) :
    ∃ report, answer = .ok (some report) ∧ done.round.last = some report ∧
      report.pages = whole.length ∧ report.freed = (harvest whole).freed ∧
      report.perThread = shares ∧ done.site.heap.Alike (base.reclaim whole) ∧
      Team false done.sweepers hands ∧ done.stopped = false ∧
      done.numThreads = coordinator.numThreads ∧
      ∀ sweeper ∈ done.sweepers, sweeper.inFlight = false := by
  rw [Coordinator.ensure?_eq] at waited
  split at waited
  · cases waited
  · next failed =>
      obtain ⟨calm, _⟩ := (ledger.staffed ready).awaitAll failed
      cases calm
  · next last all =>
      obtain ⟨kept, many⟩ := ledger.awaitEach ready (fun _ member => List.mem_range.mp member) all
      have rest := ((ledger.staffed ready).awaitAll all).2.2
      obtain ⟨merged, entries, alike⟩ := kept.ended rest
      obtain ⟨counters, journal, reported⟩ := last.finalize_pending kept.pending
      rw [reported] at waited
      cases waited
      refine ⟨last.report, rfl, rfl, ?_, ?_, entries, alike, kept.team, kept.running, many, rest⟩
      · rw [← harvest_pages, ← merged]
        rfl
      · rw [← merged]
        rfl

end Ledger

def Coordinator.Settled (coordinator : Coordinator) : Prop :=
  ∀ sweeper ∈ coordinator.sweepers, sweeper.inFlight = true → 0 < sweeper.ended.permits

theorem Sweeper.await?_ready {sweeper : Sweeper}
    (settled : sweeper.inFlight = true → 0 < sweeper.ended.permits) :
    ∃ outcome next, sweeper.await? = some (outcome, next) := by
  cases flight : sweeper.inFlight with
  | false => exact ⟨none, sweeper, by simp [await?, flight]⟩
  | true =>
      have posted := settled flight
      refine ⟨sweeper.outcome, sweeper.awaited, ?_⟩
      simp only [await?, flight, if_true, acquireEnd?, Semaphore.acquire?, posted,
        Option.map_some]
      rfl

namespace Coordinator.Staffed

variable {coordinator : Coordinator} {hands : List Load}

theorem awaitEach_ready {indices : List Nat} (staffed : coordinator.Staffed hands)
    (known : ∀ index ∈ indices, index < coordinator.numThreads) (settled : coordinator.Settled) :
    ∃ later, coordinator.awaitEach? indices = some (.ok (), later) := by
  induction indices generalizing coordinator with
  | nil => exact ⟨coordinator, rfl⟩
  | cons index rest ih =>
      have bound := known index (by simp)
      have found := List.getElem?_eq_getElem bound
      obtain ⟨outcome, next, taken⟩ :=
        Sweeper.await?_ready (settled _ (List.mem_of_getElem? found))
      obtain ⟨answer, middle, waited⟩ :
          ∃ answer middle, coordinator.await? index = some (answer, middle) := by
        unfold Coordinator.await? Coordinator.takeOutcome? Coordinator.sweeper
        rw [found]
        simp only [taken, Option.map_some]
        exact ⟨_, _, rfl⟩
      have others := staffed.await_others bound waited
      obtain ⟨rfl, keeps⟩ := staffed.await bound waited
      have still : middle.Settled := by
        intro sweeper member flight
        obtain ⟨position, place⟩ := List.mem_iff_getElem?.mp member
        obtain ⟨_, before⟩ := others position sweeper place flight
        exact settled sweeper (List.mem_of_getElem? before) flight
      obtain ⟨later, all⟩ := ih keeps.staffed
        (fun other member => by rw [keeps.numThreads]; exact known other (by simp [member])) still
      refine ⟨later, ?_⟩
      rw [Coordinator.awaitEach?, waited]
      exact all

theorem ensure_ready (staffed : coordinator.Staffed hands) (settled : coordinator.Settled) :
    ∃ answer done, coordinator.ensure? = some (answer, done) := by
  obtain ⟨later, all⟩ :=
    staffed.awaitEach_ready (fun index member => List.mem_range.mp member) settled
  refine ⟨.ok later.finalize.1, later.finalize.2, ?_⟩
  rw [Coordinator.ensure?_eq, all]

/-- A round that nobody stops can be waited for, or a sweeper has a chore to do. -/
theorem progress (staffed : coordinator.Staffed hands) (running : coordinator.stopped = false) :
    (∃ before sweeper after early load late, coordinator.sweepers = before ++ sweeper :: after ∧
      hands = early ++ load :: late ∧ before.length = early.length ∧
      ∃ chore next taken later,
        Move coordinator.stopped sweeper load coordinator.site chore next taken later) ∨
      ∃ answer done, coordinator.ensure? = some (answer, done) := by
  by_cases settled : coordinator.Settled
  · exact .inr (staffed.ensure_ready settled)
  · left
    -- Somebody is in flight and has not ended, so it has a chore to do.
    simp only [Coordinator.Settled, not_forall] at settled
    obtain ⟨sweeper, member, flight, unended⟩ := settled
    obtain ⟨before, after, split⟩ := List.append_of_mem member
    have team := staffed.team
    rw [split, running] at team
    obtain ⟨early, load, late, parted, same⟩ := team.find
    subst parted
    have shake := (team.middle same).2.1
    refine ⟨before, sweeper, after, early, load, late, split, rfl, same, ?_⟩
    rw [running]
    exact Move.progress coordinator.site shake flight (by omega)

end Coordinator.Staffed

end Reclaim
