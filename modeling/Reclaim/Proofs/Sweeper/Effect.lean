import Reclaim.Proofs.Sweeper.Dues

/-! What a sweeper brings to the heap. Its chores move pages from its slot to the swept pages of their
spaces and count them on the way; nothing is assumed of what the heap held before. Each chore takes
the sweeper nearer to the end of its round. -/

namespace Reclaim

namespace Load

def Exact (load : Load) : Prop :=
  ∀ kind, load.batch.lists.get kind = mapOf (load.batch.pages.get kind)

def coming (load : Load) (kind : SpaceKind) : List Page :=
  load.batch.pages.get kind ++ renewedIn kind load.left

theorem ofPages_exact (pages : List Page) : (ofPages pages).Exact := by
  intro kind
  cases kind <;> rfl

theorem ofPages_coming (pages : List Page) (kind : SpaceKind) :
    (ofPages pages).coming kind = renewedIn kind pages := by
  cases kind <;> rfl

theorem coming_empty {load : Load} (empty : load.pages = []) (kind : SpaceKind) :
    load.coming kind = [] := by
  obtain ⟨left, held⟩ := List.append_eq_nil_iff.mp empty
  obtain ⟨data, pointer⟩ := List.append_eq_nil_iff.mp held
  rw [coming, left]
  cases kind
  · exact List.append_eq_nil_iff.mpr ⟨data, rfl⟩
  · exact List.append_eq_nil_iff.mpr ⟨pointer, rfl⟩

theorem Exact.gained {load : Load} (exact : load.Exact) (totals : SweepTotals) (page : Page)
    (left : List Page) : (Load.mk left (gained load.batch totals page)).Exact := by
  intro kind
  by_cases same : kind = page.space
  · subst same
    obtain ⟨pages, list⟩ := gained_get_same load.batch totals page
    simp only [pages, list]
    have single : mapOf [page.renewed] = .ofBlocks page.renewed.ranges := by
      rw [mapOf, List.flatMap_singleton]
    rw [exact, mapOf_append, single]
  · obtain ⟨pages, list⟩ := gained_get_other load.batch totals same
    simp only [pages, list]
    exact exact kind

theorem Exact.without {load : Load} (exact : load.Exact) (kind : SpaceKind) :
    (load.without kind).Exact := by
  intro other
  by_cases same : other = kind
  · subst same
    rw [(without_get_same load other).1, (without_get_same load other).2]
    rfl
  · rw [(without_get_other load same).1, (without_get_other load same).2]
    exact exact other

theorem coming_gained {load : Load} {page : Page} {left : List Page}
    (first : load.left = page :: left) (totals : SweepTotals) (kind : SpaceKind) :
    (Load.mk left (gained load.batch totals page)).coming kind = load.coming kind := by
  have split : renewedIn kind (page :: left) = renewedIn kind [page] ++ renewedIn kind left :=
    renewedIn_append kind [page] left
  rw [coming, coming, first, split, ← List.append_assoc]
  by_cases same : kind = page.space
  · subst same
    rw [(gained_get_same load.batch totals page).1, renewedIn_same]
  · rw [(gained_get_other load.batch totals same).1, renewedIn_other same, List.append_nil]

end Load

namespace Sweeper

def coming (sweeper : Sweeper) (load : Load) (kind : SpaceKind) : List Page :=
  renewedIn kind sweeper.assignment.pages ++ load.coming kind

def ahead (sweeper : Sweeper) (load : Load) : List Page :=
  sweeper.assignment.pages ++ load.left

def rank (sweeper : Sweeper) (load : Load) : Nat :=
  match sweeper.phase with
  | .idle => if sweeper.begun.permits = 0 then 0 else 6 + 2 * sweeper.assignment.pages.length
  | .woken => 5 + 2 * sweeper.assignment.pages.length
  | .cleared => 4 + 2 * sweeper.assignment.pages.length
  | .sweeping _ => 3 + (load.left.length + load.pages.length)
  | .swept _ => 2
  | .reported => 1
  | _ => 0

end Sweeper

structure Effect (sweeper next : Sweeper) (load taken : Load) (heap later : Heap) : Prop where
  exact : taken.Exact
  brought : ∀ kind, ∃ pages, later.space kind = (heap.space kind).receive pages ∧
    (pages ++ next.coming taken kind).Perm (sweeper.coming load kind)
  id : later.id = heap.id
  nextPage : later.nextPage = heap.nextPage

theorem Effect.still {sweeper next : Sweeper} {load : Load} (heap : Heap)
    (same : next.assignment = sweeper.assignment) (exact : load.Exact) :
    Effect sweeper next load load heap heap where
  exact := exact
  brought kind := by
    refine ⟨[], (PagedSpace.receive_nil _).symm, ?_⟩
    rw [List.nil_append, Sweeper.coming, Sweeper.coming, same]
  id := rfl
  nextPage := rfl

namespace Load

theorem room_of_coming {load : Load} {page : Page} {left : List Page} {free : FreeList}
    (exact : load.Exact) (first : load.left = page :: left)
    (lists : (free.join (mapOf (load.coming page.space))).Fits) :
    ((load.batch.lists.get page.space).join (.ofBlocks page.renewed.ranges)).Fits := by
  have single : mapOf [page.renewed] = .ofBlocks page.renewed.ranges := by
    rw [mapOf, List.flatMap_singleton]
  have split : load.coming page.space =
      (load.batch.pages.get page.space ++ [page.renewed]) ++ renewedIn page.space left := by
    have parted : renewedIn page.space (page :: left) =
        renewedIn page.space [page] ++ renewedIn page.space left :=
      renewedIn_append page.space [page] left
    rw [coming, first, parted, renewedIn_same, List.append_assoc]
  rw [split, mapOf_append, mapOf_append, single, ← exact] at lists
  exact lists.of_join_right.of_join_left

theorem publish_exact {load : Load} {heap : Heap} {kind : SpaceKind} (exact : load.Exact)
    (done : load.left = [])
    (lists : ((heap.space kind).free.join (mapOf (load.coming kind))).Fits)
    (some : load.batch.pages.get kind ≠ []) :
    load.publish heap kind =
      (.ok (), load.without kind,
        heap.setSpace kind ((heap.space kind).receive (load.batch.pages.get kind))) := by
  have room : ((heap.space kind).free.join (load.batch.lists.get kind)).Fits := by
    rw [Load.coming, done] at lists
    simpa only [exact kind, renewedIn, List.filter_nil, List.map_nil, List.append_nil] using lists
  rw [publish_eq (fun none => absurd none some) room, exact kind]
  rfl

end Load

namespace Effect

variable {sweeper next : Sweeper} {load : Load}

theorem take (heap : Heap) (phase : sweeper.phase = .cleared) (empty : load.pages = []) :
    Effect sweeper sweeper.takeBatch load (.ofPages sweeper.assignment.pages) heap heap where
  exact := Load.ofPages_exact _
  brought kind := by
    refine ⟨[], (PagedSpace.receive_nil _).symm, ?_⟩
    simp only [Sweeper.takeBatch, phase, Sweeper.coming, Load.ofPages_coming,
      Load.coming_empty empty]
    simp [Assignment.none, renewedIn]
  id := rfl
  nextPage := rfl

theorem sweep {page : Page} {left : List Page} (heap : Heap) (totals : SweepTotals)
    (same : next.assignment = sweeper.assignment) (exact : load.Exact)
    (first : load.left = page :: left) :
    Effect sweeper next load ⟨left, Load.gained load.batch totals page⟩ heap
      { heap with totals := heap.totals.record page.yielded } where
  exact := exact.gained _ _ _
  brought kind := by
    refine ⟨[], (PagedSpace.receive_nil _).symm, ?_⟩
    rw [Sweeper.coming, Sweeper.coming, same, Load.coming_gained first, List.nil_append]
  id := rfl
  nextPage := rfl

theorem publish (heap : Heap) (kind : SpaceKind) (same : next.assignment = sweeper.assignment)
    (exact : load.Exact) :
    Effect sweeper next load (load.without kind) heap
      (heap.setSpace kind ((heap.space kind).receive (load.batch.pages.get kind))) where
  exact := exact.without kind
  brought other := by
    rw [Sweeper.coming, Sweeper.coming, same, Load.coming, Load.coming]
    by_cases here : other = kind
    · subst here
      refine ⟨load.batch.pages.get other, Heap.space_setSpace_same _ _ _, ?_⟩
      rw [(Load.without_get_same load other).1]
      exact List.perm_append_comm_assoc _ _ _
    · refine ⟨[], ?_, ?_⟩
      · rw [Heap.space_setSpace_other _ _ here, PagedSpace.receive_nil]
      · rw [(Load.without_get_other load here).1]
        exact List.Perm.refl _
  id := rfl
  nextPage := rfl

end Effect

namespace Move

variable {sweeper next : Sweeper} {load taken : Load} {site later : Site} {chore : Chore}

/-- With room in the lists and in the totals no chore faults, and each has its effect. -/
theorem effect {stop : Bool} (move : Move stop sweeper load site chore next taken later)
    (shake : Handshake stop sweeper load) (exact : load.Exact)
    (sweepable : ∀ page ∈ load.left, page.Sweepable)
    (lists : ∀ kind, ((site.heap.space kind).free.join (mapOf (load.coming kind))).Fits)
    (totals : (sweeper.due load).Fits) :
    chore.fault? = none ∧ load.Regular site.heap ∧
      Effect sweeper next load taken site.heap later.heap := by
  have sweep {page : Page} {left : List Page} (first : load.left = page :: left)
      (yields : (load.batch.yielded.plus (harvest load.left)).Fits) :
      load.sweepNext site.heap =
        (.ok (), ⟨left, Load.gained load.batch site.heap.totals page⟩,
          { site.heap with totals := site.heap.totals.record page.yielded }) := by
    rw [first, harvest_cons, ← BatchYield.plus_assoc] at yields
    exact Load.sweepNext_eq site.heap first (sweepable page (by simp [first]))
      (Load.room_of_coming exact first (lists page.space)) yields.of_plus_left
  -- Only a sweeper in the middle of its batch has pages left, and there the totals have room.
  have regular : load.Regular site.heap := by
    intro page left first _
    apply sweep first
    cases phase : sweeper.phase with
    | sweeping batch => simpa only [Sweeper.due, phase] using totals
    | _ =>
        have none := (List.append_eq_nil_iff.mp (shake.hand (by rw [phase]; rfl))).1
        rw [first] at none
        cases none
  cases move with
  | wake taken =>
      obtain ⟨_, _, rfl⟩ := Sweeper.takePermit?_some taken
      exact ⟨rfl, regular, .still _ rfl exact⟩
  | heed phase => exact ⟨rfl, regular, .still _ (by simp only [Sweeper.heed, phase]) exact⟩
  | take phase => exact ⟨rfl, regular, .take _ phase (shake.hand (by rw [phase]; rfl))⟩
  | @sweep _ _ _ page left phase first =>
      rw [sweep first (by simpa only [Sweeper.due, phase] using totals)]
      exact ⟨rfl, regular, .sweep _ _ rfl exact first⟩
  | publish kind phase done some =>
      rw [Load.publish_exact exact done (lists kind) some]
      exact ⟨rfl, regular, .publish _ kind rfl exact⟩
  | conclude phase done =>
      exact ⟨rfl, regular, .still _ (by simp only [Sweeper.concludeBatch, phase]) exact⟩
  | leave phase =>
      exact ⟨rfl, regular, .still _ (by simp only [Sweeper.leaveOutcome, phase]) exact⟩
  | signal phase =>
      exact ⟨rfl, regular, .still _ (by simp only [Sweeper.signalEnd, phase]) exact⟩
  | acknowledge phase =>
      exact ⟨rfl, regular, .still _ (by simp only [Sweeper.acknowledge, phase]) exact⟩

theorem counted {stop : Bool} (move : Move stop sweeper load site chore next taken later)
    (calm : chore.fault? = none) (young : ∀ page ∈ chore.sweeps, page.sweeps + 1 < Word.halfLimit)
    (shake : Handshake stop sweeper load) (regular : load.Regular site.heap) :
    (chore.sweeps ++ next.ahead taken).Perm (sweeper.ahead load) ∧
      later.heap.totals = site.heap.totals.after chore.sweeps := by
  have still {other : Sweeper} (same : other.assignment = sweeper.assignment) :
      ([] ++ other.ahead load).Perm (sweeper.ahead load) := by
    rw [List.nil_append, Sweeper.ahead, Sweeper.ahead, same]
  cases move with
  | wake taken =>
      obtain ⟨_, _, rfl⟩ := Sweeper.takePermit?_some taken
      exact ⟨still rfl, rfl⟩
  | heed phase => exact ⟨still (by simp only [Sweeper.heed, phase]), rfl⟩
  | take phase =>
      have left : load.left = [] := (List.append_eq_nil_iff.mp (shake.hand (by rw [phase]; rfl))).1
      refine ⟨?_, rfl⟩
      simp only [Sweeper.takeBatch, phase, Sweeper.ahead, left, Chore.sweeps]
      simp [Assignment.none, Load.ofPages]
  | sweep phase first =>
      rw [Sweeper.endure_calm fun fault failed => by simp [Chore.fault?, failed] at calm,
        regular _ _ first (young _ (by simp [Chore.sweeps]))]
      refine ⟨?_, rfl⟩
      rw [Sweeper.ahead, Sweeper.ahead, first, Chore.sweeps, List.singleton_append]
      exact List.perm_middle.symm
  | publish kind phase done some =>
      rw [Sweeper.endure_calm fun fault failed => by simp [Chore.fault?, failed] at calm]
      refine ⟨still rfl, ?_⟩
      simp only [Load.publish, Heap.publishBatch]
      split <;> rfl
  | conclude phase done => exact ⟨still (by simp only [Sweeper.concludeBatch, phase]), rfl⟩
  | leave phase => exact ⟨still (by simp only [Sweeper.leaveOutcome, phase]), rfl⟩
  | signal phase => exact ⟨still (by simp only [Sweeper.signalEnd, phase]), rfl⟩
  | acknowledge phase => exact ⟨still (by simp only [Sweeper.acknowledge, phase]), rfl⟩

/-- A sweeper that nobody stops gets nearer to the end of its round with each of its chores. -/
theorem rank (move : Move false sweeper load site chore next taken later)
    (calm : chore.fault? = none) (young : ∀ page ∈ chore.sweeps, page.sweeps + 1 < Word.halfLimit)
    (shake : Handshake false sweeper load) (regular : load.Regular site.heap) :
    next.rank taken < sweeper.rank load := by
  have permits := shake.permits rfl
  cases move with
  | wake taken =>
      obtain ⟨idle, some, rfl⟩ := Sweeper.takePermit?_some taken
      simp only [Sweeper.rank, idle]
      rw [if_neg (by omega)]
      omega
  | heed phase =>
      simp only [Sweeper.heed, Sweeper.rank, phase, Bool.false_eq_true, if_false]
      omega
  | take phase =>
      simp only [Sweeper.takeBatch, Sweeper.rank, phase, Load.ofPages_pages]
      simp only [Load.ofPages]
      omega
  | @sweep _ _ _ page left phase first =>
      rw [Sweeper.endure_calm fun fault failed => by simp [Chore.fault?, failed] at calm,
        regular _ _ first (young page (by simp [Chore.sweeps]))]
      have grown := (Load.gained_pages_perm load.batch site.heap.totals page).length_eq
      simp only [List.length_append, List.length_cons] at grown
      simp only [Sweeper.rank, phase, Load.pages, first, List.length_append, List.length_cons]
      omega
  | publish kind phase done some =>
      rw [Sweeper.endure_calm fun fault failed => by simp [Chore.fault?, failed] at calm]
      have fewer := (load.without_pages_perm kind).length_eq
      have positive := List.length_pos_of_ne_nil some
      rw [List.length_append] at fewer
      have rest : (load.publish site.heap kind).2.1 = load.without kind := rfl
      have same : (load.without kind).left = load.left := rfl
      simp only [Sweeper.rank, phase, rest, same]
      omega
  | conclude phase done =>
      simp only [Sweeper.concludeBatch, Sweeper.rank, phase]
      omega
  | leave phase =>
      simp only [Sweeper.leaveOutcome, Sweeper.rank, phase]
      omega
  | signal phase =>
      -- The permit of the round is the one in hand, so none waits on `begun`.
      have spent : sweeper.begun.permits = 0 := by
        rw [phase] at permits
        simp only [SweeperPhase.token] at permits
        split at permits <;> omega
      simp only [Sweeper.signalEnd, Sweeper.rank, phase, spent, if_true]
      omega
  | acknowledge phase => exact absurd phase (shake.running rfl).1

theorem awake {stop : Bool} (site : Site) (shake : Handshake stop sweeper load)
    (permit : sweeper.phase = .idle → 0 < sweeper.begun.permits)
    (inside : sweeper.phase ≠ .exited) :
    ∃ chore next taken later, Move stop sweeper load site chore next taken later := by
  cases phase : sweeper.phase with
  | idle =>
      have some := permit phase
      have woken : sweeper.takePermit? =
          Option.some { sweeper with begun := ⟨sweeper.begun.permits - 1⟩, phase := .woken } := by
        simp only [Sweeper.takePermit?, phase, Semaphore.acquire?, some, if_true, Option.map_some]
      exact ⟨_, _, _, _, .wake woken⟩
  | woken => exact ⟨_, _, _, _, .heed phase⟩
  | cleared => exact ⟨_, _, _, _, .take phase⟩
  | sweeping batch =>
      cases left : load.left with
      | cons page rest => exact ⟨_, _, _, _, .sweep phase left⟩
      | nil =>
          by_cases data : load.batch.pages.get .data = []
          · by_cases pointer : load.batch.pages.get .pointer = []
            · have empty : load.pages = [] :=
                List.append_eq_nil_iff.mpr ⟨left, List.append_eq_nil_iff.mpr ⟨data, pointer⟩⟩
              exact ⟨_, _, _, _, .conclude phase empty⟩
            · exact ⟨_, _, _, _, .publish .pointer phase left pointer⟩
          · exact ⟨_, _, _, _, .publish .data phase left data⟩
  | swept outcome => exact ⟨_, _, _, _, .leave phase⟩
  | reported => exact ⟨_, _, _, _, .signal phase⟩
  | leaving => exact ⟨_, _, _, _, .acknowledge phase⟩
  | exited => exact absurd phase inside
  | died => exact absurd phase shake.alive

theorem progress (site : Site) (shake : Handshake false sweeper load)
    (flight : sweeper.inFlight = true) (unended : sweeper.ended.permits = 0) :
    ∃ chore next taken later, Move false sweeper load site chore next taken later := by
  have permits := shake.permits rfl
  rw [unended, flight, if_pos rfl] at permits
  refine awake site shake (fun phase => ?_) (shake.running rfl).2
  rw [phase] at permits
  simp only [SweeperPhase.token] at permits
  omega

end Move

end Reclaim
