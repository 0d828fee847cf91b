import Reclaim.Proofs.Page.Search

/-! The life of a page. A page is filled from the bottom, marked, swept, given back its turn, and filled
again from blocks of a free list, in any order that its flag allows. Whatever its life has been, its
objects are arranged in whole words; until its first sweep they leave no hole below the top, and from
then on the top is out of reach. -/

namespace Reclaim

namespace Page

inductive Use where
  | bump (request : Nat)
  | mark (offset : Nat)
  | sweep
  | recycle
  | place (offset size : Nat)

structure Spares (page : Page) (block : FreeBlock) : Prop extends page.Leaves block where
  offsetWords : block.offset % Word.bytes = 0
  sizeWords : block.size % Word.bytes = 0

inductive Lifetime (id : PageId) (space : SpaceKind) : List Use → Page → Prop
  | fresh : Lifetime id space [] (fresh id space)
  | bump {uses : List Use} {page : Page} (earlier : Lifetime id space uses page) (request : Nat) :
      Lifetime id space (uses ++ [.bump request]) (page.bump request).2
  | mark {uses : List Use} {page : Page} (earlier : Lifetime id space uses page) (offset : Nat) :
      Lifetime id space (uses ++ [.mark offset]) (page.mark offset).2
  | sweep {uses : List Use} {page next : Page} {list left : FreeList} {total : PageYield}
      (earlier : Lifetime id space uses page) (unswept : page.swept = false)
      (swept : page.sweep list = .ok (total, next, left)) :
      Lifetime id space (uses ++ [.sweep]) next
  | recycle {uses : List Use} {page : Page} (earlier : Lifetime id space uses page) :
      Lifetime id space (uses ++ [.recycle]) page.markUnswept
  | place {uses : List Use} {page next : Page} {block : FreeBlock}
      (earlier : Lifetime id space uses page) (swept : page.swept = true)
      (spares : page.Spares block) (placed : page.place block.offset block.size = .ok next) :
      Lifetime id space (uses ++ [.place block.offset block.size]) next

variable {id : PageId} {space : SpaceKind} {uses : List Use} {page next : Page}

theorem allocatedBytes_eq (page : Page) : page.allocatedBytes = (page.objects.map (·.size)).sum := rfl

theorem liveBytes_eq (page : Page) :
    page.liveBytes = ((page.objects.filter (·.marked)).map (·.size)).sum := rfl

theorem sweep_page {list left : FreeList} {total : PageYield}
    (swept : page.sweep list = .ok (total, next, left)) : next = page.renewed := by
  unfold sweep at swept
  split at swept
  next => cases swept
  next =>
    dsimp only at swept
    split at swept
    next => cases swept
    next =>
      unfold Word.addHalf at swept
      split at swept
      next => cases swept
      next sweeps counted =>
        split at counted
        next =>
          cases counted
          cases swept
          rfl
        next => cases counted

structure Steady (uses : List Use) (page : Page) : Prop where
  sound : page.Sound
  words : ∀ object ∈ page.objects, object.offset % Word.bytes = 0 ∧ object.size % Word.bytes = 0
  level : page.top % Word.bytes = 0
  young : .sweep ∉ uses → page.swept = false ∧ page.top = headerBytes + page.allocatedBytes
  spent : .sweep ∈ uses → page.top = pageBytes

namespace Steady

theorem fresh : Steady [] (fresh id space) where
  sound := fresh_sound id space
  words := nofun
  level := (by decide : headerBytes % Word.bytes = 0)
  young _ := ⟨rfl, rfl⟩
  spent := nofun

theorem bump (steady : Steady uses page) (request : Nat) :
    Steady (uses ++ [.bump request]) (page.bump request).2 := by
  have sound : (page.bump request).2.Sound := steady.sound.bump rfl
  have same : .sweep ∈ uses ++ [.bump request] ↔ .sweep ∈ uses := by simp
  rcases page.bump_eq request with unchanged | ⟨size, unswept, positive, rounded, fits, grown⟩
  · rw [unchanged]
    constructor
    · exact steady.sound
    · exact steady.words
    · exact steady.level
    · rw [same]
      exact steady.young
    · rw [same]
      exact steady.spent
  · have whole := (Word.roundUp?_eq_some rounded).2.2.1
    have level := steady.level
    rw [grown] at sound ⊢
    unfold Word.bytes at whole level
    constructor
    · exact sound
    · intro object member
      rcases List.mem_append.mp member with earlier | added
      · exact steady.words object earlier
      · obtain rfl := List.mem_singleton.mp added
        exact ⟨level, whole⟩
    · unfold Word.bytes
      dsimp only
      omega
    · intro unused
      rw [same] at unused
      obtain ⟨_, top⟩ := steady.young unused
      rw [allocatedBytes_eq] at top ⊢
      refine ⟨unswept, ?_⟩
      rw [List.map_append, List.sum_append, List.map_singleton, List.sum_singleton]
      dsimp only
      omega
    · -- A page whose top is out of reach is not filled from the bottom.
      intro used
      have top := steady.spent (same.mp used)
      omega

theorem mark (steady : Steady uses page) (offset : Nat) :
    Steady (uses ++ [.mark offset]) (page.mark offset).2 := by
  have sound : (page.mark offset).2.Sound := steady.sound.mark rfl
  have same : .sweep ∈ uses ++ [.mark offset] ↔ .sweep ∈ uses := by simp
  rw [mark_spec steady.sound.arranged] at sound ⊢
  constructor
  · exact sound
  · intro object member
    obtain ⟨old, inside, rfl⟩ := List.mem_map.mp member
    have words := steady.words old inside
    split
    · exact words
    · exact words
  · exact steady.level
  · intro unused
    rw [same] at unused
    obtain ⟨unswept, top⟩ := steady.young unused
    have sizes : ((page.objects.map fun object =>
        if object.offset = offset then { object with marked := true } else object).map (·.size)) =
        page.objects.map (·.size) := by
      rw [List.map_map]
      refine List.map_congr_left ?_
      intro object _
      show (if object.offset = offset then { object with marked := true } else object).size = _
      split
      · rfl
      · rfl
    rw [allocatedBytes_eq] at top ⊢
    dsimp only
    rw [sizes]
    exact ⟨unswept, top⟩
  · intro used
    exact steady.spent (same.mp used)

theorem renewed (steady : Steady uses page) : Steady (uses ++ [.sweep]) page.renewed := by
  constructor
  · exact steady.sound.renewed
  · intro object member
    obtain ⟨old, kept, rfl⟩ := List.mem_map.mp member
    exact steady.words old (List.mem_filter.mp kept).1
  · show pageBytes % Word.bytes = 0
    decide
  · intro unused
    simp at unused
  · intro _
    rfl

theorem recycle (steady : Steady uses page) : Steady (uses ++ [.recycle]) page.markUnswept := by
  have same : .sweep ∈ uses ++ [.recycle] ↔ .sweep ∈ uses := by simp
  constructor
  · exact steady.sound.markUnswept
  · exact steady.words
  · exact steady.level
  · intro unused
    rw [same] at unused
    exact ⟨rfl, (steady.young unused).2⟩
  · intro used
    exact steady.spent (same.mp used)

theorem place {block : FreeBlock} (steady : Steady uses page) (swept : page.swept = true)
    (spares : page.Spares block) : ∃ next, page.place block.offset block.size = .ok next ∧
      Steady (uses ++ [.place block.offset block.size]) next := by
  obtain ⟨objects, placed, sound, gained⟩ := steady.sound.place swept spares.toLeaves
  refine ⟨_, placed, sound, ?_, steady.level, ?_, ?_⟩
  · intro object member
    rcases List.mem_cons.mp (gained.mem_iff.mp member) with rfl | before
    · exact ⟨spares.offsetWords, spares.sizeWords⟩
    · exact steady.words object before
  · intro unused
    have waiting := (steady.young fun used => unused (by simp [used])).1
    rw [swept] at waiting
    cases waiting
  · intro _
    exact steady.sound.full swept

end Steady

theorem Lifetime.steady (life : Lifetime id space uses page) : Steady uses page := by
  induction life with
  | fresh => exact .fresh
  | bump _ request ih => exact ih.bump request
  | mark _ offset ih => exact ih.mark offset
  | sweep _ _ swept ih =>
      rw [sweep_page swept]
      exact ih.renewed
  | recycle _ ih => exact ih.recycle
  | place _ swept spares placed ih =>
      obtain ⟨other, same, steady⟩ := ih.place swept spares
      rw [placed] at same
      cases same
      exact steady

/-- A page that has never been swept has room for whatever fits beside its objects. -/
theorem Steady.bump_isSome (steady : Steady uses page) (unused : .sweep ∉ uses) (request : Nat) :
    (page.bump request).1.isSome = true ↔ 0 < request ∧ ∃ size, request ≤ size ∧
      size < request + Word.bytes ∧ size % Word.bytes = 0 ∧
      page.allocatedBytes + size ≤ objectAreaBytes := by
  obtain ⟨unswept, top⟩ := steady.young unused
  have area : headerBytes + objectAreaBytes = pageBytes := by decide
  constructor
  · intro served
    rcases page.bump_eq request with refused | ⟨size, _, positive, rounded, fits, _⟩
    · rw [refused] at served
      cases served
    · obtain ⟨enough, close, whole, _⟩ := Word.roundUp?_eq_some rounded
      unfold Word.bytes at close whole
      refine ⟨by omega, size, enough, close, whole, ?_⟩
      omega
  · rintro ⟨positive, size, enough, close, whole, room⟩
    have inWord : size < Word.limit := by
      have small : objectAreaBytes < Word.limit := by decide
      omega
    have nonempty : request ≠ 0 := by omega
    have fits : page.top + size ≤ pageBytes := by omega
    unfold Page.bump
    simp [nonempty, unswept, Word.roundUp?_least enough close whole, inWord, fits]

theorem Steady.bump_spent (steady : Steady uses page) (used : .sweep ∈ uses) (request : Nat) :
    page.bump request = (none, page) := by
  have top := steady.spent used
  rcases page.bump_eq request with refused | ⟨size, _, positive, _, fits, _⟩
  · exact refused
  · omega

theorem liveBytes_le (page : Page) : page.liveBytes ≤ page.allocatedBytes := by
  rw [liveBytes_eq, allocatedBytes_eq]
  induction page.objects with
  | nil => exact Nat.le_refl _
  | cons object rest ih =>
      rw [List.filter_cons]
      split
      · rw [List.map_cons, List.map_cons, List.sum_cons, List.sum_cons]
        omega
      · rw [List.map_cons, List.sum_cons]
        omega

structure Wellformed (uses : List Use) (page : Page) : Prop where
  increasing : page.objects.Pairwise fun object later => object.offset < later.offset
  apart : page.objects.Pairwise fun object later => object.stop ≤ later.offset
  inside : ∀ object ∈ page.objects, headerBytes ≤ object.offset ∧ object.stop ≤ pageBytes
  words : ∀ object ∈ page.objects,
    object.offset % Word.bytes = 0 ∧ object.size % Word.bytes = 0 ∧ 0 < object.size
  contains : ∀ offset, page.containsObject offset = true ↔
    ∃ object ∈ page.objects, object.offset = offset
  marked : ∀ offset, page.isMarked offset = true ↔
    ∃ object ∈ page.objects, object.offset = offset ∧ object.marked = true
  marks : ∀ offset, ((page.mark offset).1 = true ↔ ∃ object ∈ page.objects, object.offset = offset) ∧
    (page.mark offset).2 = { page with objects := page.objects.map fun object =>
      if object.offset = offset then { object with marked := true } else object }
  bytes : page.liveBytes ≤ page.allocatedBytes ∧ page.allocatedBytes ≤ objectAreaBytes
  dead : page.deadBytes = .ok (page.allocatedBytes - page.liveBytes)
  reclaimable : page.reclaimableBytes = .ok (objectAreaBytes - page.liveBytes)
  placed : page.swept = true → ∀ block, page.Spares block →
    ∃ next, page.place block.offset block.size = .ok next
  filled : .sweep ∉ uses → ∀ request, (page.bump request).1.isSome = true ↔
    0 < request ∧ ∃ size, request ≤ size ∧ size < request + Word.bytes ∧ size % Word.bytes = 0 ∧
      page.allocatedBytes + size ≤ objectAreaBytes
  closed : .sweep ∈ uses → ∀ request, page.bump request = (none, page)

/-- At any time of its life the objects of a page stand in order and apart inside the object area, and
an offset is looked up as a scan of all of them would. Before its first sweep the page takes what fits
at its top, afterwards nothing. -/
theorem Lifetime.wellformed (life : Lifetime id space uses page) : Wellformed uses page := by
  have steady := life.steady
  have arranged := steady.sound.arranged
  have live := page.liveBytes_le
  have allocated : page.allocatedBytes ≤ objectAreaBytes := by
    have filled := steady.sound.bytes
    omega
  constructor
  · exact arranged.increasing
  · exact arranged.apart
  · intro object member
    have bounds := arranged.bounds member
    exact ⟨bounds.1, bounds.2.2⟩
  · intro object member
    obtain ⟨offset, size⟩ := steady.words object member
    exact ⟨offset, size, (arranged.bounds member).2.1⟩
  · intro offset
    exact containsObject_iff arranged offset
  · intro offset
    exact isMarked_iff arranged offset
  · intro offset
    rw [mark_spec arranged]
    exact ⟨containsObject_iff arranged offset, rfl⟩
  · exact ⟨live, allocated⟩
  · exact Word.sub_eq_ok.mpr ⟨live, rfl⟩
  · exact Word.sub_eq_ok.mpr ⟨by omega, rfl⟩
  · intro swept block spares
    obtain ⟨next, placed, _⟩ := steady.place swept spares
    exact ⟨next, placed⟩
  · intro unused request
    exact steady.bump_isSome unused request
  · intro used request
    exact steady.bump_spent used request

def sampleUses : List Use :=
  -- Three objects, two of them marked before the sweep; the free block below them then takes a
  -- smaller object, and the page gets its next turn.
  [.bump 20, .bump 100, .bump 40, .mark 88, .mark 192, .sweep, .place 64 16, .recycle, .mark 64,
    .mark 88]

def usedPage (objects : List HeapObject) (top : Nat) (swept : Bool) (sweeps : Nat) : Page :=
  ⟨⟨0⟩, .data, objects, top, swept, sweeps⟩

theorem Lifetime.mark_to {offset : Nat} {hit : Bool} (life : Lifetime id space uses page)
    (marked : page.mark offset = (hit, next)) : Lifetime id space (uses ++ [.mark offset]) next := by
  have later := life.mark offset
  rwa [marked] at later

theorem sampleUses_life : Lifetime ⟨0⟩ .data sampleUses
    (usedPage [⟨64, 16, true⟩, ⟨88, 104, true⟩, ⟨192, 40, false⟩] pageBytes false 1) := by
  have filled : Lifetime ⟨0⟩ .data (sampleUses.take 3)
      (usedPage [⟨64, 24, false⟩, ⟨88, 104, false⟩, ⟨192, 40, false⟩] 232 false 0) :=
    ((Lifetime.fresh.bump 20).bump 100).bump 40
  have first : Lifetime ⟨0⟩ .data (sampleUses.take 4)
      (usedPage [⟨64, 24, false⟩, ⟨88, 104, true⟩, ⟨192, 40, false⟩] 232 false 0) :=
    filled.mark_to (show _ = (true, _) by cbv)
  have marked : Lifetime ⟨0⟩ .data (sampleUses.take 5)
      (usedPage [⟨64, 24, false⟩, ⟨88, 104, true⟩, ⟨192, 40, true⟩] 232 false 0) :=
    first.mark_to (show _ = (true, _) by cbv)
  have swept : Lifetime ⟨0⟩ .data (sampleUses.take 6)
      (usedPage [⟨88, 104, false⟩, ⟨192, 40, false⟩] pageBytes true 1) := by
    have done : (usedPage [⟨64, 24, false⟩, ⟨88, 104, true⟩, ⟨192, 40, true⟩] 232 false 0).sweep
        .empty = .ok (⟨3888, 0, 3864, 1⟩,
          usedPage [⟨88, 104, false⟩, ⟨192, 40, false⟩] pageBytes true 1,
          ⟨[⟨⟨0⟩, 64, 24⟩], [⟨⟨0⟩, 232, 3864⟩], [], [], 3888, 0⟩) := by cbv
    exact marked.sweep rfl done
  have placed : Lifetime ⟨0⟩ .data (sampleUses.take 7)
      (usedPage [⟨64, 16, false⟩, ⟨88, 104, false⟩, ⟨192, 40, false⟩] pageBytes true 1) := by
    have spares : (usedPage [⟨88, 104, false⟩, ⟨192, 40, false⟩] pageBytes true 1).Spares
        ⟨⟨0⟩, 64, 16⟩ :=
      ⟨⟨rfl, by decide, by decide, by decide, by decide⟩, by decide, by decide⟩
    exact swept.place rfl spares (by cbv)
  have again : Lifetime ⟨0⟩ .data (sampleUses.take 9)
      (usedPage [⟨64, 16, true⟩, ⟨88, 104, false⟩, ⟨192, 40, false⟩] pageBytes false 1) :=
    placed.recycle.mark_to (show _ = (true, _) by cbv)
  exact again.mark_to (show _ = (true, _) by cbv)

theorem sampleUses_wellformed : ∃ page, Lifetime ⟨0⟩ .data sampleUses page ∧
    page.objects = [⟨64, 16, true⟩, ⟨88, 104, true⟩, ⟨192, 40, false⟩] ∧
    Wellformed sampleUses page :=
  ⟨_, sampleUses_life, rfl, sampleUses_life.wellformed⟩

end Page

end Reclaim
