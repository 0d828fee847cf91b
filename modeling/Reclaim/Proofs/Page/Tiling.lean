import Reclaim.Proofs.Page.Lifetime

/-! A sweep against the page that it sweeps. The gaps that the sweep walks over and the survivors
together cover the object area byte for byte, whatever mix of live and dead objects, old holes and small
remainders the page has come to. Of the gaps the list gets the large ones and counts the others. -/

namespace Reclaim

namespace Page

def reached (cursor : Nat) (objects : List HeapObject) : Nat :=
  objects.foldl (fun _ object => object.stop) cursor

def largeGaps (gaps : List Gap) : List Gap := gaps.filter fun gap => decide (minBlockBytes ≤ gap.size)

def smallGaps (gaps : List Gap) : List Gap := gaps.filter fun gap => decide (gap.size < minBlockBytes)

structure Tiles (survivors : List HeapObject) (gaps : List Gap) : Prop where
  maximal : ∀ gap, gap ∈ gaps ↔ IsGap headerBytes survivors gap
  ordered : gaps.Pairwise fun gap later => gap.offset + gap.size < later.offset
  clear : ∀ gap ∈ gaps, ∀ object ∈ survivors,
    object.stop ≤ gap.offset ∨ gap.offset + gap.size ≤ object.offset
  covers : ∀ byte, headerBytes ≤ byte → byte < pageBytes →
    ((∃ gap ∈ gaps, gap.offset ≤ byte ∧ byte < gap.offset + gap.size) ↔
      ∀ object ∈ survivors, byte < object.offset ∨ object.stop ≤ byte)
  walked : ∀ before object after, survivors = before ++ object :: after →
    reached headerBytes before ≤ object.offset ∧
      ∃ front, gaps = front ++ gapsFrom (reached headerBytes before) (object :: after)
  ended : reached headerBytes survivors ≤ pageBytes ∧
    ∃ front, gaps = front ++ gapsFrom (reached headerBytes survivors) []

structure Reclaims (page : Page) (list : FreeList) (gaps : List Gap) (total : PageYield) (next : Page)
    (left : FreeList) : Prop where
  kept : next = { page with
    objects := (page.objects.filter (·.marked)).map fun object => { object with marked := false }
    top := pageBytes
    swept := true
    sweeps := page.sweeps + 1 }
  dropped : total.dropped = page.objects.countP fun object => !object.marked
  listed : ∀ category, left.blocksIn category = list.blocksIn category ++
    ((largeGaps gaps).map (Gap.block page.id)).filter fun block =>
      decide (Category.ofSize block.size = category)
  available : left.available = list.available + total.freed
  lost : left.wasted = list.wasted + total.wasted
  freed : total.freed = ((largeGaps gaps).map (·.size)).sum
  wasted : total.wasted = ((smallGaps gaps).map (·.size)).sum
  reclaimable : page.reclaimableBytes = .ok (total.freed + total.wasted)
  largest : ∀ gap ∈ largeGaps gaps, gap.size ≤ total.largest
  attained : (largeGaps gaps = [] ∧ total.largest = 0) ∨ ∃ gap ∈ largeGaps gaps, gap.size = total.largest

section Walk

variable {cursor : Nat} {objects before after : List HeapObject} {object : HeapObject}

theorem Arranged.reached_le (arranged : Arranged cursor (before ++ object :: after)) :
    reached cursor before ≤ object.offset := by
  induction before generalizing cursor with
  | nil => exact arranged.1
  | cons first rest ih => exact ih arranged.2.2

theorem Arranged.reached_end (arranged : Arranged cursor objects) :
    reached cursor objects ≤ pageBytes := by
  induction objects generalizing cursor with
  | nil => exact arranged
  | cons first rest ih => exact ih arranged.2.2

theorem gapsFrom_append (cursor : Nat) (before after : List HeapObject) :
    ∃ front, gapsFrom cursor (before ++ after) = front ++ gapsFrom (reached cursor before) after := by
  induction before generalizing cursor with
  | nil => exact ⟨[], rfl⟩
  | cons first rest ih =>
      obtain ⟨front, later⟩ := ih first.stop
      rw [List.cons_append, gapsFrom]
      by_cases room : cursor < first.offset
      · refine ⟨⟨cursor, first.offset - cursor⟩ :: front, ?_⟩
        rw [if_pos room, later]
        rfl
      · refine ⟨front, ?_⟩
        rw [if_neg room, later]
        rfl

theorem vacant_iff_gap (arranged : Arranged cursor objects) (byte : Nat) :
    Vacant cursor objects byte ↔
      ∃ gap ∈ gapsFrom cursor objects, gap.offset ≤ byte ∧ byte < gap.offset + gap.size := by
  constructor
  · intro vacant
    induction objects generalizing cursor with
    | nil =>
        obtain ⟨low, high⟩ := vacant_nil.mp vacant
        have room : cursor < pageBytes := by omega
        refine ⟨⟨cursor, pageBytes - cursor⟩, ?_, low, ?_⟩
        · rw [gapsFrom, if_pos room]
          exact List.mem_singleton.mpr rfl
        · dsimp only
          omega
    | cons first rest ih =>
        rw [gapsFrom]
        rcases (vacant_cons arranged).mp vacant with ⟨low, high⟩ | inRest
        · have room : cursor < first.offset := by omega
          refine ⟨⟨cursor, first.offset - cursor⟩, ?_, low, ?_⟩
          · rw [if_pos room]
            exact List.mem_cons_self
          · dsimp only
            omega
        · obtain ⟨gap, member, bounds⟩ := ih arranged.2.2 inRest
          refine ⟨gap, ?_, bounds⟩
          split
          · exact List.mem_cons_of_mem _ member
          · exact member
  · rintro ⟨gap, member, low, high⟩
    exact ((mem_gapsFrom arranged).mp member).vacant byte low high

theorem Arranged.tiles {survivors : List HeapObject} (arranged : Arranged headerBytes survivors) :
    Tiles survivors (gapsFrom headerBytes survivors) := by
  constructor
  · intro gap
    exact mem_gapsFrom arranged
  · exact gapsFrom_pairwise arranged
  · intro gap member object recorded
    exact arranged.gap_clear member recorded
  · intro byte low high
    rw [← vacant_iff_gap arranged]
    unfold Vacant
    constructor
    · intro vacant
      exact vacant.2.2
    · intro clear
      exact ⟨low, high, clear⟩
  · intro before object after split
    rw [split] at arranged ⊢
    exact ⟨arranged.reached_le, gapsFrom_append headerBytes before (object :: after)⟩
  · have walk := gapsFrom_append headerBytes survivors []
    rw [List.append_nil] at walk
    exact ⟨arranged.reached_end, walk⟩

end Walk

section Blocks

variable (id : PageId) (gaps : List Gap)

theorem block_tracked (gap : Gap) : (gap.block id).tracked = decide (minBlockBytes ≤ gap.size) := rfl

theorem bytes_blocks : FreeBlock.bytes (gaps.map (Gap.block id)) = (gaps.map (·.size)).sum := by
  unfold FreeBlock.bytes
  rw [List.map_map]
  rfl

theorem keptBytes_blocks :
    FreeBlock.keptBytes (gaps.map (Gap.block id)) = ((largeGaps gaps).map (·.size)).sum := by
  unfold FreeBlock.keptBytes
  rw [List.filter_map]
  exact bytes_blocks id (largeGaps gaps)

theorem lostBytes_blocks :
    FreeBlock.lostBytes (gaps.map (Gap.block id)) = ((smallGaps gaps).map (·.size)).sum := by
  have same : gaps.filter ((fun block : FreeBlock => !block.tracked) ∘ Gap.block id) =
      smallGaps gaps := by
    refine List.filter_congr ?_
    intro gap _
    rw [Function.comp_apply, block_tracked]
    by_cases large : minBlockBytes ≤ gap.size
    · have small : ¬ gap.size < minBlockBytes := by omega
      simp [large, small]
    · have small : gap.size < minBlockBytes := by omega
      simp [large, small]
  unfold FreeBlock.lostBytes
  rw [List.filter_map, same]
  exact bytes_blocks id (smallGaps gaps)

theorem filter_goesTo_blocks (category : Category) :
    (gaps.map (Gap.block id)).filter (FreeBlock.goesTo category) =
      ((largeGaps gaps).map (Gap.block id)).filter fun block =>
        decide (Category.ofSize block.size = category) := by
  have kept : (largeGaps gaps).map (Gap.block id) =
      (gaps.map (Gap.block id)).filter FreeBlock.tracked := by
    rw [List.filter_map]
    rfl
  rw [kept, List.filter_filter]
  refine List.filter_congr ?_
  intro block _
  unfold FreeBlock.goesTo
  exact Bool.and_comm _ _

theorem largestKept_spec :
    (∀ gap ∈ largeGaps gaps, gap.size ≤ FreeBlock.largestKept (gaps.map (Gap.block id))) ∧
      ((largeGaps gaps = [] ∧ FreeBlock.largestKept (gaps.map (Gap.block id)) = 0) ∨
        ∃ gap ∈ largeGaps gaps, gap.size = FreeBlock.largestKept (gaps.map (Gap.block id))) := by
  induction gaps with
  | nil => exact ⟨nofun, Or.inl ⟨rfl, rfl⟩⟩
  | cons first rest ih =>
      obtain ⟨bound, attained⟩ := ih
      rw [List.map_cons, FreeBlock.largestKept_cons, block_tracked]
      by_cases large : minBlockBytes ≤ first.size
      · have grown : largeGaps (first :: rest) = first :: largeGaps rest := by
          unfold largeGaps
          exact List.filter_cons_of_pos (by simpa using large)
        rw [grown, if_pos (by simpa using large)]
        have size : (first.block id).size = first.size := rfl
        rw [size]
        constructor
        · intro gap member
          rcases List.mem_cons.mp member with rfl | inRest
          · exact Nat.le_max_left _ _
          · have below := bound gap inRest
            omega
        · right
          by_cases beaten : first.size ≤ FreeBlock.largestKept (rest.map (Gap.block id))
          · rcases attained with ⟨_, none⟩ | ⟨gap, member, best⟩
            · exact ⟨first, by simp, by omega⟩
            · exact ⟨gap, by simp [member], by omega⟩
          · exact ⟨first, by simp, by omega⟩
      · have same : largeGaps (first :: rest) = largeGaps rest := by
          unfold largeGaps
          exact List.filter_cons_of_neg (by simpa using large)
        rw [same, if_neg (by simpa using large)]
        exact ⟨bound, attained⟩

theorem large_add_small :
    ((largeGaps gaps).map (·.size)).sum + ((smallGaps gaps).map (·.size)).sum =
      (gaps.map (·.size)).sum := by
  -- Which page the gaps are on makes no difference to their bytes.
  have parts := FreeBlock.keptBytes_add_lostBytes (gaps.map (Gap.block ⟨0⟩))
  rwa [keptBytes_blocks, lostBytes_blocks, bytes_blocks] at parts

end Blocks

variable {id : PageId} {space : SpaceKind} {uses : List Use} {page : Page}

theorem Sound.reclaimable_eq (sound : page.Sound) :
    page.reclaimableBytes =
      .ok (((gapsFrom headerBytes (page.objects.filter (·.marked))).map (·.size)).sum) := by
  have filled := gapsFrom_bytes (sound.arranged.filter (·.marked))
  have area : headerBytes + objectAreaBytes = pageBytes := by decide
  rw [← liveBytes_eq] at filled
  exact Word.sub_eq_ok.mpr ⟨by omega, by omega⟩

theorem Sound.sweep_reclaims {list : FreeList} {gaps : List Gap} (sound : page.Sound)
    (unswept : page.swept = false) (young : page.sweeps + 1 < Word.halfLimit)
    (walked : gaps = gapsFrom headerBytes (page.objects.filter (·.marked)))
    (available : list.available + ((largeGaps gaps).map (·.size)).sum < Word.limit)
    (wasted : list.wasted + ((smallGaps gaps).map (·.size)).sum < Word.limit) :
    ∃ total next left, page.sweep list = .ok (total, next, left) ∧
      page.Reclaims list gaps total next left := by
  have ranges : page.renewed.ranges = gaps.map (Gap.block page.id) := by
    rw [renewed_ranges, walked]
  have fits : (list.join (.ofBlocks page.renewed.ranges)).Fits := by
    rw [ranges]
    constructor
    · rw [← keptBytes_blocks page.id] at available
      exact available
    · rw [← lostBytes_blocks page.id] at wasted
      exact wasted
  have largest := largestKept_spec page.id gaps
  refine ⟨_, _, _, sweep_eq ⟨unswept, young⟩ fits, ?_⟩
  unfold yielded
  rw [ranges, keptBytes_blocks, lostBytes_blocks]
  constructor
  · rfl
  · have parts := List.length_eq_length_filter_add (l := page.objects) (·.marked)
    rw [List.countP_eq_length_filter]
    dsimp only
    omega
  · intro category
    rw [FreeList.blocksIn_join, FreeList.blocksIn_ofBlocks, filter_goesTo_blocks]
  · show list.available + FreeBlock.keptBytes (gaps.map (Gap.block page.id)) = _
    rw [keptBytes_blocks]
  · show list.wasted + FreeBlock.lostBytes (gaps.map (Gap.block page.id)) = _
    rw [lostBytes_blocks]
  · rfl
  · rfl
  · rw [sound.reclaimable_eq, ← walked]
    dsimp only
    rw [large_add_small]
  · exact largest.1
  · exact largest.2

def survivorGaps (page : Page) : List Gap := gapsFrom headerBytes (page.objects.filter (·.marked))

/-- A sweep frees exactly the maximal ranges between the objects that it keeps, in the order of
their addresses, and loses those that are too small for a list. -/
theorem Lifetime.sweep_tiles (life : Lifetime id space uses page) (unswept : page.swept = false)
    (young : page.sweeps + 1 < Word.halfLimit) :
    Tiles (page.objects.filter (·.marked)) page.survivorGaps ∧
      ∀ list : FreeList,
        list.available + ((largeGaps page.survivorGaps).map (·.size)).sum < Word.limit →
        list.wasted + ((smallGaps page.survivorGaps).map (·.size)).sum < Word.limit →
        ∃ total next left, page.sweep list = .ok (total, next, left) ∧
          page.Reclaims list page.survivorGaps total next left := by
  have sound := life.steady.sound
  constructor
  · exact (sound.arranged.filter (·.marked)).tiles
  · intro list available wasted
    exact sound.sweep_reclaims unswept young rfl available wasted

/-- Of the three objects two are live. The eight bytes between them are too few for a block, and the dead
object and the end of the page make one. -/
theorem sampleUses_sweep : ∃ page total next left, Lifetime ⟨0⟩ .data sampleUses page ∧
    page.sweep ⟨[⟨⟨7⟩, 64, 24⟩], [], [], [], 24, 16⟩ = .ok (total, next, left) ∧
    page.survivorGaps = [⟨80, 8⟩, ⟨192, 3904⟩] ∧
    Tiles [⟨64, 16, true⟩, ⟨88, 104, true⟩] page.survivorGaps ∧
    page.Reclaims ⟨[⟨⟨7⟩, 64, 24⟩], [], [], [], 24, 16⟩ page.survivorGaps total next left := by
  have gaps : survivorGaps (usedPage [⟨64, 16, true⟩, ⟨88, 104, true⟩, ⟨192, 40, false⟩] pageBytes
      false 1) = [⟨80, 8⟩, ⟨192, 3904⟩] := by decide
  obtain ⟨tiles, swept⟩ := sampleUses_life.sweep_tiles rfl (by decide)
  obtain ⟨total, next, left, done, reclaims⟩ := swept ⟨[⟨⟨7⟩, 64, 24⟩], [], [], [], 24, 16⟩
    (by rw [gaps]; decide) (by rw [gaps]; decide)
  exact ⟨_, total, next, left, sampleUses_life, done, gaps, tiles, reclaims⟩

end Page

end Reclaim
