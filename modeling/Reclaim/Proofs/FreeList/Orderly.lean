import Reclaim.Proofs.FreeList.Holding

/-! Lists in good order, and what a call does to all blocks of one. Freeing adds a block or its bytes,
joining adds the blocks of the other list, and an allocation cuts one block in two. The bytes add up
each time, and the counts have room for them as long as their sum is in the word. -/

namespace Reclaim

namespace FreeList

def total (list : FreeList) : Nat := list.available + list.wasted

def Orderly (list : FreeList) : Prop :=
  ∃ ranges, list.Holds ranges ∧ ∀ range ∈ ranges, range.offset + range.size < Word.limit

/-- What is given up behind a block that has been served: as many bytes as the list has come to count
as wasted. -/
def scrap (list left : FreeList) (served : FreeBlock) : List FreeBlock :=
  if left.wasted = list.wasted then []
  else
    [{ page := served.page
       offset := served.offset + served.size
       size := left.wasted - list.wasted }]

structure Cuts (list : FreeList) (block : FreeBlock) (size : Nat) (left : FreeList) : Prop where
  tracked : block.tracked = true
  enough : size ≤ block.size
  ordered : left.Orderly
  total : left.total + size = list.total
  blocks : ∃ others, list.blocks.Perm (block :: others) ∧
    (left.blocks ++ list.scrap left { block with size }).Perm (block.tail size ++ others)
  short : ∀ scrap ∈ list.scrap left { block with size }, scrap.size < minBlockBytes

structure Accounted (list : FreeList) : Prop where
  sizes : ∀ category, ∀ block ∈ list.blocksIn category,
    minBlockBytes ≤ block.size ∧ Category.ofSize block.size = category
  available : list.available = (list.blocks.map (·.size)).sum
  noBlocks : list.isEmpty = true ↔ list.blockCount = 0
  noSize : list.isEmpty = true ↔ list.maxBlockSize = 0

theorem mem_blocks {list : FreeList} {block : FreeBlock} :
    block ∈ list.blocks ↔ ∃ category, block ∈ list.blocksIn category := by
  constructor
  · intro member
    simp only [blocks, List.mem_append, or_assoc] at member
    rcases member with small | medium | large | huge
    · exact ⟨.small, small⟩
    · exact ⟨.medium, medium⟩
    · exact ⟨.large, large⟩
    · exact ⟨.huge, huge⟩
  · rintro ⟨category, member⟩
    simp only [blocks, List.mem_append, or_assoc]
    cases category with
    | small => exact .inl member
    | medium => exact .inr (.inl member)
    | large => exact .inr (.inr (.inl member))
    | huge => exact .inr (.inr (.inr member))

theorem foldl_max_lt (blocks : List FreeBlock) (best size : Nat) :
    blocks.foldl (fun best block => max best block.size) best < size ↔
      best < size ∧ ∀ block ∈ blocks, block.size < size := by
  induction blocks generalizing best with
  | nil => simp
  | cons block rest ih =>
      rw [List.foldl_cons, ih, List.forall_mem_cons, Nat.max_lt, and_assoc]

theorem maxBlockSize_lt {list : FreeList} {size : Nat} (positive : 0 < size) :
    list.maxBlockSize < size ↔ ∀ block ∈ list.blocks, block.size < size := by
  rw [maxBlockSize, foldl_max_lt]
  exact and_iff_right positive

theorem join_total (list source : FreeList) :
    (list.join source).total = list.total + source.total := by
  unfold total join
  dsimp only
  omega

theorem ofBlocks_total (blocks : List FreeBlock) :
    (ofBlocks blocks).total = FreeBlock.bytes blocks :=
  FreeBlock.keptBytes_add_lostBytes blocks

theorem ofBlocks_single_total (block : FreeBlock) : (ofBlocks [block]).total = block.size := by
  rw [ofBlocks_total]
  exact Nat.add_zero block.size

theorem join_blocks_perm (list source : FreeList) :
    (list.join source).blocks.Perm (list.blocks ++ source.blocks) := by
  refine List.perm_iff_count.mpr fun block => ?_
  simp only [blocks, join, List.count_append]
  omega

theorem fits_of_total {list : FreeList} (room : list.total < Word.limit) : list.Fits := by
  unfold total at room
  exact ⟨by omega, by omega⟩

theorem empty_orderly : empty.Orderly := ⟨[], empty_holds, nofun⟩

namespace Orderly

variable {list source : FreeList}

theorem join (orderly : list.Orderly) (other : source.Orderly) : (list.join source).Orderly := by
  obtain ⟨ranges, holds, inWord⟩ := orderly
  obtain ⟨more, added, inside⟩ := other
  exact ⟨ranges ++ more, holds.join added, List.forall_mem_append.mpr ⟨inWord, inside⟩⟩

theorem free (orderly : list.Orderly) {block : FreeBlock}
    (stop : block.offset + block.size < Word.limit) (room : list.total + block.size < Word.limit) :
    list.free block =
        (.ok (if block.tracked then 0 else block.size), list.join (ofBlocks [block])) ∧
      (list.join (ofBlocks [block])).Orderly := by
  refine ⟨free_eq (fits_of_total ?_), orderly.join ⟨[block], ofBlocks_holds _, by simpa using stop⟩⟩
  rw [join_total, ofBlocks_single_total]
  exact room

theorem concatenate (orderly : list.Orderly) (other : source.Orderly)
    (room : list.total + source.total < Word.limit) :
    list.concatenate source = (.ok source.available, list.join source, .empty) ∧
      (list.join source).Orderly := by
  refine ⟨concatenate_eq (fits_of_total ?_), orderly.join other⟩
  rw [join_total]
  exact room

theorem scrap_eq {left : FreeList} {block : FreeBlock} {size : Nat} (enough : size ≤ block.size)
    (wasted : left.wasted = list.wasted + FreeBlock.lostBytes (block.tail size)) :
    list.scrap left { block with size } = (block.tail size).filter fun part => !part.tracked := by
  unfold scrap
  rw [wasted]
  unfold FreeBlock.tail
  by_cases whole : block.size = size
  · simp [whole, FreeBlock.lostBytes, FreeBlock.bytes]
  · rw [if_neg whole, FreeBlock.lostBytes_cons, List.filter_cons]
    cases kept : FreeBlock.tracked ⟨block.page, block.offset + size, block.size - size⟩ with
    | true => simp [FreeBlock.lostBytes, FreeBlock.bytes]
    | false =>
        have shorter : block.size - size ≠ 0 := by omega
        simp [FreeBlock.lostBytes, FreeBlock.bytes, shorter]

theorem allocate (orderly : list.Orderly) (room : list.total < Word.limit) (request : Nat) :
    list.allocate request = (.ok none, list) ∨
      ∃ block size left, list.allocate request = (.ok (some { block with size }), left) ∧
        list.Cuts block size left := by
  obtain ⟨ranges, holds, inWord⟩ := orderly
  have bytes : FreeBlock.bytes ranges < Word.limit := by
    rw [← holds.total]
    exact room
  rcases holds.allocate_eq bytes inWord request with
    refused | ⟨block, rest, size, left, parted, kept, _, _, enough, remains, allocated⟩
  · exact Or.inl refused
  have before := holds.perm parted
  have wasted : left.wasted = list.wasted + FreeBlock.lostBytes (block.tail size) := by
    have old := before.wasted
    rw [FreeBlock.lostBytes_cons, kept, if_pos rfl, Nat.zero_add] at old
    rw [remains.wasted, old, FreeBlock.lostBytes_append, Nat.add_comm]
  have given := scrap_eq enough wasted
  have tail : FreeBlock.bytes (block.tail size) + size = block.size := by
    unfold FreeBlock.tail
    split <;> simp [FreeBlock.bytes] <;> omega
  refine Or.inr ⟨block, size, left, allocated, kept, enough, ⟨_, remains, ?_⟩, ?_, ?_, ?_⟩
  · have inside : ∀ range ∈ rest, range.offset + range.size < Word.limit := fun range member =>
      inWord range (parted.mem_iff.mpr (List.mem_cons_of_mem _ member))
    have stop := inWord block (parted.mem_iff.mpr List.mem_cons_self)
    refine List.forall_mem_append.mpr ⟨?_, inside⟩
    intro part member
    unfold FreeBlock.tail at member
    split at member
    next => cases member
    next =>
      obtain rfl := List.mem_singleton.mp member
      dsimp only
      omega
  · have old : list.total = FreeBlock.bytes (block :: rest) := before.total
    have new : left.total = FreeBlock.bytes (block.tail size ++ rest) := remains.total
    have first : FreeBlock.bytes (block :: rest) = block.size + FreeBlock.bytes rest :=
      FreeBlock.bytes_append [block] rest
    rw [new, old, first, FreeBlock.bytes_append]
    omega
  · refine ⟨rest.filter FreeBlock.tracked, ?_, ?_⟩
    · have listed := before.blocks_perm
      rwa [List.filter_cons_of_pos kept] at listed
    · -- The tail is listed or given up, so the two together are the tail and the other blocks.
      have listed := remains.blocks_perm
      rw [List.filter_append] at listed
      rw [given]
      refine List.perm_iff_count.mpr fun part => ?_
      have parts := (List.filter_append_perm FreeBlock.tracked (block.tail size)).count_eq part
      have counted := listed.count_eq part
      simp only [List.count_append] at parts counted ⊢
      omega
  · intro scrap member
    rw [given] at member
    simpa [FreeBlock.tracked] using (List.mem_filter.mp member).2

theorem counts (orderly : list.Orderly) : list.Accounted := by
  obtain ⟨ranges, holds, _⟩ := orderly
  have sizes (category : Category) (block : FreeBlock) (member : block ∈ list.blocksIn category) :
      minBlockBytes ≤ block.size ∧ Category.ofSize block.size = category := by
    have goes := (List.mem_filter.mp ((holds.listed category).mem_iff.mp member)).2
    simpa [FreeBlock.goesTo, FreeBlock.tracked] using goes
  have available : list.available = (list.blocks.map (·.size)).sum := by
    rw [holds.available]
    exact (FreeBlock.bytes_perm holds.blocks_perm).symm
  have positive : ∀ block ∈ list.blocks, 0 < block.size := by
    intro block member
    obtain ⟨category, inside⟩ := mem_blocks.mp member
    have large := (sizes category block inside).1
    unfold minBlockBytes Word.bytes at large
    omega
  have empty : list.isEmpty = true ↔ list.blocks = [] := by
    rw [isEmpty, beq_iff_eq, available]
    cases listed : list.blocks with
    | nil => simp
    | cons block rest =>
        have wide := positive block (by simp [listed])
        simp only [List.map_cons, List.sum_cons, reduceCtorEq, iff_false]
        omega
  refine ⟨sizes, available, ?_, ?_⟩
  · rw [empty, blockCount, List.length_eq_zero_iff]
  · rw [empty, ← Nat.lt_one_iff, maxBlockSize_lt (by decide)]
    constructor
    · intro none
      rw [none]
      exact List.forall_mem_nil _
    · intro small
      refine List.eq_nil_iff_forall_not_mem.mpr fun block member => ?_
      have narrow := small block member
      have wide := positive block member
      omega

end Orderly

end FreeList

end Reclaim
