import Reclaim.Proofs.FreeList.Orderly

/-! First fit over all blocks. Searching the categories one by one, from that of the request on, finds
the block that a scan of all blocks would find first: what the search skips is too small. The block
that comes last in its category takes the place of the one that is served. -/

namespace Reclaim

namespace FreeList

def blocksBefore (list : FreeList) (category : Category) : List FreeBlock :=
  (Category.all.filter fun other => decide (other.rank < category.rank)).flatMap list.blocksIn

def blocksAfter (list : FreeList) (category : Category) : List FreeBlock :=
  (Category.all.filter fun other => decide (category.rank < other.rank)).flatMap list.blocksIn

structure Serves (list : FreeList) (size : Nat) (block : FreeBlock) (left : FreeList)
    (category : Category) (front back : List FreeBlock) : Prop where
  listed : list.blocksIn category = front ++ block :: back
  scanned : list.blocks =
    (list.blocksBefore category ++ front) ++ block :: (back ++ list.blocksAfter category)
  smaller : ∀ other ∈ list.blocksBefore category ++ front, other.size < size
  enough : size ≤ block.size
  filled : left.blocksIn category = front ++ back.getLast?.toList ++ back.dropLast ++
    (block.tail size).filter (FreeBlock.goesTo category)
  kept : ∀ other, other ≠ category → left.blocksIn other = list.blocksIn other ++
    (block.tail size).filter (FreeBlock.goesTo other)
  available : left.available + block.size =
    list.available + FreeBlock.keptBytes (block.tail size)
  wasted : left.wasted = list.wasted + FreeBlock.lostBytes (block.tail size)

structure FirstFit (list : FreeList) (request size : Nat) : Prop where
  refuses : (list.allocate request).1 = .ok none ↔
    request = 0 ∨ Word.limit ≤ size ∨ list.maxBlockSize < size
  unchanged : (list.allocate request).1 = .ok none → (list.allocate request).2 = list
  serves : request ≠ 0 → size < Word.limit → size ≤ list.maxBlockSize →
    ∃ block left category front back,
      list.allocate request = (.ok (some ⟨block.page, block.offset, size⟩), left) ∧
        list.Serves size block left category front back

theorem blocks_split (list : FreeList) (category : Category) :
    list.blocks =
      list.blocksBefore category ++ (list.blocksIn category ++ list.blocksAfter category) := by
  cases category <;>
    simp [blocks, blocksBefore, blocksAfter, blocksIn, Category.all, Category.rank]

theorem swapRemove_middle (front : List FreeBlock) (block : FreeBlock) (back : List FreeBlock) :
    swapRemove (front ++ block :: back) front.length =
      front ++ back.getLast?.toList ++ back.dropLast := by
  rcases back.eq_nil_or_concat with rfl | ⟨middle, last, rfl⟩
  · simp [swapRemove]
  · have ends : front ++ block :: middle.concat last = (front ++ block :: middle) ++ [last] := by
      simp
    have inside : front.length < (front ++ block :: middle).length := by simp
    unfold swapRemove
    rw [ends, List.getLast?_concat]
    dsimp only
    rw [List.set_append_left _ _ inside, List.dropLast_concat]
    simp

theorem firstFit_none {list : FreeList} {size : Nat} {categories : List Category} :
    list.firstFit size categories = none ↔
      ∀ category ∈ categories, ∀ block ∈ list.blocksIn category, block.size < size := by
  induction categories with
  | nil => simp [firstFit]
  | cons first later ih =>
      rw [firstFit, List.forall_mem_cons]
      split
      next search =>
        rw [ih]
        rw [List.findIdx?_eq_none_iff] at search
        refine (and_iff_right ?_).symm
        intro block member
        simpa using search block member
      next position search =>
        obtain ⟨inside, fits, _⟩ := List.findIdx?_eq_some_iff_getElem.mp search
        rw [List.getElem?_eq_getElem inside]
        simp only [Option.map_some, reduceCtorEq, false_iff]
        rintro ⟨smaller, _⟩
        have here := smaller _ (List.getElem_mem inside)
        simp only [decide_eq_true_eq] at fits
        omega

theorem firstFit_some {list : FreeList} {size position : Nat} {categories : List Category}
    {category : Category} {block : FreeBlock}
    (found : list.firstFit size categories = some (category, position, block)) :
    ∃ earlier later front back, categories = earlier ++ category :: later ∧
      list.blocksIn category = front ++ block :: back ∧ position = front.length ∧
      size ≤ block.size ∧ (∀ other ∈ front, other.size < size) ∧
      ∀ before ∈ earlier, ∀ other ∈ list.blocksIn before, other.size < size := by
  induction categories with
  | nil => cases found
  | cons first rest ih =>
      rw [firstFit] at found
      split at found
      next search =>
        obtain ⟨earlier, later, front, back, split, listed, place, enough, smaller, skipped⟩ :=
          ih found
        refine ⟨first :: earlier, later, front, back, by rw [split]; rfl, listed, place, enough,
          smaller, ?_⟩
        rw [List.findIdx?_eq_none_iff] at search
        refine List.forall_mem_cons.mpr ⟨?_, skipped⟩
        intro other member
        simpa using search other member
      next place search =>
        obtain ⟨taken, member, equal⟩ := Option.map_eq_some_iff.mp found
        cases equal
        obtain ⟨inside, fits, before⟩ := List.findIdx?_eq_some_iff_getElem.mp search
        obtain ⟨_, value⟩ := List.getElem?_eq_some_iff.mp member
        refine ⟨[], rest, (list.blocksIn category).take position,
          (list.blocksIn category).drop (position + 1), rfl, ?_, ?_, ?_, ?_,
          List.forall_mem_nil _⟩
        · rw [← value, List.getElem_cons_drop, List.take_append_drop]
        · rw [List.length_take, Nat.min_eq_left (Nat.le_of_lt inside)]
        · simpa [value] using fits
        · intro other inFront
          obtain ⟨index, bound, same⟩ := List.mem_take_iff_getElem.mp inFront
          have early := before index (by omega)
          rw [same] at early
          simpa using early

theorem Holds.skipped {list : FreeList} {ranges : List FreeBlock} (holds : list.Holds ranges)
    {category : Category} {block : FreeBlock} (member : block ∈ list.blocksIn category) {size : Nat}
    (below : category.rank < (Category.ofSize size).rank) : block.size < size := by
  have goes := (List.mem_filter.mp ((holds.listed category).mem_iff.mp member)).2
  simp only [FreeBlock.goesTo, Bool.and_eq_true, decide_eq_true_eq] at goes
  by_contra large
  have ordered := Category.rank_ofSize_mono (Nat.le_of_not_lt large)
  rw [goes.2] at ordered
  omega

theorem Holds.firstFit_refuses {list : FreeList} {ranges : List FreeBlock}
    (holds : list.Holds ranges) {size : Nat} (positive : 0 < size) :
    list.firstFit size (Category.ofSize size).onward = none ↔ list.maxBlockSize < size := by
  rw [firstFit_none, maxBlockSize_lt positive]
  constructor
  · intro smaller block member
    obtain ⟨category, inside⟩ := mem_blocks.mp member
    by_cases searched : (Category.ofSize size).rank ≤ category.rank
    · exact smaller category (Category.mem_onward.mpr searched) block inside
    · exact holds.skipped inside (Nat.lt_of_not_le searched)
  · intro smaller category _ block inside
    exact smaller block (mem_blocks.mpr ⟨category, inside⟩)

theorem Holds.before_smaller {list : FreeList} {ranges : List FreeBlock}
    (holds : list.Holds ranges) {size : Nat} {earlier later : List Category} {category : Category}
    (split : (Category.ofSize size).onward = earlier ++ category :: later)
    (skipped : ∀ before ∈ earlier, ∀ other ∈ list.blocksIn before, other.size < size) :
    ∀ other ∈ list.blocksBefore category, other.size < size := by
  intro other member
  obtain ⟨before, ranked, inside⟩ := List.mem_flatMap.mp member
  have below : before.rank < category.rank := by simpa using (List.mem_filter.mp ranked).2
  by_cases searched : (Category.ofSize size).rank ≤ before.rank
  · have reached := Category.mem_onward.mpr searched
    rw [split] at reached
    have increasing := Category.onward_increasing (Category.ofSize size)
    rw [split] at increasing
    rcases List.mem_append.mp reached with early | late
    · exact skipped before early other inside
    · -- Of the categories searched, only those before this one rank below it.
      have behind := (List.pairwise_append.mp increasing).2.1
      rcases List.mem_cons.mp late with rfl | after
      · omega
      · have above := (List.pairwise_cons.mp behind).1 before after
        omega
  · exact holds.skipped inside (Nat.lt_of_not_le searched)

/-- The search serves the first block that is large enough, as a scan of all blocks would. -/
theorem Holds.serves {list : FreeList} {ranges : List FreeBlock} (holds : list.Holds ranges)
    (room : FreeBlock.bytes ranges < Word.limit)
    (inWord : ∀ range ∈ ranges, range.offset + range.size < Word.limit) {request size : Nat}
    (positive : request ≠ 0) (rounded : Word.roundUp? request = some size) {category : Category}
    {position : Nat} {block : FreeBlock}
    (found : list.firstFit size (Category.ofSize size).onward = some (category, position, block)) :
    ∃ left front back,
      list.allocate request = (.ok (some ⟨block.page, block.offset, size⟩), left) ∧
        list.Serves size block left category front back := by
  obtain ⟨rest, parted, kept, enough, _, allocated⟩ :=
    holds.allocate_found room inWord positive rounded found
  obtain ⟨earlier, later, front, back, split, listed, rfl, _, ahead, skipped⟩ := firstFit_some found
  have held : block.size ≤ list.available := by
    have available := (holds.perm parted).available
    rw [FreeBlock.keptBytes_cons, kept, if_pos rfl] at available
    omega
  refine ⟨_, front, back, allocated, listed, ?_, ?_, enough, ?_, ?_, ?_, ?_⟩
  · rw [list.blocks_split category, listed]
    simp only [List.append_assoc, List.cons_append]
  · intro other member
    rcases List.mem_append.mp member with before | inFront
    · exact holds.before_smaller split skipped other before
    · exact ahead other inFront
  · rw [blocksIn_join, blocksIn_ofBlocks, withdraw_blocksIn_same, listed, swapRemove_middle]
  · intro other distinct
    rw [blocksIn_join, blocksIn_ofBlocks, withdraw_blocksIn_other _ _ _ distinct]
  · show list.available - block.size + FreeBlock.keptBytes (block.tail size) + block.size = _
    omega
  · show (list.setBlocks category _).wasted + FreeBlock.lostBytes (block.tail size) = _
    rw [setBlocks_wasted]

theorem FirstFit.of_refused {list : FreeList} {request size : Nat}
    (refused : list.allocate request = (.ok none, list))
    (cause : request = 0 ∨ Word.limit ≤ size ∨ list.maxBlockSize < size) :
    list.FirstFit request size where
  refuses := by
    rw [refused]
    exact iff_of_true rfl cause
  unchanged _ := by rw [refused]
  serves positive inside large := by omega

theorem Orderly.firstFit {list : FreeList} (orderly : list.Orderly) (room : list.total < Word.limit)
    {request size : Nat} (enough : request ≤ size) (close : size < request + Word.bytes)
    (whole : size % Word.bytes = 0) : list.FirstFit request size := by
  obtain ⟨ranges, holds, inWord⟩ := orderly
  have bytes : FreeBlock.bytes ranges < Word.limit := by
    rw [← holds.total]
    exact room
  have rounded := Word.roundUp?_least enough close whole
  by_cases empty : request = 0
  · exact .of_refused (by simp [FreeList.allocate, empty]) (.inl empty)
  by_cases inside : size < Word.limit
  · rw [if_pos inside] at rounded
    have refuses := holds.firstFit_refuses (by omega : 0 < size)
    cases found : list.firstFit size (Category.ofSize size).onward with
    | none =>
        exact .of_refused (by simp [FreeList.allocate, empty, rounded, found])
          (.inr (.inr (refuses.mp found)))
    | some fit =>
        obtain ⟨category, position, block⟩ := fit
        obtain ⟨left, front, back, allocated, serves⟩ :=
          holds.serves bytes inWord empty rounded found
        have large : ¬ list.maxBlockSize < size := by
          rw [← refuses, found]
          exact Option.some_ne_none _
        refine ⟨?_, fun none => by simp [allocated] at none, fun _ _ _ =>
          ⟨block, left, category, front, back, allocated, serves⟩⟩
        simp only [allocated, reduceCtorEq, Except.ok.injEq, false_iff, not_or]
        exact ⟨empty, by omega, large⟩
  · rw [if_neg inside] at rounded
    exact .of_refused (by simp [FreeList.allocate, empty, rounded]) (.inr (.inl (Nat.le_of_not_lt inside)))

end FreeList

end Reclaim
