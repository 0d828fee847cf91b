import Mathlib.Data.List.Perm.Basic
import Mathlib.Algebra.BigOperators.Group.List.Basic
import Mathlib.Algebra.GroupWithZero.Nat
import Reclaim.FreeList.Basic

/-! What a free list holds. A list holds some ranges when the large ones among them are its blocks,
each in its category, and its two counts are the bytes of the large ones and of the small ones.
Freeing adds a range, joining adds those of the other list, and an allocation cuts one of them. -/

namespace Reclaim

namespace FreeBlock

def tracked (block : FreeBlock) : Bool := decide (minBlockBytes ≤ block.size)

def goesTo (category : Category) (block : FreeBlock) : Bool :=
  block.tracked && decide (Category.ofSize block.size = category)

def bytes (blocks : List FreeBlock) : Nat := (blocks.map (·.size)).sum

def keptBytes (blocks : List FreeBlock) : Nat := bytes (blocks.filter tracked)

def lostBytes (blocks : List FreeBlock) : Nat := bytes (blocks.filter fun block => !block.tracked)

def tail (block : FreeBlock) (size : Nat) : List FreeBlock :=
  if block.size = size then []
  else [{ page := block.page, offset := block.offset + size, size := block.size - size }]

theorem bytes_append (blocks more : List FreeBlock) :
    bytes (blocks ++ more) = bytes blocks + bytes more := by
  simp [bytes]

theorem keptBytes_append (blocks more : List FreeBlock) :
    keptBytes (blocks ++ more) = keptBytes blocks + keptBytes more := by
  simp [keptBytes, bytes]

theorem lostBytes_append (blocks more : List FreeBlock) :
    lostBytes (blocks ++ more) = lostBytes blocks + lostBytes more := by
  simp [lostBytes, bytes]

theorem bytes_perm {blocks more : List FreeBlock} (same : blocks.Perm more) :
    bytes blocks = bytes more := (same.map _).sum_eq

theorem keptBytes_perm {blocks more : List FreeBlock} (same : blocks.Perm more) :
    keptBytes blocks = keptBytes more := bytes_perm (same.filter _)

theorem lostBytes_perm {blocks more : List FreeBlock} (same : blocks.Perm more) :
    lostBytes blocks = lostBytes more := bytes_perm (same.filter _)

theorem keptBytes_cons (block : FreeBlock) (rest : List FreeBlock) :
    keptBytes (block :: rest) = (if block.tracked then block.size else 0) + keptBytes rest := by
  cases kept : block.tracked <;> simp [keptBytes, bytes, kept]

theorem lostBytes_cons (block : FreeBlock) (rest : List FreeBlock) :
    lostBytes (block :: rest) = (if block.tracked then 0 else block.size) + lostBytes rest := by
  cases kept : block.tracked <;> simp [lostBytes, bytes, kept]

theorem keptBytes_add_lostBytes (blocks : List FreeBlock) :
    keptBytes blocks + lostBytes blocks = bytes blocks := by
  induction blocks with
  | nil => rfl
  | cons block rest ih =>
      have split : bytes (block :: rest) = block.size + bytes rest := by simp [bytes]
      rw [keptBytes_cons, lostBytes_cons, split]
      split <;> omega

end FreeBlock

namespace FreeList

def join (list source : FreeList) : FreeList :=
  { small := list.small ++ source.small
    medium := list.medium ++ source.medium
    large := list.large ++ source.large
    huge := list.huge ++ source.huge
    available := list.available + source.available
    wasted := list.wasted + source.wasted }

def ofBlocks (blocks : List FreeBlock) : FreeList :=
  { small := blocks.filter (FreeBlock.goesTo .small)
    medium := blocks.filter (FreeBlock.goesTo .medium)
    large := blocks.filter (FreeBlock.goesTo .large)
    huge := blocks.filter (FreeBlock.goesTo .huge)
    available := FreeBlock.keptBytes blocks
    wasted := FreeBlock.lostBytes blocks }

structure Fits (list : FreeList) : Prop where
  available : list.available < Word.limit
  wasted : list.wasted < Word.limit

theorem blocksIn_join (list source : FreeList) (category : Category) :
    (list.join source).blocksIn category = list.blocksIn category ++ source.blocksIn category := by
  cases category <;> rfl

theorem blocksIn_ofBlocks (blocks : List FreeBlock) (category : Category) :
    (ofBlocks blocks).blocksIn category = blocks.filter (FreeBlock.goesTo category) := by
  cases category <;> rfl

theorem blocksIn_setBlocks_same (list : FreeList) (category : Category) (blocks : List FreeBlock) :
    (list.setBlocks category blocks).blocksIn category = blocks := by
  cases category <;> rfl

theorem blocksIn_setBlocks_other (list : FreeList) {category other : Category}
    (blocks : List FreeBlock) (distinct : other ≠ category) :
    (list.setBlocks category blocks).blocksIn other = list.blocksIn other := by
  cases category <;> cases other <;> first | rfl | exact absurd rfl distinct

theorem setBlocks_wasted (list : FreeList) (category : Category) (blocks : List FreeBlock) :
    (list.setBlocks category blocks).wasted = list.wasted := by
  cases category <;> rfl

theorem ext_blocksIn {list other : FreeList}
    (blocks : ∀ category, list.blocksIn category = other.blocksIn category)
    (available : list.available = other.available) (wasted : list.wasted = other.wasted) :
    list = other := by
  have small := blocks .small
  have medium := blocks .medium
  have large := blocks .large
  have huge := blocks .huge
  cases list
  cases other
  simp only [blocksIn] at small medium large huge
  simp_all

theorem join_assoc (list source other : FreeList) :
    (list.join source).join other = list.join (source.join other) := by
  simp [join, Nat.add_assoc]

theorem join_empty (list : FreeList) : list.join .empty = list := by
  simp [join, empty]

theorem empty_join (list : FreeList) : FreeList.empty.join list = list := by
  simp [join, empty]

theorem ofBlocks_nil : ofBlocks [] = .empty := rfl

theorem ofBlocks_append (blocks more : List FreeBlock) :
    ofBlocks (blocks ++ more) = (ofBlocks blocks).join (ofBlocks more) := by
  simp [ofBlocks, join, FreeBlock.keptBytes_append, FreeBlock.lostBytes_append]

theorem Fits.of_join_left {list source : FreeList} (fits : (list.join source).Fits) : list.Fits :=
  ⟨Nat.lt_of_le_of_lt (Nat.le_add_right _ _) fits.available,
    Nat.lt_of_le_of_lt (Nat.le_add_right _ _) fits.wasted⟩

theorem Fits.of_join_right {list source : FreeList} (fits : (list.join source).Fits) : source.Fits :=
  ⟨Nat.lt_of_le_of_lt (Nat.le_add_left _ _) fits.available,
    Nat.lt_of_le_of_lt (Nat.le_add_left _ _) fits.wasted⟩

theorem free_eq {list : FreeList} {block : FreeBlock}
    (fits : (list.join (ofBlocks [block])).Fits) :
    list.free block =
      (.ok (if block.tracked then 0 else block.size), list.join (ofBlocks [block])) := by
  have available := fits.available
  have wasted := fits.wasted
  simp only [join, ofBlocks, FreeBlock.keptBytes_cons, FreeBlock.lostBytes_cons] at available wasted
  unfold free
  cases kept : block.tracked with
  | false =>
      have small : block.size < minBlockBytes := by simpa [FreeBlock.tracked] using kept
      simp only [kept, Bool.false_eq_true, if_false] at wasted ⊢
      have room : list.wasted + block.size < Word.limit := by omega
      simp only [small, if_true, Word.add, room]
      have none (category : Category) : FreeBlock.goesTo category block = false := by
        simp [FreeBlock.goesTo, kept]
      simp [join, ofBlocks, none, FreeBlock.keptBytes, FreeBlock.lostBytes, FreeBlock.bytes, kept]
  | true =>
      have large : ¬ block.size < minBlockBytes := by simpa [FreeBlock.tracked] using kept
      simp only [kept, if_true] at available ⊢
      have room : list.available + block.size < Word.limit := by omega
      simp only [large, if_false, push, setBlocks_available, Word.add, room, if_true]
      congr 1
      apply ext_blocksIn
      · intro category
        rw [blocksIn_join, blocksIn_ofBlocks]
        by_cases same : category = Category.ofSize block.size
        · subst same
          have goes : FreeBlock.goesTo (Category.ofSize block.size) block = true := by
            simp [FreeBlock.goesTo, kept]
          rw [List.filter_cons_of_pos goes, List.filter_nil]
          exact blocksIn_setBlocks_same _ _ _
        · have stays : ¬ FreeBlock.goesTo category block = true := by
            simp [FreeBlock.goesTo, Ne.symm same]
          rw [List.filter_cons_of_neg stays, List.filter_nil, List.append_nil]
          exact blocksIn_setBlocks_other _ _ same
      · simp [join, ofBlocks, FreeBlock.keptBytes, FreeBlock.bytes, kept]
      · simp [join, ofBlocks, setBlocks_wasted, FreeBlock.lostBytes, FreeBlock.bytes, kept]

theorem concatenate_eq {list source : FreeList} (fits : (list.join source).Fits) :
    list.concatenate source = (.ok source.available, list.join source, .empty) := by
  have available : list.available + source.available < Word.limit := fits.available
  have wasted : list.wasted + source.wasted < Word.limit := fits.wasted
  simp [concatenate, Word.add, available, wasted, join]

/-- The last block fills the place of the one that is taken out, so no other block is lost. -/
theorem swapRemove_perm {blocks : List FreeBlock} {position : Nat} {block : FreeBlock}
    (found : blocks[position]? = some block) :
    blocks.Perm (block :: swapRemove blocks position) := by
  obtain ⟨bound, value⟩ := List.getElem?_eq_some_iff.mp found
  obtain rfl | ⟨front, last, rfl⟩ := blocks.eq_nil_or_concat
  · simp at bound
  · simp only [List.concat_eq_append] at found bound ⊢
    simp only [swapRemove, List.getLast?_concat]
    by_cases atEnd : position = front.length
    · subst atEnd
      have same : last = block := by simpa using found
      subst same
      simp only [List.set_append_right _ _ (Nat.le_refl _), Nat.sub_self, List.set_cons_zero,
        List.dropLast_concat]
      exact List.perm_append_singleton _ _
    · have inFront : position < front.length := by
        simp only [List.length_append, List.length_singleton] at bound
        omega
      rw [List.getElem?_append_left inFront] at found
      rw [List.set_append_left _ _ inFront, List.dropLast_concat]
      obtain ⟨_, here⟩ := List.getElem?_eq_some_iff.mp found
      have whole : front = front.take position ++ block :: front.drop (position + 1) := by
        rw [← here, List.getElem_cons_drop, List.take_append_drop]
      rw [List.set_eq_take_append_cons_drop, if_pos inFront]
      calc List.Perm (front ++ [last]) (last :: front) := List.perm_append_singleton _ _
        _ = last :: (front.take position ++ block :: front.drop (position + 1)) := by rw [← whole]
        List.Perm _ (last :: block :: (front.take position ++ front.drop (position + 1))) :=
          List.perm_middle.cons last
        List.Perm _ (block :: last :: (front.take position ++ front.drop (position + 1))) :=
          List.Perm.swap _ _ _
        List.Perm _ (block :: (front.take position ++ last :: front.drop (position + 1))) :=
          List.perm_middle.symm.cons block

theorem firstFit_found {list : FreeList} {size position : Nat} {categories : List Category}
    {category : Category} {block : FreeBlock}
    (found : list.firstFit size categories = some (category, position, block)) :
    (list.blocksIn category)[position]? = some block ∧ size ≤ block.size := by
  induction categories with
  | nil => cases found
  | cons first later ih =>
      simp only [firstFit] at found
      split at found
      next => exact ih found
      next place search =>
        obtain ⟨taken, member, equal⟩ := Option.map_eq_some_iff.mp found
        cases equal
        obtain ⟨bound, fits, _⟩ := List.findIdx?_eq_some_iff_getElem.mp search
        obtain ⟨_, value⟩ := List.getElem?_eq_some_iff.mp member
        exact ⟨member, by simpa [value] using fits⟩

theorem ofBlocks_blocks_perm (blocks : List FreeBlock) :
    (ofBlocks blocks).blocks.Perm (blocks.filter FreeBlock.tracked) := by
  induction blocks with
  | nil => exact List.Perm.nil
  | cons block rest ih =>
      unfold FreeList.blocks ofBlocks at ih ⊢
      dsimp only at ih ⊢
      cases kept : block.tracked with
      | false => simpa [FreeBlock.goesTo, kept] using ih
      | true =>
          have placed : (block :: rest.filter FreeBlock.tracked).Perm
              ((block :: rest).filter FreeBlock.tracked) := by simp [kept]
          have middle (front back : List FreeBlock) :
              (front ++ block :: back).Perm (block :: (front ++ back)) := List.perm_middle
          refine List.Perm.trans ?_ ((ih.cons block).trans placed)
          cases category : Category.ofSize block.size with
          | small => simp [FreeBlock.goesTo, kept, category]
          | medium => simp [FreeBlock.goesTo, kept, category, middle]
          | large =>
              simp only [FreeBlock.goesTo, kept, category, List.filter_cons, Bool.true_and,
                reduceCtorEq, decide_false, decide_true, Bool.false_eq_true, if_false, if_true]
              rw [List.append_assoc, List.cons_append, List.append_assoc _ _ (List.filter _ rest)]
              exact middle _ _
          | huge =>
              simp only [FreeBlock.goesTo, kept, category, List.filter_cons, Bool.true_and,
                reduceCtorEq, decide_false, decide_true, Bool.false_eq_true, if_false, if_true]
              exact middle _ _

structure Holds (list : FreeList) (blocks : List FreeBlock) : Prop where
  listed : ∀ category,
    (list.blocksIn category).Perm (blocks.filter (FreeBlock.goesTo category))
  available : list.available = FreeBlock.keptBytes blocks
  wasted : list.wasted = FreeBlock.lostBytes blocks

theorem ofBlocks_holds (blocks : List FreeBlock) : (ofBlocks blocks).Holds blocks :=
  ⟨fun category => by rw [blocksIn_ofBlocks], rfl, rfl⟩

theorem empty_holds : FreeList.empty.Holds [] := ofBlocks_holds []

theorem Holds.eq_empty {list : FreeList} (holds : list.Holds []) : list = .empty := by
  apply ext_blocksIn
  · intro category
    have none := (holds.listed category).eq_nil
    rw [none]
    cases category <;> rfl
  · exact holds.available
  · exact holds.wasted

def withdraw (list : FreeList) (category : Category) (position : Nat) (block : FreeBlock) :
    FreeList :=
  { list.setBlocks category (swapRemove (list.blocksIn category) position) with
    available := list.available - block.size }

theorem withdraw_blocksIn_same (list : FreeList) (category : Category) (position : Nat)
    (block : FreeBlock) :
    (list.withdraw category position block).blocksIn category =
      swapRemove (list.blocksIn category) position := by
  cases category <;> rfl

theorem withdraw_blocksIn_other (list : FreeList) {category other : Category} (position : Nat)
    (block : FreeBlock) (distinct : other ≠ category) :
    (list.withdraw category position block).blocksIn other = list.blocksIn other := by
  cases category <;> cases other <;> first | rfl | exact absurd rfl distinct

namespace Holds

variable {list source : FreeList} {blocks more : List FreeBlock}

theorem perm (holds : list.Holds blocks) (same : blocks.Perm more) : list.Holds more :=
  ⟨fun category => (holds.listed category).trans (same.filter _),
    holds.available.trans (FreeBlock.keptBytes_perm same),
    holds.wasted.trans (FreeBlock.lostBytes_perm same)⟩

theorem join (holds : list.Holds blocks) (other : source.Holds more) :
    (list.join source).Holds (blocks ++ more) where
  listed category := by
    rw [blocksIn_join, List.filter_append]
    exact (holds.listed category).append (other.listed category)
  available := by
    rw [FreeBlock.keptBytes_append, ← holds.available, ← other.available]
    rfl
  wasted := by
    rw [FreeBlock.lostBytes_append, ← holds.wasted, ← other.wasted]
    rfl

theorem total (holds : list.Holds blocks) :
    list.available + list.wasted = FreeBlock.bytes blocks := by
  rw [holds.available, holds.wasted, FreeBlock.keptBytes_add_lostBytes]

theorem fits (holds : list.Holds blocks) (room : FreeBlock.bytes blocks < Word.limit) :
    list.Fits := by
  have total := holds.total
  exact ⟨by omega, by omega⟩

theorem blocks_perm (holds : list.Holds blocks) :
    list.blocks.Perm (blocks.filter FreeBlock.tracked) := by
  have listed : list.blocks.Perm (ofBlocks blocks).blocks :=
    (((holds.listed .small).append (holds.listed .medium)).append (holds.listed .large)).append
      (holds.listed .huge)
  exact listed.trans (ofBlocks_blocks_perm blocks)

theorem carve_eq {block : FreeBlock} {size : Nat} (fits : size ≤ block.size)
    (inWord : block.offset + block.size < Word.limit)
    (room : (list.join (ofBlocks (block.tail size))).Fits) :
    list.carve block size =
      (.ok (some { block with size }), list.join (ofBlocks (block.tail size))) := by
  unfold carve FreeBlock.tail at *
  simp only [Word.sub, fits, if_true]
  by_cases whole : block.size = size
  · simp [whole, ofBlocks_nil, join_empty]
  · have rest : ¬ block.size - size = 0 := by omega
    have stop : block.offset + size < Word.limit := by omega
    simp only [whole, if_false] at room ⊢
    simp only [rest, if_false, Word.add, stop, if_true, free_eq room]

theorem remove {category : Category} {position : Nat} {block : FreeBlock} {rest : List FreeBlock}
    (holds : list.Holds (block :: rest)) (goes : block.goesTo category = true)
    (found : (list.blocksIn category)[position]? = some block) :
    (list.withdraw category position block).Holds rest := by
  have parts := goes
  simp only [FreeBlock.goesTo, Bool.and_eq_true, decide_eq_true_eq] at parts
  constructor
  · intro other
    have before := holds.listed other
    by_cases same : other = category
    · subst same
      rw [List.filter_cons_of_pos goes] at before
      rw [withdraw_blocksIn_same]
      exact ((swapRemove_perm found).symm.trans before).cons_inv
    · have elsewhere : ¬ FreeBlock.goesTo other block = true := by
        simp [FreeBlock.goesTo, parts.2, Ne.symm same]
      rw [List.filter_cons_of_neg elsewhere] at before
      rwa [withdraw_blocksIn_other _ _ _ same]
  · have available := holds.available
    rw [FreeBlock.keptBytes_cons, parts.1, if_pos rfl] at available
    unfold withdraw
    dsimp only
    omega
  · have wasted := holds.wasted
    rw [FreeBlock.lostBytes_cons, parts.1, if_pos rfl] at wasted
    unfold withdraw
    rw [setBlocks_wasted]
    omega

theorem allocate_found (holds : list.Holds blocks) (room : FreeBlock.bytes blocks < Word.limit)
    (inWord : ∀ block ∈ blocks, block.offset + block.size < Word.limit)
    {request size position : Nat} {category : Category} {block : FreeBlock}
    (positive : request ≠ 0) (rounded : Word.roundUp? request = some size)
    (found : list.firstFit size (Category.ofSize size).onward = some (category, position, block)) :
    ∃ rest, blocks.Perm (block :: rest) ∧ block.tracked = true ∧ size ≤ block.size ∧
      ((list.withdraw category position block).join (ofBlocks (block.tail size))).Holds
        (block.tail size ++ rest) ∧
      list.allocate request = (.ok (some { block with size }),
        (list.withdraw category position block).join (ofBlocks (block.tail size))) := by
  obtain ⟨place, fits⟩ := firstFit_found found
  have inList : block ∈ blocks.filter (FreeBlock.goesTo category) :=
    (holds.listed category).mem_iff.mp (List.mem_of_getElem? place)
  obtain ⟨member, goes⟩ := List.mem_filter.mp inList
  have kept : block.tracked = true := by
    simp only [FreeBlock.goesTo, Bool.and_eq_true] at goes
    exact goes.1
  obtain ⟨rest, parted⟩ : ∃ rest, blocks.Perm (block :: rest) := ⟨_, List.perm_cons_erase member⟩
  -- The list without the block holds the rest, so the counts have room for its tail.
  have removed := (holds.perm parted).remove goes place
  have enough : block.size ≤ list.available := by
    have available := (holds.perm parted).available
    rw [FreeBlock.keptBytes_cons, kept, if_pos rfl] at available
    omega
  have cut := removed.join (ofBlocks_holds (block.tail size))
  have smaller : FreeBlock.bytes (rest ++ block.tail size) < Word.limit := by
    have whole := FreeBlock.bytes_perm parted
    have tail : FreeBlock.bytes (block.tail size) ≤ block.size := by
      unfold FreeBlock.tail
      split <;> simp [FreeBlock.bytes]
    rw [FreeBlock.bytes_append]
    simp only [FreeBlock.bytes, List.map_cons, List.sum_cons] at whole tail room ⊢
    omega
  have carved := carve_eq fits (inWord block member) (cut.fits smaller)
  refine ⟨rest, parted, kept, fits, cut.perm List.perm_append_comm, ?_⟩
  unfold allocate
  simp only [positive, if_false, rounded, found, setBlocks_available, Word.sub, enough, if_true]
  exact carved

/-- An allocation that finds nothing leaves the list alone. One that succeeds takes a range that is
large enough off the list, and the list holds what is left of that range. -/
theorem allocate_eq (holds : list.Holds blocks) (room : FreeBlock.bytes blocks < Word.limit)
    (inWord : ∀ block ∈ blocks, block.offset + block.size < Word.limit) (request : Nat) :
    list.allocate request = (.ok none, list) ∨
      ∃ block rest size left, blocks.Perm (block :: rest) ∧ block.tracked = true ∧
        request ≠ 0 ∧ Word.roundUp? request = some size ∧ size ≤ block.size ∧
        left.Holds (block.tail size ++ rest) ∧
        list.allocate request = (.ok (some { block with size }), left) := by
  by_cases positive : request = 0
  · exact Or.inl (by simp [allocate, positive])
  cases rounded : Word.roundUp? request with
  | none => exact Or.inl (by simp [allocate, positive, rounded])
  | some size =>
      cases found : list.firstFit size (Category.ofSize size).onward with
      | none => exact Or.inl (by simp [allocate, positive, rounded, found])
      | some fit =>
          obtain ⟨category, position, block⟩ := fit
          obtain ⟨rest, parted, kept, fits, left, allocated⟩ :=
            holds.allocate_found room inWord positive rounded found
          exact Or.inr ⟨block, rest, size, _, parted, kept, positive, rfl, fits, left, allocated⟩

end Holds

end FreeList

end Reclaim
