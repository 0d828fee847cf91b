import Reclaim.Proofs.FreeList.FirstFit

/-! Asking for the same size until a list refuses. Each block serves a number of requests of its own,
whichever is served first and wherever the tails go, so a list serves the sum of these before it
refuses, whatever the order of its blocks. -/

namespace Reclaim

structure Word.Rounds (request size : Nat) : Prop where
  positive : 0 < request
  enough : request ≤ size
  close : size < request + Word.bytes
  whole : size % Word.bytes = 0
  inside : size < Word.limit

namespace FreeBlock

/-- How many requests of `size` bytes a block serves when its tails are used too. A tail of one word is
given up, so requests of one word do not use up a block. -/
def servings (size : Nat) (block : FreeBlock) : Nat :=
  if size = Word.bytes then (block.size - minBlockBytes) / Word.bytes + 1 else block.size / size

def capacity (size : Nat) (blocks : List FreeBlock) : Nat := (blocks.map (servings size)).sum

theorem capacity_perm (size : Nat) {blocks more : List FreeBlock} (same : blocks.Perm more) :
    capacity size blocks = capacity size more := (same.map _).sum_eq

theorem capacity_append (size : Nat) (blocks more : List FreeBlock) :
    capacity size (blocks ++ more) = capacity size blocks + capacity size more := by
  simp [capacity]

variable {size : Nat} {block : FreeBlock}

theorem servings_cut (positive : 0 < size) (whole : size % Word.bytes = 0)
    (kept : block.tracked = true) (enough : size ≤ block.size) :
    capacity size ((block.tail size).filter tracked) + 1 = servings size block := by
  have large : minBlockBytes ≤ block.size := by simpa [tracked] using kept
  have least : minBlockBytes = 16 := rfl
  have word : Word.bytes = 8 := rfl
  have tail : capacity size ((block.tail size).filter tracked) =
      if minBlockBytes ≤ block.size - size then
        servings size ⟨block.page, block.offset + size, block.size - size⟩
      else 0 := by
    unfold FreeBlock.tail
    by_cases used : block.size = size
    · have short : ¬ minBlockBytes ≤ block.size - size := by omega
      rw [if_pos used, if_neg short]
      rfl
    · rw [if_neg used, List.filter_singleton]
      by_cases left : minBlockBytes ≤ block.size - size <;> simp [tracked, left, capacity]
  rw [word] at whole
  rw [least] at large
  rw [tail]
  unfold servings
  rw [least, word]
  by_cases single : size = 8
  · simp only [single, if_true]
    split <;> omega
  · simp only [single, if_false]
    rw [Nat.div_eq_sub_div positive enough]
    split
    next => rfl
    next short => rw [Nat.div_eq_of_lt (by omega)]

theorem servings_small (large : minBlockBytes ≤ block.size) (small : block.size < size) :
    servings size block = 0 := by
  have least : minBlockBytes = 16 := rfl
  have word : Word.bytes = 8 := rfl
  unfold servings
  rw [if_neg (by omega)]
  exact Nat.div_eq_of_lt small

end FreeBlock

namespace FreeList

inductive Drains (request : Nat) : FreeList → List FreeBlock → FreeList → Prop
  | refused {list left : FreeList} (refused : list.allocate request = (.ok none, left)) :
      Drains request list [] left
  | served {list middle left : FreeList} {block : FreeBlock} {rest : List FreeBlock}
      (served : list.allocate request = (.ok (some block), middle))
      (later : Drains request middle rest left) : Drains request list (block :: rest) left

structure Exhausts (list : FreeList) (request size count : Nat) : Prop where
  ends : ∃ served left, Drains request list served left
  count : ∀ served left, Drains request list served left →
    served.length = count ∧ (∀ block ∈ served, block.size = size) ∧
      left.total + count * size = list.total

theorem Drains.unique {request : Nat} {list left last : FreeList} {served others : List FreeBlock}
    (drains : Drains request list served left) (again : Drains request list others last) :
    served = others ∧ left = last := by
  induction drains generalizing others last with
  | refused refused =>
      cases again with
      | refused same =>
          rw [refused] at same
          cases same
          exact ⟨rfl, rfl⟩
      | served same =>
          rw [refused] at same
          cases same
  | served served _ ih =>
      cases again with
      | refused same =>
          rw [served] at same
          cases same
      | served same later =>
          rw [served] at same
          cases same
          obtain ⟨rfl, rfl⟩ := ih later
          exact ⟨rfl, rfl⟩

variable {list left : FreeList} {request size : Nat}

theorem Orderly.tracked (orderly : list.Orderly) : ∀ block ∈ list.blocks, block.tracked = true := by
  intro block member
  obtain ⟨category, inside⟩ := mem_blocks.mp member
  simpa [FreeBlock.tracked] using (orderly.counts.sizes category block inside).1

/-- Every allocation takes one from the capacity of a list. -/
theorem Cuts.capacity {block : FreeBlock} (cuts : list.Cuts block size left)
    (orderly : list.Orderly) (positive : 0 < size) (whole : size % Word.bytes = 0) :
    FreeBlock.capacity size left.blocks + 1 = FreeBlock.capacity size list.blocks := by
  obtain ⟨others, before, after⟩ := cuts.blocks
  have keeps {blocks : List FreeBlock} (kept : ∀ other ∈ blocks, other.tracked = true) :
      blocks.filter FreeBlock.tracked = blocks := List.filter_eq_self.mpr kept
  have rest : others.filter FreeBlock.tracked = others := keeps fun other member =>
    orderly.tracked other (before.mem_iff.mpr (List.mem_cons_of_mem _ member))
  have scraps : (list.scrap left { block with size }).filter FreeBlock.tracked = [] := by
    rw [List.filter_eq_nil_iff]
    intro scrap member
    have short := cuts.short scrap member
    simpa [FreeBlock.tracked] using short
  have remains := after.filter FreeBlock.tracked
  rw [List.filter_append, List.filter_append, keeps cuts.ordered.tracked, rest, scraps,
    List.append_nil] at remains
  have cut := FreeBlock.servings_cut positive whole cuts.tracked cuts.enough
  have first : FreeBlock.capacity size (block :: others) =
      FreeBlock.servings size block + FreeBlock.capacity size others := rfl
  rw [FreeBlock.capacity_perm size before, FreeBlock.capacity_perm size remains,
    FreeBlock.capacity_append, first]
  omega

theorem Orderly.serve (orderly : list.Orderly) (room : list.total < Word.limit)
    (rounds : Word.Rounds request size) :
    (list.allocate request = (.ok none, list) ∧ FreeBlock.capacity size list.blocks = 0) ∨
      ∃ block left, list.allocate request = (.ok (some block), left) ∧ block.size = size ∧
        left.Orderly ∧ left.total + size = list.total ∧
        FreeBlock.capacity size left.blocks + 1 = FreeBlock.capacity size list.blocks := by
  obtain ⟨positive, enough, close, whole, inside⟩ := rounds
  have fit := orderly.firstFit room enough close whole
  have wanted : 0 < size := Nat.lt_of_lt_of_le positive enough
  rcases orderly.allocate room request with refused | ⟨block, taken, left, served, cuts⟩
  · left
    refine ⟨refused, ?_⟩
    have small : list.maxBlockSize < size := by
      rcases fit.refuses.mp (by rw [refused]) with empty | beyond | small
      · omega
      · omega
      · exact small
    refine List.sum_eq_zero fun portion member => ?_
    obtain ⟨block, listed, rfl⟩ := List.mem_map.mp member
    have large : minBlockBytes ≤ block.size := by
      simpa [FreeBlock.tracked] using orderly.tracked block listed
    exact FreeBlock.servings_small large ((maxBlockSize_lt wanted).mp small block listed)
  · right
    -- First fit says that what is served is the size in whole words.
    have same : taken = size := by
      have large : size ≤ list.maxBlockSize := by
        by_contra small
        have refused := fit.refuses.mpr (.inr (.inr (Nat.lt_of_not_le small)))
        rw [served] at refused
        cases refused
      obtain ⟨_, _, _, _, _, again, _⟩ := fit.serves (Nat.ne_of_gt positive) inside large
      rw [served] at again
      exact congrArg FreeBlock.size (Option.some.inj (Except.ok.inj (Prod.mk.inj again).1))
    subst same
    exact ⟨_, left, served, rfl, cuts.ordered, cuts.total, cuts.capacity orderly wanted whole⟩

/-- Serving goes on until the capacity is used up. It is the capacity that goes down with each answer,
while the number of blocks may stay the same. -/
theorem Orderly.drains {count : Nat} (orderly : list.Orderly) (room : list.total < Word.limit)
    (rounds : Word.Rounds request size) (capacity : FreeBlock.capacity size list.blocks = count) :
    ∃ served left, Drains request list served left ∧ served.length = count ∧
      (∀ block ∈ served, block.size = size) ∧ left.total + count * size = list.total := by
  induction count generalizing list with
  | zero =>
      rcases orderly.serve room rounds with ⟨refused, _⟩ | ⟨_, _, _, _, _, _, less⟩
      · exact ⟨[], list, .refused refused, rfl, List.forall_mem_nil _, by omega⟩
      · omega
  | succ count ih =>
      rcases orderly.serve room rounds with
        ⟨_, none⟩ | ⟨block, middle, served, exact, ordered, total, less⟩
      · omega
      · obtain ⟨rest, left, later, length, sizes, all⟩ := ih ordered (by omega) (by omega)
        refine ⟨block :: rest, left, .served served later, congrArg (· + 1) length,
          List.forall_mem_cons.mpr ⟨exact, sizes⟩, ?_⟩
        rw [Nat.add_mul, Nat.one_mul]
        omega

theorem Orderly.exhausts (orderly : list.Orderly) (room : list.total < Word.limit)
    (rounds : Word.Rounds request size) :
    list.Exhausts request size (FreeBlock.capacity size list.blocks) := by
  obtain ⟨served, left, drains, length, sizes, total⟩ := orderly.drains room rounds rfl
  refine ⟨⟨served, left, drains⟩, fun others last again => ?_⟩
  obtain ⟨rfl, rfl⟩ := drains.unique again
  exact ⟨length, sizes, total⟩

end FreeList

end Reclaim
