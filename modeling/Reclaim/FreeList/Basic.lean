import Reclaim.Fault
import Reclaim.FreeList.Category

/-! Free lists: blocks of free bytes in four categories by size, and two byte counts. A request is
served by the first block that fits, starting at the category of its size; what is left of the block
goes back on the list. Blocks too small to track are only counted. -/

namespace Reclaim

def minBlockBytes : Nat := 2 * Word.bytes

structure FreeBlock where
  page : PageId
  offset : Nat
  size : Nat
  deriving DecidableEq, Repr, Inhabited

structure FreeList where
  small : List FreeBlock
  medium : List FreeBlock
  large : List FreeBlock
  huge : List FreeBlock
  available : Nat
  wasted : Nat
  deriving DecidableEq, Repr

namespace FreeList

def empty : FreeList := ⟨[], [], [], [], 0, 0⟩

instance : Inhabited FreeList := ⟨empty⟩

def blocksIn (list : FreeList) : Category → List FreeBlock
  | .small => list.small
  | .medium => list.medium
  | .large => list.large
  | .huge => list.huge

def setBlocks (list : FreeList) (category : Category) (blocks : List FreeBlock) : FreeList :=
  match category with
  | .small => { list with small := blocks }
  | .medium => { list with medium := blocks }
  | .large => { list with large := blocks }
  | .huge => { list with huge := blocks }

def blocks (list : FreeList) : List FreeBlock :=
  list.small ++ list.medium ++ list.large ++ list.huge

def isEmpty (list : FreeList) : Bool := list.available == 0

def blockCount (list : FreeList) : Nat := list.blocks.length

def maxBlockSize (list : FreeList) : Nat :=
  list.blocks.foldl (fun best block => max best block.size) 0

def push (list : FreeList) (block : FreeBlock) : FreeList :=
  let category := Category.ofSize block.size
  list.setBlocks category (list.blocksIn category ++ [block])

def free (list : FreeList) (block : FreeBlock) : Except Fault Nat × FreeList :=
  if block.size < minBlockBytes then
    match Word.add list.wasted block.size with
    | .error fault => (.error fault, list)
    | .ok wasted => (.ok block.size, { list with wasted })
  else
    let pushed := list.push block
    match Word.add pushed.available block.size with
    | .error fault => (.error fault, pushed)
    | .ok available => (.ok 0, { pushed with available })

def swapRemove (blocks : List FreeBlock) (position : Nat) : List FreeBlock :=
  match blocks.getLast? with
  | none => []
  | some last => (blocks.set position last).dropLast

def firstFit (list : FreeList) (size : Nat) : List Category → Option (Category × Nat × FreeBlock)
  | [] => none
  | category :: later =>
      match (list.blocksIn category).findIdx? (fun block => decide (size ≤ block.size)) with
      | none => firstFit list size later
      | some position =>
          ((list.blocksIn category)[position]?).map fun block => (category, position, block)

def carve (list : FreeList) (block : FreeBlock) (size : Nat) :
    Except Fault (Option FreeBlock) × FreeList :=
  match Word.sub block.size size with
  | .error fault => (.error fault, list)
  | .ok rest =>
      if rest = 0 then (.ok (some { block with size }), list)
      else
        match Word.add block.offset size with
        | .error fault => (.error fault, list)
        | .ok offset =>
            match list.free { page := block.page, offset, size := rest } with
            | (.error fault, remaining) => (.error fault, remaining)
            | (.ok _, remaining) => (.ok (some { block with size }), remaining)

def allocate (list : FreeList) (request : Nat) : Except Fault (Option FreeBlock) × FreeList :=
  if request = 0 then (.ok none, list)
  else
    match Word.roundUp? request with
    | none => (.ok none, list)
    | some size =>
        match list.firstFit size (Category.ofSize size).onward with
        | none => (.ok none, list)
        | some (category, position, block) =>
            let remaining := list.setBlocks category (swapRemove (list.blocksIn category) position)
            match Word.sub remaining.available block.size with
            | .error fault => (.error fault, remaining)
            | .ok available => carve { remaining with available } block size

theorem setBlocks_available (list : FreeList) (category : Category) (blocks : List FreeBlock) :
    (list.setBlocks category blocks).available = list.available := by
  cases category <;> rfl

theorem free_available {list remaining : FreeList} {block : FreeBlock} {lost : Nat}
    (freed : list.free block = (.ok lost, remaining)) :
    remaining.available ≤ list.available + block.size := by
  unfold free at freed
  split at freed
  · split at freed
    · cases freed
    · cases freed
      exact Nat.le_add_right _ _
  · dsimp only at freed
    split at freed
    · cases freed
    · next available sum =>
        have total := (Word.add_eq_ok.mp sum).2
        rw [push, setBlocks_available] at total
        cases freed
        exact Nat.le_of_eq total

theorem carve_available {list remaining : FreeList} {block served : FreeBlock} {size : Nat}
    (carved : list.carve block size = (.ok (some served), remaining)) :
    served.size = size ∧ remaining.available + size ≤ list.available + block.size := by
  unfold carve at carved
  split at carved
  · cases carved
  · next rest difference =>
      have fits := Word.sub_eq_ok.mp difference
      split at carved
      · cases carved
        exact ⟨rfl, by omega⟩
      · split at carved
        · cases carved
        · split at carved
          · cases carved
          · next freed =>
              have tail := free_available freed
              cases carved
              exact ⟨rfl, by dsimp only at tail; omega⟩

/-- What an allocation serves leaves the list, so serving cannot go on for ever. -/
theorem allocate_available {list remaining : FreeList} {request : Nat} {served : FreeBlock}
    (allocated : list.allocate request = (.ok (some served), remaining)) :
    0 < served.size ∧ remaining.available + served.size ≤ list.available := by
  unfold allocate at allocated
  split at allocated
  · cases allocated
  · next positive =>
      split at allocated
      · cases allocated
      · next size rounded =>
          have larger := (Word.roundUp?_eq_some rounded).1
          split at allocated
          · cases allocated
          · next category position block found =>
              dsimp only at allocated
              split at allocated
              · cases allocated
              · next available difference =>
                  have smaller := Word.sub_eq_ok.mp difference
                  rw [setBlocks_available] at smaller
                  obtain ⟨same, bound⟩ := carve_available allocated
                  dsimp only at bound
                  exact ⟨by omega, by omega⟩

/-- Moves every block of `source` to the end of its category. Answers the bytes that became
available and leaves both lists behind: the joined one, and the source, which is empty unless a
count overflows. -/
def concatenate (list source : FreeList) : Except Fault Nat × FreeList × FreeList :=
  let joined : FreeList :=
    { list with
      small := list.small ++ source.small
      medium := list.medium ++ source.medium
      large := list.large ++ source.large
      huge := list.huge ++ source.huge }
  let stripped : FreeList :=
    { FreeList.empty with available := source.available, wasted := source.wasted }
  match Word.add joined.available source.available with
  | .error fault => (.error fault, joined, stripped)
  | .ok available =>
      match Word.add joined.wasted source.wasted with
      | .error fault => (.error fault, { joined with available }, stripped)
      | .ok wasted => (.ok source.available, { joined with available, wasted }, .empty)

end FreeList

end Reclaim
