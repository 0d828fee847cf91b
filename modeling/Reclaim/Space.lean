import Reclaim.Page.Sweep

/-! One space of the heap: its pages, unswept and swept, and the free list of the swept ones. The
lists are guarded separately, so an operation that touches two of them is made of two sections, and
another party may act between them. Swept pages are published before the blocks that lie in them. -/

namespace Reclaim

structure ObjectAddress where
  space : SpaceKind
  page : PageId
  offset : Nat
  deriving DecidableEq, Repr

structure PagedSpace where
  kind : SpaceKind
  unswept : List Page
  swept : List Page
  free : FreeList
  deriving DecidableEq, Repr

namespace PagedSpace

def fresh (kind : SpaceKind) : PagedSpace := ⟨kind, [], [], .empty⟩

def addPage (space : PagedSpace) (page : Page) : Except Fault PagedSpace :=
  if page.space = space.kind then .ok { space with unswept := space.unswept ++ [page] }
  else .error (.wrongSpace page.space space.kind)

def takeUnswept (space : PagedSpace) : List Page × PagedSpace :=
  (space.unswept, { space with unswept := [] })

def restoreUnswept (space : PagedSpace) (pages : List Page) : PagedSpace :=
  { space with unswept := space.unswept ++ pages }

def publishPages (space : PagedSpace) (pages : List Page) : PagedSpace :=
  { space with swept := space.swept ++ pages }

def publishBlocks (space : PagedSpace) (list : FreeList) : Except Fault Unit × PagedSpace :=
  match space.free.concatenate list with
  | (.error fault, free, _) => (.error fault, { space with free })
  | (.ok _, free, _) => (.ok (), { space with free })

def publish (space : PagedSpace) (pages : List Page) (list : FreeList) :
    Except Fault Unit × PagedSpace :=
  (space.publishPages pages).publishBlocks list

def dropBlocks (space : PagedSpace) : PagedSpace := { space with free := .empty }

def takeSwept (space : PagedSpace) : List Page × PagedSpace :=
  (space.swept, { space with swept := [] })

def recycle (space : PagedSpace) (pages : List Page) : PagedSpace :=
  space.restoreUnswept (pages.map Page.markUnswept)

def prepare (space : PagedSpace) : PagedSpace :=
  let (pages, space) := space.dropBlocks.takeSwept
  space.recycle pages

def reserve (space : PagedSpace) (request : Nat) : Except Fault (Option FreeBlock) × PagedSpace :=
  match space.free.allocate request with
  | (answer, free) => (answer, { space with free })

def occupy (space : PagedSpace) (block : FreeBlock) : Except Fault ObjectAddress × PagedSpace :=
  match space.swept.findIdx? fun page => decide (page.id = block.page) with
  | none => (.error (.unpublishedPage block.page), space)
  | some position =>
      match space.swept[position]? with
      | none => (.error (.unpublishedPage block.page), space)
      | some page =>
          match page.place block.offset block.size with
          | .error fault => (.error fault, space)
          | .ok page =>
              (.ok ⟨space.kind, block.page, block.offset⟩,
                { space with swept := space.swept.set position page })

def allocate (space : PagedSpace) (request : Nat) :
    Except Fault (Option ObjectAddress) × PagedSpace :=
  match space.reserve request with
  | (.error fault, space) => (.error fault, space)
  | (.ok none, space) => (.ok none, space)
  | (.ok (some block), space) =>
      match space.occupy block with
      | (.error fault, space) => (.error fault, space)
      | (.ok address, space) => (.ok (some address), space)

theorem allocate_available {space remaining : PagedSpace} {request : Nat} {address : ObjectAddress}
    (allocated : space.allocate request = (.ok (some address), remaining)) :
    remaining.free.available < space.free.available := by
  unfold allocate at allocated
  split at allocated
  · cases allocated
  · cases allocated
  · next block reserved taken =>
      have shrunk : reserved.free.available < space.free.available := by
        unfold reserve at taken
        generalize outcome : space.free.allocate request = result at taken
        obtain ⟨answer, free⟩ := result
        cases taken
        have bound := FreeList.allocate_available outcome
        dsimp only
        omega
      have kept : ∀ {answer : Except Fault ObjectAddress} {after : PagedSpace},
          reserved.occupy block = (answer, after) → after.free = reserved.free := by
        intro answer after occupied
        unfold occupy at occupied
        (repeat' split at occupied) <;> (cases occupied; rfl)
      split at allocated
      · cases allocated
      · next occupied =>
          cases allocated
          rw [kept occupied]
          exact shrunk

def allocateAll (space : PagedSpace) (request : Nat) :
    Except Fault (List ObjectAddress) × PagedSpace :=
  match _allocated : space.allocate request with
  | (.error fault, space) => (.error fault, space)
  | (.ok none, space) => (.ok [], space)
  | (.ok (some address), remaining) =>
      let (rest, space) := allocateAll remaining request
      (rest.map (address :: ·), space)
  termination_by space.free.available
  decreasing_by exact allocate_available _allocated

end PagedSpace

end Reclaim
