import Reclaim.Proofs.FreeList.Exhaustion
import Reclaim.Proofs.Space.Mapped

/-! Filling a space with objects of one size. Its free list maps the gaps of the swept pages, so a space
takes as many of them as the list serves, and records each of them. -/

namespace Reclaim

namespace Mapped

variable {pages : List Page} {list : FreeList}

theorem in_order (mapped : Mapped pages list) : list.Orderly := by
  refine ⟨_, mapped.holds, fun range member => ?_⟩
  have stop := (mapped.range_owner member).1
  have page : pageBytes < Word.limit := by decide
  omega

theorem total_lt (mapped : Mapped pages list) (few : pages.length ≤ Word.halfLimit) :
    list.total < Word.limit := by
  have filled := mapped.filled
  have room := objectArea_room few
  unfold FreeList.total
  omega

end Mapped

namespace PagedSpace

def Fills (space : PagedSpace) (request count : Nat) : Prop :=
  ∃ addresses left, space.allocateAll request = (.ok addresses, left) ∧
    addresses.length = count ∧ left.allocate request = (.ok none, left)

variable {space left next : PagedSpace} {request size : Nat} {address : ObjectAddress}

theorem allocateAll_none (refused : space.allocate request = (.ok none, left)) :
    space.allocateAll request = (.ok [], left) := by
  unfold allocateAll
  split
  next failed => simp [refused] at failed
  next same =>
    rw [refused] at same
    cases same
    rfl
  next served => simp [refused] at served

theorem allocateAll_some (served : space.allocate request = (.ok (some address), next)) :
    space.allocateAll request =
      ((next.allocateAll request).1.map (address :: ·), (next.allocateAll request).2) := by
  conv_lhs => unfold allocateAll
  split
  next failed => simp [served] at failed
  next refused => simp [served] at refused
  next same =>
    rw [served] at same
    cases same
    rfl

/-- A space refuses when its free list does, and an allocation leaves the list as the list itself
would. -/
theorem allocate_free (space : PagedSpace) (request : Nat) :
    (space.allocate request).2.free = (space.free.allocate request).2 ∧
      ((space.free.allocate request).1 = .ok none ↔ (space.allocate request).1 = .ok none) := by
  have kept (reserved : PagedSpace) (block : FreeBlock) :
      (reserved.occupy block).2.free = reserved.free := by
    unfold occupy
    (repeat' split) <;> rfl
  unfold allocate reserve
  generalize space.free.allocate request = outcome
  obtain ⟨fault | none | block, free⟩ := outcome
  · simp
  · simp
  · have still := kept { space with free } block
    dsimp only at still ⊢
    generalize PagedSpace.occupy { space with free } block = outcome at still
    obtain ⟨fault | address, after⟩ := outcome <;> simpa using still

theorem serve (mapped : Mapped space.swept space.free)
    (distinct : (space.swept.map (·.id)).Nodup) (few : space.swept.length ≤ Word.halfLimit)
    (rounds : Word.Rounds request size) :
    (space.allocate request = (.ok none, space) ∧
        FreeBlock.capacity size space.free.blocks = 0) ∨
      ∃ address next, space.allocate request = (.ok (some address), next) ∧
        Mapped next.swept next.free ∧ next.swept.map (·.id) = space.swept.map (·.id) ∧
        FreeBlock.capacity size next.free.blocks + 1 =
          FreeBlock.capacity size space.free.blocks := by
  obtain ⟨leaves, refuses⟩ := space.allocate_free request
  have list := mapped.in_order.serve (mapped.total_lt few) rounds
  rcases allocate_eq mapped distinct few request with
    refused | ⟨early, page, late, objects, object, left, pages, _, _, _, remains, served⟩
  · left
    refine ⟨refused, ?_⟩
    rcases list with ⟨_, none⟩ | ⟨block, _, given, _⟩
    · exact none
    · have none := refuses.mpr (by rw [refused])
      rw [given] at none
      cases none
  · right
    refine ⟨_, _, served, remains, ?_, ?_⟩
    · simp [pages]
    · rw [served] at leaves refuses
      rcases list with ⟨none, _⟩ | ⟨block, rest, given, _, _, _, less⟩
      · have refused := refuses.mp (by rw [none])
        cases refused
      · have same : left = rest := leaves.trans (by rw [given])
        rwa [← same] at less

theorem fills (mapped : Mapped space.swept space.free)
    (distinct : (space.swept.map (·.id)).Nodup) (few : space.swept.length ≤ Word.halfLimit)
    (rounds : Word.Rounds request size) :
    space.Fills request (FreeBlock.capacity size space.free.blocks) := by
  generalize remaining : FreeBlock.capacity size space.free.blocks = count
  induction count generalizing space with
  | zero =>
      rcases serve mapped distinct few rounds with ⟨refused, _⟩ | ⟨_, _, _, _, _, less⟩
      · exact ⟨[], space, allocateAll_none refused, rfl, refused⟩
      · omega
  | succ count ih =>
      rcases serve mapped distinct few rounds with
        ⟨_, none⟩ | ⟨address, next, served, remains, ids, less⟩
      · omega
      · have length : next.swept.length = space.swept.length := by
          simpa using congrArg List.length ids
        obtain ⟨addresses, left, all, many, refused⟩ :=
          ih remains (by rwa [ids]) (by rwa [length]) (by omega)
        refine ⟨address :: addresses, left, ?_, congrArg (· + 1) many, refused⟩
        rw [allocateAll_some served, all]
        rfl

end PagedSpace

end Reclaim
