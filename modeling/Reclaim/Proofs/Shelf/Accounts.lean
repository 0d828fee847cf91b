import Reclaim.Proofs.FreeList.FirstFit
import Reclaim.Proofs.Shelf.Basic

/-! What free lists answer and account for, however they have come about. Each list serves a request by
first fit over all of its blocks; its counts agree with its blocks, and over all lists the bytes that
were freed are those on the lists, those served and those dropped. -/

namespace Reclaim

namespace Shelf

structure Accounts (freed : List FreeBlock) (shelf : Shelf) : Prop where
  lists : ∀ list ∈ shelf.lists, list.Accounted
  balance : (shelf.lists.map fun list => list.available + list.wasted).sum +
    (shelf.served.map (·.size)).sum +
    (shelf.dropped.map fun list => list.available + list.wasted).sum = (freed.map (·.size)).sum

variable {count : Nat} {uses : List Use} {shelf : Shelf}

/-- The counts of every list agree with its blocks, and no freed byte is unaccounted for. -/
theorem Proper.accounts (proper : Proper count uses) :
    ∃ shelf, (opened count).performEach uses = .ok shelf ∧ shelf.lists.length = count ∧
      Accounts (freedBy uses) shelf := by
  obtain ⟨shelf, performed, reached⟩ := proper.reaches
  refine ⟨shelf, performed, reached.length, ?_, reached.balance⟩
  intro list member
  exact (reached.keeps_order list member).counts

/-- A list refuses a request exactly if it is for nothing, leaves the word or is larger than every
block, and stays as it is. Otherwise it serves the first block that is large enough, category by
category. -/
theorem Proper.serves_first (proper : Proper count uses)
    (performed : (opened count).performEach uses = .ok shelf) {list : FreeList}
    (member : list ∈ shelf.lists) {request size : Nat} (enough : request ≤ size)
    (close : size < request + Word.bytes) (whole : size % Word.bytes = 0) :
    list.FirstFit request size := by
  obtain ⟨other, same, reached⟩ := proper.reaches
  rw [performed] at same
  cases same
  obtain ⟨index, inside, rfl⟩ := List.getElem_of_mem member
  have part := le_sum FreeList.total (List.getElem?_eq_getElem inside)
  have totals := reached.totals_le
  have room := proper.room
  exact (reached.keeps_order _ member).firstFit (by omega) enough close whole

def stockUses : List Use :=
  -- Two lists. One serves a request from a block that is larger, and is joined to the other;
  -- then the other serves one from the middle of its category, and the first is used again and
  -- emptied.
  [.free 0 ⟨⟨0⟩, 64, 256⟩, .free 0 ⟨⟨0⟩, 400, 12⟩, .free 1 ⟨⟨1⟩, 64, 40⟩, .free 1 ⟨⟨2⟩, 64, 3000⟩,
    .allocate 0 100, .concatenate 1 0, .free 1 ⟨⟨3⟩, 512, 96⟩, .allocate 1 150, .free 0 ⟨⟨4⟩, 64, 24⟩,
    .allocate 0 10, .free 0 ⟨⟨5⟩, 64, 4032⟩, .reset 0]

def joinedList : FreeList :=
  ⟨[⟨⟨1⟩, 64, 40⟩, ⟨⟨3⟩, 512, 96⟩], [⟨⟨2⟩, 64, 3000⟩], [], [], 3136, 12⟩

def stock : Shelf :=
  { lists := [.empty, joinedList]
    served := [⟨⟨0⟩, 64, 104⟩, ⟨⟨0⟩, 168, 152⟩, ⟨⟨4⟩, 64, 16⟩]
    scraps := [⟨⟨4⟩, 80, 8⟩]
    dropped := [⟨[], [⟨⟨5⟩, 64, 4032⟩], [], [], 4032, 8⟩] }

theorem stockUses_proper : Proper 2 stockUses :=
  ⟨by decide, by decide, by decide⟩

theorem stockUses_performed : (opened 2).performEach stockUses = .ok stock := by cbv

theorem stockUses_accounts : (opened 2).performEach stockUses = .ok stock ∧
    Accounts (freedBy stockUses) stock := by
  obtain ⟨shelf, same, _, accounts⟩ := stockUses_proper.accounts
  rw [stockUses_performed] at same
  cases same
  exact ⟨stockUses_performed, accounts⟩

/-- A request of 50 bytes comes to 56. It skips the block of 40 bytes and takes the last one of its
category, which leaves a tail in the same place. -/
theorem stockUses_serve_first : joinedList ∈ stock.lists ∧ joinedList.FirstFit 50 56 ∧
    joinedList.allocate 50 = (.ok (some ⟨⟨3⟩, 512, 56⟩),
      ⟨[⟨⟨1⟩, 64, 40⟩, ⟨⟨3⟩, 568, 40⟩], [⟨⟨2⟩, 64, 3000⟩], [], [], 3080, 12⟩) :=
  ⟨by decide, stockUses_proper.serves_first stockUses_performed (by decide) (by decide) (by decide)
    (by decide), by cbv⟩

end Shelf

end Reclaim
