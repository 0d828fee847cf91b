import Reclaim.Identity
import Reclaim.Word

/-! Faults: the ways in which an operation of the collector stops short, each with its message. A
fault ends the operation where it stands, so an operation on a state answers with the state it
leaves behind, faulted or not. -/

namespace Reclaim

inductive Fault where
  | addOverflow
  | subtractOverflow
  | indexOutOfRange (length index : Nat)
  | noBatches
  | outsideObjectArea
  | overlapsPrevious
  | overlapsNext
  | sweptTwice (page : PageId)
  | unpublishedPage (page : PageId)
  | wrongSpace (page target : SpaceKind)
  | startAfterStop
  | roundInFlight
  | batchStillHeld (sweeper : Nat)
  | sweeperStillInFlight (sweeper : Nat)
  deriving DecidableEq, Repr

def Fault.message : Fault → String
  | .addOverflow => "attempt to add with overflow"
  | .subtractOverflow => "attempt to subtract with overflow"
  | .indexOutOfRange length index =>
      "index out of bounds: the len is " ++ toString length ++ " but the index is " ++
        toString index
  | .noBatches => "cannot partition pages into zero batches"
  | .outsideObjectArea =>
      "assertion failed: offset >= PAGE_HEADER_SIZE && offset + size <= PAGE_SIZE"
  | .overlapsPrevious => "assertion failed: pos == 0 || self.objects[pos - 1].end() <= offset"
  | .overlapsNext =>
      "assertion failed: pos == self.objects.len() || offset + size <= self.objects[pos].offset"
  | .sweptTwice page => "page " ++ page.describe ++ " swept twice in one cycle"
  | .unpublishedPage page => "free block points at unpublished page " ++ page.describe
  | .wrongSpace page target =>
      "assertion `left == right` failed\n  left: " ++ page.label ++ "\n right: " ++ target.label
  | .startAfterStop => "start_sweeping called after stop"
  | .roundInFlight => "start_sweeping called while a round is in flight"
  | .batchStillHeld sweeper => "sweeper " ++ toString sweeper ++ " still holds a batch"
  | .sweeperStillInFlight sweeper =>
      "sweeper " ++ toString sweeper ++ " started before its previous round ended"

def Word.add (left right : Nat) : Except Fault Nat :=
  if left + right < Word.limit then .ok (left + right) else .error .addOverflow

def Word.sub (left right : Nat) : Except Fault Nat :=
  if right ≤ left then .ok (left - right) else .error .subtractOverflow

def Word.addHalf (left right : Nat) : Except Fault Nat :=
  if left + right < Word.halfLimit then .ok (left + right) else .error .addOverflow

theorem Word.add_eq_ok {left right sum : Nat} :
    Word.add left right = .ok sum ↔ left + right < Word.limit ∧ sum = left + right := by
  unfold Word.add
  split
  next bound => simp [bound, eq_comm]
  next bound => simp [bound]

theorem Word.sub_eq_ok {left right difference : Nat} :
    Word.sub left right = .ok difference ↔ right ≤ left ∧ difference = left - right := by
  unfold Word.sub
  split
  next bound => simp [bound, eq_comm]
  next bound => simp [bound]

end Reclaim
