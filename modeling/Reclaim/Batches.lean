import Reclaim.Fault

/-! Dividing work: a list is cut into consecutive batches whose sizes differ by at most one, the
longer ones first. -/

namespace Reclaim

def batchSize (total parts index : Nat) : Nat :=
  total / parts + if index < total % parts then 1 else 0

def cut {α : Type} : List Nat → List α → List (List α)
  | [], _ => []
  | size :: sizes, items => items.take size :: cut sizes (items.drop size)

def batches {α : Type} (items : List α) (parts : Nat) : Except Fault (List (List α)) :=
  if parts = 0 then .error .noBatches
  else .ok (cut ((List.range parts).map (batchSize items.length parts)) items)

end Reclaim
