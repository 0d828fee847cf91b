/-! Machine words. Sizes and counters are natural numbers below `Word.limit`; arithmetic that leaves
the word either fails, where the caller checks it, or wraps, where the counter may run over. -/

namespace Reclaim

def Word.limit : Nat := 0x1_0000_0000_0000_0000

def Word.halfLimit : Nat := 0x1_0000_0000

def Word.total (sizes : List Nat) : Nat := sizes.foldr (· + ·) 0

def Word.bytes : Nat := 8

def Word.roundUp? (size : Nat) : Option Nat :=
  let rounded := (size + (Word.bytes - 1)) / Word.bytes * Word.bytes
  if rounded < Word.limit then some rounded else none

def Word.wrappingAdd (left right : Nat) : Nat :=
  (left + right) % Word.limit

theorem Word.roundUp?_eq_some {size rounded : Nat} (found : Word.roundUp? size = some rounded) :
    size ≤ rounded ∧ rounded < size + Word.bytes ∧ rounded % Word.bytes = 0 ∧
      rounded < Word.limit := by
  unfold Word.roundUp? at found
  dsimp only at found
  split at found
  next bound =>
    cases found
    unfold Word.bytes at bound ⊢
    exact ⟨by omega, by omega, by omega, bound⟩
  next => cases found

theorem Word.roundUp?_least {size rounded : Nat} (enough : size ≤ rounded)
    (close : rounded < size + Word.bytes) (whole : rounded % Word.bytes = 0) :
    Word.roundUp? size = if rounded < Word.limit then some rounded else none := by
  have same : (size + (Word.bytes - 1)) / Word.bytes * Word.bytes = rounded := by
    unfold Word.bytes at close whole ⊢
    omega
  unfold Word.roundUp?
  dsimp only
  rw [same]

end Reclaim
