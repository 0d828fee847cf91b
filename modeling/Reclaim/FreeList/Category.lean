import Reclaim.Word

/-! Size categories of free blocks. A category holds every block up to its limit in words, so the
categories are ordered like the sizes they hold. -/

namespace Reclaim

inductive Category where
  | small
  | medium
  | large
  | huge
  deriving DecidableEq, Repr, Inhabited

namespace Category

def smallLimit : Nat := 0xff * Word.bytes

def mediumLimit : Nat := 0x7ff * Word.bytes

def largeLimit : Nat := 0x3fff * Word.bytes

def ofSize (size : Nat) : Category :=
  if size ≤ smallLimit then .small
  else if size ≤ mediumLimit then .medium
  else if size ≤ largeLimit then .large
  else .huge

def rank : Category → Nat
  | .small => 0
  | .medium => 1
  | .large => 2
  | .huge => 3

def label : Category → String
  | .small => "Small"
  | .medium => "Medium"
  | .large => "Large"
  | .huge => "Huge"

def all : List Category := [.small, .medium, .large, .huge]

def onward : Category → List Category
  | .small => [.small, .medium, .large, .huge]
  | .medium => [.medium, .large, .huge]
  | .large => [.large, .huge]
  | .huge => [.huge]

def largest : List Category → Option Category
  | [] => none
  | first :: rest =>
      match largest rest with
      | none => some first
      | some later => some (if first.rank ≤ later.rank then later else first)

theorem mem_onward {category later : Category} :
    later ∈ category.onward ↔ category.rank ≤ later.rank := by
  cases category <;> cases later <;> decide

theorem onward_increasing (category : Category) :
    category.onward.Pairwise fun before later => before.rank < later.rank := by
  cases category <;> decide

theorem rank_ofSize_mono {left right : Nat} (ordered : left ≤ right) :
    (ofSize left).rank ≤ (ofSize right).rank := by
  have small : smallLimit = 2040 := rfl
  have medium : mediumLimit = 16376 := rfl
  have large : largeLimit = 131064 := rfl
  unfold ofSize
  (repeat' split) <;> first | decide | omega

end Category

end Reclaim
