/-! Names of the things a collector handles: heaps, pages, contexts, and the two kinds of space
whose pages are swept in the background. -/

namespace Reclaim

structure PageId where
  number : Nat
  deriving DecidableEq, Repr, Inhabited

structure HeapId where
  number : Nat
  deriving DecidableEq, Repr, Inhabited

structure ContextId where
  number : Nat
  deriving DecidableEq, Repr, Inhabited

inductive SpaceKind where
  | data
  | pointer
  deriving DecidableEq, Repr, Inhabited

def SpaceKind.all : List SpaceKind := [.data, .pointer]

def SpaceKind.index : SpaceKind → Nat
  | .data => 0
  | .pointer => 1

def SpaceKind.label : SpaceKind → String
  | .data => "OldData"
  | .pointer => "OldPointer"

def PageId.describe (page : PageId) : String :=
  "PageId(" ++ toString page.number ++ ")"

def HeapId.describe (heap : HeapId) : String :=
  "HeapId(" ++ toString heap.number ++ ")"

structure BySpace (α : Type) where
  data : α
  pointer : α
  deriving DecidableEq, Repr, Inhabited

namespace BySpace

variable {α β : Type}

def get (both : BySpace α) : SpaceKind → α
  | .data => both.data
  | .pointer => both.pointer

def set (both : BySpace α) (kind : SpaceKind) (value : α) : BySpace α :=
  match kind with
  | .data => { both with data := value }
  | .pointer => { both with pointer := value }

def modify (both : BySpace α) (kind : SpaceKind) (change : α → α) : BySpace α :=
  both.set kind (change (both.get kind))

def map (both : BySpace α) (change : α → β) : BySpace β :=
  ⟨change both.data, change both.pointer⟩

def toList (both : BySpace α) : List α := [both.data, both.pointer]

@[simp] theorem get_set_same (both : BySpace α) (kind : SpaceKind) (value : α) :
    (both.set kind value).get kind = value := by
  cases kind <;> rfl

theorem get_set_other (both : BySpace α) {kind other : SpaceKind} (value : α)
    (distinct : other ≠ kind) : (both.set kind value).get other = both.get other := by
  cases kind <;> cases other <;> first | rfl | exact absurd rfl distinct

end BySpace

end Reclaim
