import Reclaim.Fault

/-! Heap pages. A page is a header followed by an object area in which objects are recorded by
offset and size. A fresh page is filled from the bottom; once it has been swept, objects are placed
into blocks taken from a free list. -/

namespace Reclaim

def pageBytes : Nat := 4096

def headerBytes : Nat := 64

def objectAreaBytes : Nat := pageBytes - headerBytes

structure HeapObject where
  offset : Nat
  size : Nat
  marked : Bool
  deriving DecidableEq, Repr, Inhabited

def HeapObject.stop (object : HeapObject) : Nat := object.offset + object.size

structure Page where
  id : PageId
  space : SpaceKind
  objects : List HeapObject
  top : Nat
  swept : Bool
  sweeps : Nat
  deriving DecidableEq, Repr, Inhabited

namespace Page

def fresh (id : PageId) (space : SpaceKind) : Page :=
  { id, space, objects := [], top := headerBytes, swept := false, sweeps := 0 }

def bump (page : Page) (request : Nat) : Option Nat × Page :=
  if request = 0 ∨ page.swept then (none, page)
  else
    match Word.roundUp? request with
    | none => (none, page)
    | some size =>
        if page.top + size ≤ pageBytes then
          (some page.top,
            { page with
              objects := page.objects ++ [{ offset := page.top, size, marked := false }]
              top := page.top + size })
        else (none, page)

theorem bump_top {page next : Page} {request offset : Nat}
    (bumped : page.bump request = (some offset, next)) :
    page.top < next.top ∧ next.top ≤ pageBytes := by
  unfold bump at bumped
  split at bumped
  next => cases bumped
  next positive =>
    split at bumped
    next => cases bumped
    next size rounded =>
      split at bumped
      next fits =>
        have larger := Word.roundUp?_eq_some rounded
        cases bumped
        simp only [not_or] at positive
        exact ⟨by simp only; omega, fits⟩
      next => cases bumped

def fill (page : Page) (request : Nat) : List Nat × Page :=
  match _bumped : page.bump request with
  | (none, page) => ([], page)
  | (some offset, next) =>
      let (offsets, filled) := fill next request
      (offset :: offsets, filled)
  termination_by pageBytes - page.top
  decreasing_by
    have moved := bump_top _bumped
    omega

/-- The position at which halving a run of objects ends. When the objects that come later stand at
the end of the run, it is the last one that does not, if there is one. -/
def halve (later : HeapObject → Bool) (objects : List HeapObject) : Nat :=
  go objects 0 objects.length
where
  go (window : List HeapObject) (base size : Nat) : Nat :=
    if size ≤ 1 then base
    else
      match window.drop (size / 2) with
      | [] => base
      | pivot :: rest =>
          if later pivot then go window base (size - size / 2)
          else go (pivot :: rest) (base + size / 2) (size - size / 2)
  termination_by size
  decreasing_by all_goals omega

def find? (page : Page) (offset : Nat) : Option Nat :=
  let position := halve (fun object => decide (offset < object.offset)) page.objects
  if page.objects[position]?.any fun object => object.offset == offset then some position else none

def positionOf (page : Page) (offset : Nat) : Nat :=
  let position := halve (fun object => decide (offset ≤ object.offset)) page.objects
  if page.objects[position]?.any fun object => decide (object.offset < offset) then position + 1
  else position

def place (page : Page) (offset size : Nat) : Except Fault Page :=
  if offset < headerBytes then .error .outsideObjectArea
  else
    match Word.add offset size with
    | .error fault => .error fault
    | .ok stop =>
        if pageBytes < stop then .error .outsideObjectArea
        else
          let position := page.positionOf offset
          let before := page.objects.take position
          let after := page.objects.drop position
          if before.getLast?.any fun previous => decide (offset < previous.stop) then
            .error .overlapsPrevious
          else if after.head?.any fun next => decide (next.offset < stop) then
            .error .overlapsNext
          else
            .ok { page with objects := before ++ { offset, size, marked := false } :: after }

def mark (page : Page) (offset : Nat) : Bool × Page :=
  match page.find? offset with
  | none => (false, page)
  | some position =>
      (true,
        { page with
          objects := page.objects.modify position fun object => { object with marked := true } })

def markEach (page : Page) : List Nat → List Bool × Page
  | [] => ([], page)
  | offset :: rest =>
      let (hit, page) := page.mark offset
      let (hits, page) := page.markEach rest
      (hit :: hits, page)

def isMarked (page : Page) (offset : Nat) : Bool :=
  (page.find? offset).any fun position => page.objects[position]?.any (·.marked)

def containsObject (page : Page) (offset : Nat) : Bool :=
  (page.find? offset).isSome

def objectCount (page : Page) : Nat := page.objects.length

def liveBytes (page : Page) : Nat :=
  Word.total ((page.objects.filter (·.marked)).map (·.size))

def allocatedBytes (page : Page) : Nat :=
  Word.total (page.objects.map (·.size))

def deadBytes (page : Page) : Except Fault Nat :=
  Word.sub page.allocatedBytes page.liveBytes

def reclaimableBytes (page : Page) : Except Fault Nat :=
  Word.sub objectAreaBytes page.liveBytes

def markUnswept (page : Page) : Page := { page with swept := false }

end Page

end Reclaim
