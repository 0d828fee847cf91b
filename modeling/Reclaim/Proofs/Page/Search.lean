import Reclaim.Proofs.Page.Placing

/-! Looking for objects by their offsets. While the objects of a page are arranged, halving finds the
object that starts at an offset whenever there is one, so asking for an offset and marking it concern
that object and no other. -/

namespace Reclaim

namespace Page

variable {page : Page} {cursor : Nat} {objects : List HeapObject}

theorem Arranged.increasing (arranged : Arranged cursor objects) :
    objects.Pairwise fun object later => object.offset < later.offset := by
  refine arranged.apart.imp_of_mem ?_
  intro object later inside _ below
  have positive := (arranged.bounds inside).2.1
  unfold HeapObject.stop at below
  omega

theorem Arranged.split (arranged : Arranged cursor objects) (offset : Nat) :
    ∃ before after, objects = before ++ after ∧ (∀ object ∈ before, object.offset ≤ offset) ∧
      ∀ object ∈ after, offset < object.offset := by
  induction objects generalizing cursor with
  | nil => exact ⟨[], [], rfl, nofun, nofun⟩
  | cons first rest ih =>
      obtain ⟨_, positive, later⟩ := arranged
      by_cases low : first.offset ≤ offset
      · obtain ⟨before, after, split, early, late⟩ := ih later
        refine ⟨first :: before, after, by rw [split]; rfl, ?_, late⟩
        intro object member
        rcases List.mem_cons.mp member with rfl | inBefore
        · exact low
        · exact early object inBefore
      · refine ⟨[], first :: rest, rfl, nofun, ?_⟩
        intro object member
        rcases List.mem_cons.mp member with rfl | inRest
        · omega
        · have bound := (later.bounds inRest).1
          unfold HeapObject.stop at bound
          omega

theorem find?_cases (arranged : Arranged cursor page.objects) (offset : Nat) :
    (page.find? offset = none ∧ ∀ object ∈ page.objects, object.offset ≠ offset) ∨
      ∃ front object back, page.objects = front ++ object :: back ∧ object.offset = offset ∧
        page.find? offset = some front.length := by
  obtain ⟨before, after, split, early, late⟩ := arranged.split offset
  have halved : halve (fun object => decide (offset < object.offset)) page.objects =
      before.length - 1 := by
    rw [split]
    apply halve_append
    · intro object member
      have low := early object member
      simpa using low
    · intro object member
      simpa using late object member
  have increasing := arranged.increasing
  unfold find?
  rw [halved]
  rw [split] at increasing ⊢
  obtain rfl | ⟨front, last, rfl⟩ := before.eq_nil_or_concat
  · -- Every object starts beyond the offset, the first one too.
    left
    have beyond : ∀ object ∈ after, object.offset ≠ offset := by
      intro object member
      have high := late object member
      omega
    refine ⟨?_, beyond⟩
    cases after with
    | nil => rfl
    | cons first rest =>
        have first := beyond first (by simp)
        simp [first]
  · have place : (front ++ [last]).length - 1 = front.length := by simp
    rw [List.concat_eq_append] at *
    rw [place, List.append_assoc, List.singleton_append] at *
    by_cases here : last.offset = offset
    · right
      exact ⟨front, last, after, rfl, here, by simp [here]⟩
    · left
      refine ⟨by simp [here], ?_⟩
      intro object member
      have low := early last (by simp)
      have apart := (List.pairwise_append.mp increasing).2.2
      rcases List.mem_append.mp member with inFront | inBack
      · have before := apart object inFront last (by simp)
        omega
      · rcases List.mem_cons.mp inBack with rfl | inAfter
        · exact here
        · have high := late object inAfter
          omega

theorem containsObject_iff (arranged : Arranged cursor page.objects) (offset : Nat) :
    page.containsObject offset = true ↔ ∃ object ∈ page.objects, object.offset = offset := by
  unfold containsObject
  rcases find?_cases arranged offset with ⟨none, other⟩ | ⟨front, object, back, split, here, found⟩
  · rw [none]
    constructor
    · intro impossible
      cases impossible
    · rintro ⟨object, member, here⟩
      exact absurd here (other object member)
  · rw [found]
    constructor
    · intro _
      exact ⟨object, by simp [split], here⟩
    · intro _
      rfl

theorem isMarked_iff (arranged : Arranged cursor page.objects) (offset : Nat) :
    page.isMarked offset = true ↔
      ∃ object ∈ page.objects, object.offset = offset ∧ object.marked = true := by
  unfold isMarked
  rcases find?_cases arranged offset with ⟨none, other⟩ | ⟨front, object, back, split, here, found⟩
  · rw [none]
    constructor
    · intro impossible
      cases impossible
    · rintro ⟨object, member, here, _⟩
      exact absurd here (other object member)
  · have inside : object ∈ page.objects := by simp [split]
    have stored : page.objects[front.length]? = some object := by simp [split]
    rw [found, Option.any_some, stored, Option.any_some]
    constructor
    · intro marked
      exact ⟨object, inside, here, marked⟩
    · rintro ⟨other, member, same, marked⟩
      have one := arranged.eq_of_offset inside member (here.trans same.symm)
      rwa [one]

/-- Marking answers whether an object starts at the offset, and marks no other object. -/
theorem mark_spec (arranged : Arranged cursor page.objects) (offset : Nat) :
    page.mark offset = (page.containsObject offset,
      { page with objects := page.objects.map fun object =>
          if object.offset = offset then { object with marked := true } else object }) := by
  have others {some : List HeapObject} (elsewhere : ∀ object ∈ some, object.offset ≠ offset) :
      (some.map fun object => if object.offset = offset then { object with marked := true }
        else object) = some := by
    conv_rhs => rw [← List.map_id some]
    refine List.map_congr_left ?_
    intro object member
    exact if_neg (elsewhere object member)
  unfold mark containsObject
  rcases find?_cases arranged offset with ⟨none, other⟩ | ⟨front, object, back, split, here, found⟩
  · rw [none, others other]
    rfl
  · have increasing := arranged.increasing
    rw [split] at increasing
    obtain ⟨_, after, before⟩ := List.pairwise_append.mp increasing
    have early : ∀ other ∈ front, other.offset ≠ offset := by
      intro other member
      have below := before other member object (by simp)
      omega
    have late : ∀ other ∈ back, other.offset ≠ offset := by
      intro other member
      have above := (List.pairwise_cons.mp after).1 other member
      omega
    rw [found, split, List.map_append, List.map_cons, others early, others late, if_pos here]
    simp only [Option.isSome_some]
    congr 2
    rw [List.modify_eq_set_getElem?]
    simp

/-- Marking at several offsets, in any order and some of them twice, marks the objects that start
there. -/
theorem markEach_spec (arranged : Arranged cursor page.objects) (offsets : List Nat) :
    (page.markEach offsets).2 = { page with objects := page.objects.map fun object =>
      if object.offset ∈ offsets then { object with marked := true } else object } := by
  induction offsets generalizing page with
  | nil =>
      simp only [List.not_mem_nil, if_false, List.map_id']
      rfl
  | cons offset rest ih =>
      have first := congrArg Prod.snd (mark_spec arranged offset)
      dsimp only at first
      have still : Arranged cursor (page.mark offset).2.objects := by
        rw [first]
        exact arranged.map (fun object => by split <;> rfl) (fun object => by split <;> rfl)
      have later := ih still
      rw [markEach]
      dsimp only
      rw [later, first]
      dsimp only
      rw [List.map_map]
      congr 1
      refine List.map_congr_left fun object _ => ?_
      by_cases here : object.offset = offset <;> by_cases there : object.offset ∈ rest <;>
        simp [here, there]

end Page

end Reclaim
