import Reclaim.Proofs.Page.Vacancy

/-! Sound pages: the objects are arranged, they end below the top, and the top of a swept page is its
end, so that bump allocation and blocks from a free list never meet. Every operation on a page keeps
it sound. -/

namespace Reclaim

namespace Page

structure Sound (page : Page) : Prop where
  arranged : Arranged headerBytes page.objects
  above : headerBytes ≤ page.top
  below : ∀ object ∈ page.objects, object.stop ≤ page.top
  inside : page.top ≤ pageBytes
  full : page.swept = true → page.top = pageBytes

theorem headerBytes_le_pageBytes : headerBytes ≤ pageBytes := by decide

theorem fresh_sound (id : PageId) (space : SpaceKind) : (fresh id space).Sound where
  arranged := headerBytes_le_pageBytes
  above := Nat.le_refl _
  below := by simp [fresh]
  inside := headerBytes_le_pageBytes
  full := by simp [fresh]

theorem bump_eq (page : Page) (request : Nat) :
    page.bump request = (none, page) ∨
      ∃ size, page.swept = false ∧ 0 < size ∧ Word.roundUp? request = some size ∧
        page.top + size ≤ pageBytes ∧
        page.bump request =
          (some page.top,
            { page with
              objects := page.objects ++ [{ offset := page.top, size, marked := false }]
              top := page.top + size }) := by
  unfold bump
  split
  next => exact Or.inl rfl
  next positive =>
    simp only [not_or, Bool.not_eq_true] at positive
    split
    next => exact Or.inl rfl
    next size rounded =>
      have larger := (Word.roundUp?_eq_some rounded).1
      split
      next fits => exact Or.inr ⟨size, positive.2, by omega, rounded, fits, rfl⟩
      next => exact Or.inl rfl

theorem Sound.bump {page next : Page} {request : Nat} {answer : Option Nat} (sound : page.Sound)
    (bumped : page.bump request = (answer, next)) : next.Sound := by
  rcases page.bump_eq request with same | ⟨size, unswept, positive, _, fits, grown⟩
  · rw [same] at bumped
    cases bumped
    exact sound
  · rw [grown] at bumped
    cases bumped
    have above := sound.above
    constructor
    · exact sound.arranged.append above sound.below positive fits
    · dsimp only
      omega
    · intro object member
      dsimp only at member ⊢
      rcases List.mem_append.mp member with earlier | added
      · have below := sound.below object earlier
        omega
      · obtain rfl := List.mem_singleton.mp added
        exact Nat.le_refl _
    · exact fits
    · intro swept
      simp [unswept] at swept

theorem Arranged.modify {cursor position : Nat} {objects : List HeapObject}
    (arranged : Arranged cursor objects) {change : HeapObject → HeapObject}
    (offset : ∀ object, (change object).offset = object.offset)
    (size : ∀ object, (change object).size = object.size) :
    Arranged cursor (objects.modify position change) := by
  induction objects generalizing cursor position with
  | nil => simpa using arranged
  | cons object rest ih =>
      obtain ⟨lower, positive, later⟩ := arranged
      cases position with
      | zero =>
          refine ⟨by rwa [offset], by rwa [size], ?_⟩
          rw [HeapObject.stop, offset, size]
          exact later
      | succ position => exact ⟨lower, positive, ih later⟩

theorem mark_eq (page : Page) (offset : Nat) :
    page.mark offset = (false, page) ∨
      ∃ position, page.mark offset =
        (true,
          { page with
            objects := page.objects.modify position fun object => { object with marked := true } }) := by
  unfold mark
  split
  · exact Or.inl rfl
  · exact Or.inr ⟨_, rfl⟩

theorem mem_modify {objects : List HeapObject} {position : Nat} {change : HeapObject → HeapObject}
    {object : HeapObject} (member : object ∈ objects.modify position change) :
    object ∈ objects ∨ ∃ old ∈ objects, object = change old := by
  induction objects generalizing position with
  | nil => simp at member
  | cons first rest ih =>
      cases position with
      | zero =>
          rw [List.modify_zero_cons] at member
          rcases List.mem_cons.mp member with rfl | inRest
          · exact Or.inr ⟨first, by simp, rfl⟩
          · exact Or.inl (by simp [inRest])
      | succ position =>
          rw [List.modify_succ_cons] at member
          rcases List.mem_cons.mp member with rfl | inRest
          · exact Or.inl (by simp)
          · rcases ih inRest with same | ⟨old, inside, changed⟩
            · exact Or.inl (by simp [same])
            · exact Or.inr ⟨old, by simp [inside], changed⟩

theorem Sound.mark {page next : Page} {offset : Nat} {hit : Bool} (sound : page.Sound)
    (marked : page.mark offset = (hit, next)) : next.Sound := by
  rcases page.mark_eq offset with same | ⟨position, changed⟩
  · rw [same] at marked
    cases marked
    exact sound
  · rw [changed] at marked
    cases marked
    refine ⟨sound.arranged.modify (fun _ => rfl) (fun _ => rfl), sound.above, ?_, sound.inside,
      sound.full⟩
    intro object member
    rcases mem_modify member with same | ⟨old, inside, rfl⟩
    · exact sound.below object same
    · exact sound.below old inside

theorem Sound.markUnswept {page : Page} (sound : page.Sound) : page.markUnswept.Sound :=
  ⟨sound.arranged, sound.above, sound.below, sound.inside, by simp [Page.markUnswept]⟩

theorem Sound.retained {page : Page} (sound : page.Sound) (keep : HeapObject → Bool)
    (sweeps : Nat) : (page.retained (page.objects.filter keep) sweeps).Sound where
  arranged := (sound.arranged.filter keep).map (fun _ => rfl) (fun _ => rfl)
  above := headerBytes_le_pageBytes
  below object member := by
    obtain ⟨old, kept, rfl⟩ := List.mem_map.mp member
    exact Nat.le_trans (sound.below old (List.mem_filter.mp kept).1) sound.inside
  inside := Nat.le_refl _
  full _ := rfl

/-- Halving ends at the last object that does not come later. The window starts at `base`, and the
number of objects that do not come later, counted from the start of the run, is `count`. -/
theorem halve_go_eq (later : HeapObject → Bool) (window : List HeapObject) (base size count : Nat)
    (bound : size ≤ window.length)
    (ordered : ∀ index (inside : index < window.length),
      later window[index] = decide (count ≤ base + index))
    (lower : base < count ∨ base = 0) (upper : count ≤ base + size) :
    halve.go later window base size = count - 1 := by
  fun_induction halve.go later window base size with
  | case1 window base size small => omega
  | case2 window base size large empty =>
      have short := congrArg List.length empty
      simp only [List.length_drop, List.length_nil] at short
      omega
  | case3 window base size large pivot rest dropped isLater ih =>
      have inside : size / 2 < window.length := by omega
      have here : window[size / 2] = pivot := by
        have head := congrArg List.head? dropped
        simpa [List.head?_drop, List.getElem?_eq_getElem inside] using head
      have place := ordered (size / 2) inside
      rw [here, isLater] at place
      have beyond : count ≤ base + size / 2 := by simpa using place.symm
      exact ih (by omega) ordered lower (by omega)
  | case4 window base size large pivot rest dropped notLater ih =>
      have inside : size / 2 < window.length := by omega
      have here : window[size / 2] = pivot := by
        have head := congrArg List.head? dropped
        simpa [List.head?_drop, List.getElem?_eq_getElem inside] using head
      have place := ordered (size / 2) inside
      have reached : base + size / 2 < count := by
        rw [here] at place
        simpa [notLater] using place.symm
      have length := congrArg List.length dropped
      simp only [List.length_drop] at length
      refine ih (by omega) ?_ (Or.inl reached) (by omega)
      intro index bounded
      have moved := ordered (size / 2 + index) (by omega)
      have same : (pivot :: rest)[index] = window[size / 2 + index] := by
        simp only [← dropped, List.getElem_drop]
      rw [same, moved]
      simp only [Nat.add_assoc]

theorem halve_append {later : HeapObject → Bool} {before after : List HeapObject}
    (early : ∀ object ∈ before, later object = false)
    (late : ∀ object ∈ after, later object = true) :
    halve later (before ++ after) = before.length - 1 := by
  unfold halve
  apply halve_go_eq
  · exact Nat.le_refl _
  · intro index inside
    rw [Nat.zero_add]
    by_cases first : index < before.length
    · rw [List.getElem_append_left first, early _ (List.getElem_mem _)]
      simpa using first
    · rw [List.getElem_append_right (by omega), late _ (List.getElem_mem _)]
      simpa using first
  · exact Or.inr rfl
  · simp

theorem positionOf_append {page : Page} {before after : List HeapObject} {offset : Nat}
    (split : page.objects = before ++ after)
    (early : ∀ object ∈ before, object.offset < offset)
    (late : ∀ object ∈ after, offset ≤ object.offset) :
    page.positionOf offset = before.length := by
  have halved : halve (fun object => decide (offset ≤ object.offset)) (before ++ after) =
      before.length - 1 := by
    apply halve_append
    · intro object member
      simpa using early object member
    · intro object member
      simpa using late object member
  simp only [positionOf, split, halved]
  obtain rfl | ⟨front, last, rfl⟩ := before.eq_nil_or_concat
  · cases after with
    | nil => rfl
    | cons first rest =>
        have below : ¬ first.offset < offset := Nat.not_lt.mpr (late first (by simp))
        simp [below]
  · have below : last.offset < offset := early last (by simp)
    simp [below]

theorem place_eq {page : Page} {before after : List HeapObject} {offset size : Nat}
    (sound : page.Sound) (split : page.objects = before ++ after)
    (below : ∀ object ∈ before, object.stop ≤ offset)
    (above : ∀ object ∈ after, offset + size ≤ object.offset)
    (lower : headerBytes ≤ offset) (upper : offset + size ≤ pageBytes) :
    page.place offset size =
      .ok { page with objects := before ++ { offset, size, marked := false } :: after } := by
  have early : ∀ object ∈ before, object.offset < offset := by
    intro object member
    have stop := below object member
    have positive := (sound.arranged.bounds (by simp [split, member] : object ∈ page.objects)).2.1
    unfold HeapObject.stop at stop
    omega
  have late : ∀ object ∈ after, offset ≤ object.offset := fun object member => by
    have bound := above object member
    omega
  have inWord : offset + size < Word.limit := by
    have page : pageBytes < Word.limit := by decide
    omega
  have previous : (before.getLast?.any fun object => decide (offset < object.stop)) = false := by
    cases last : before.getLast? with
    | none => rfl
    | some object =>
        have stop := below object (List.mem_of_getLast? last)
        simpa using stop
  have next : (after.head?.any fun object => decide (object.offset < offset + size)) = false := by
    cases first : after.head? with
    | none => rfl
    | some object =>
        have start := above object (List.mem_of_head? first)
        simpa using start
  unfold place
  rw [if_neg (Nat.not_lt.mpr lower)]
  simp only [Word.add, inWord, if_true, positionOf_append split early late, split,
    List.take_left, List.drop_left, previous, next, Bool.false_eq_true, if_false]
  rw [if_neg (Nat.not_lt.mpr upper)]

end Page

end Reclaim
