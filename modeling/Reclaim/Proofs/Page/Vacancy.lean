import Mathlib.Algebra.BigOperators.Group.List.Basic
import Mathlib.Algebra.GroupWithZero.Nat
import Reclaim.Page.Sweep

/-! The free ranges of a page. A run of objects is arranged when the objects stand one after another
between a cursor and the end of the page. The gaps that a sweep walks over are then exactly the
maximal ranges of bytes that no object covers, and an object placed at the start of a gap leaves the
rest of that gap and every other gap as they were. -/

namespace Reclaim

namespace Page

def Arranged (cursor : Nat) : List HeapObject → Prop
  | [] => cursor ≤ pageBytes
  | object :: rest => cursor ≤ object.offset ∧ 0 < object.size ∧ Arranged object.stop rest

def Vacant (cursor : Nat) (objects : List HeapObject) (byte : Nat) : Prop :=
  cursor ≤ byte ∧ byte < pageBytes ∧ ∀ object ∈ objects, byte < object.offset ∨ object.stop ≤ byte

structure IsGap (cursor : Nat) (objects : List HeapObject) (gap : Gap) : Prop where
  positive : 0 < gap.size
  vacant : ∀ byte, gap.offset ≤ byte → byte < gap.offset + gap.size → Vacant cursor objects byte
  before : ∀ byte, byte + 1 = gap.offset → ¬ Vacant cursor objects byte
  after : ¬ Vacant cursor objects (gap.offset + gap.size)

theorem Arranged.le_pageBytes {cursor : Nat} {objects : List HeapObject}
    (arranged : Arranged cursor objects) : cursor ≤ pageBytes := by
  induction objects generalizing cursor with
  | nil => exact arranged
  | cons object rest ih =>
      obtain ⟨lower, positive, later⟩ := arranged
      have stop := ih later
      unfold HeapObject.stop at stop
      omega

theorem Arranged.bounds {cursor : Nat} {objects : List HeapObject}
    (arranged : Arranged cursor objects) {object : HeapObject} (member : object ∈ objects) :
    cursor ≤ object.offset ∧ 0 < object.size ∧ object.stop ≤ pageBytes := by
  induction objects generalizing cursor with
  | nil => cases member
  | cons first rest ih =>
      obtain ⟨lower, positive, later⟩ := arranged
      rcases List.mem_cons.mp member with rfl | inRest
      · exact ⟨lower, positive, later.le_pageBytes⟩
      · have bounds := ih later inRest
        unfold HeapObject.stop at bounds ⊢
        exact ⟨by omega, bounds.2⟩

theorem Arranged.weaken {cursor lower : Nat} {objects : List HeapObject}
    (arranged : Arranged cursor objects) (below : lower ≤ cursor) : Arranged lower objects := by
  cases objects with
  | nil => exact Nat.le_trans below arranged
  | cons object rest => exact ⟨Nat.le_trans below arranged.1, arranged.2⟩

theorem Arranged.eq_of_offset {cursor : Nat} {objects : List HeapObject}
    (arranged : Arranged cursor objects) {object other : HeapObject} (inside : object ∈ objects)
    (found : other ∈ objects) (same : object.offset = other.offset) : object = other := by
  induction objects generalizing cursor with
  | nil => cases inside
  | cons first rest ih =>
      obtain ⟨_, positive, later⟩ := arranged
      rcases List.mem_cons.mp inside with rfl | inRest
      · rcases List.mem_cons.mp found with rfl | otherInRest
        · rfl
        · have bound := (later.bounds otherInRest).1
          unfold HeapObject.stop at bound
          omega
      · rcases List.mem_cons.mp found with rfl | otherInRest
        · have bound := (later.bounds inRest).1
          unfold HeapObject.stop at bound
          omega
        · exact ih later inRest otherInRest

theorem Arranged.filter {cursor : Nat} {objects : List HeapObject}
    (arranged : Arranged cursor objects) (keep : HeapObject → Bool) :
    Arranged cursor (objects.filter keep) := by
  induction objects generalizing cursor with
  | nil => exact arranged
  | cons object rest ih =>
      obtain ⟨lower, positive, later⟩ := arranged
      by_cases kept : keep object = true
      · rw [List.filter_cons_of_pos kept]
        exact ⟨lower, positive, ih later⟩
      · rw [List.filter_cons_of_neg kept]
        exact (ih later).weaken (by unfold HeapObject.stop; omega)

theorem Arranged.map {cursor : Nat} {objects : List HeapObject}
    (arranged : Arranged cursor objects) {change : HeapObject → HeapObject}
    (offset : ∀ object, (change object).offset = object.offset)
    (size : ∀ object, (change object).size = object.size) :
    Arranged cursor (objects.map change) := by
  induction objects generalizing cursor with
  | nil => exact arranged
  | cons object rest ih =>
      obtain ⟨lower, positive, later⟩ := arranged
      refine ⟨by rwa [offset], by rwa [size], ?_⟩
      have stop : (change object).stop = object.stop := by
        unfold HeapObject.stop
        rw [offset, size]
      rw [stop]
      exact ih later

theorem Arranged.append {cursor : Nat} {objects : List HeapObject} {object : HeapObject}
    (arranged : Arranged cursor objects) (lower : cursor ≤ object.offset)
    (beyond : ∀ earlier ∈ objects, earlier.stop ≤ object.offset) (positive : 0 < object.size)
    (upper : object.stop ≤ pageBytes) : Arranged cursor (objects ++ [object]) := by
  induction objects generalizing cursor with
  | nil => exact ⟨lower, positive, upper⟩
  | cons first rest ih =>
      refine ⟨arranged.1, arranged.2.1, ?_⟩
      exact ih arranged.2.2 (beyond first (by simp))
        (fun earlier member => beyond earlier (by simp [member]))

theorem vacant_nil {cursor byte : Nat} :
    Vacant cursor [] byte ↔ cursor ≤ byte ∧ byte < pageBytes := by
  simp [Vacant]

theorem vacant_cons {cursor byte : Nat} {object : HeapObject} {rest : List HeapObject}
    (arranged : Arranged cursor (object :: rest)) :
    Vacant cursor (object :: rest) byte ↔
      (cursor ≤ byte ∧ byte < object.offset) ∨ Vacant object.stop rest byte := by
  obtain ⟨lower, positive, later⟩ := arranged
  have upper := later.le_pageBytes
  constructor
  · rintro ⟨low, high, clear⟩
    rcases clear object (by simp) with below | above
    · exact Or.inl ⟨low, below⟩
    · exact Or.inr ⟨above, high, fun other member => clear other (by simp [member])⟩
  · rintro (⟨low, below⟩ | ⟨low, high, clear⟩)
    · unfold HeapObject.stop at upper
      refine ⟨low, by omega, ?_⟩
      intro other member
      rcases List.mem_cons.mp member with rfl | inRest
      · exact Or.inl below
      · have bounds := later.bounds inRest
        unfold HeapObject.stop at bounds
        exact Or.inl (by omega)
    · refine ⟨by unfold HeapObject.stop at low; omega, high, ?_⟩
      intro other member
      rcases List.mem_cons.mp member with rfl | inRest
      · exact Or.inr low
      · exact clear other inRest

theorem isGap_nil {cursor : Nat} {gap : Gap} :
    IsGap cursor [] gap ↔ cursor < pageBytes ∧ gap = ⟨cursor, pageBytes - cursor⟩ := by
  obtain ⟨offset, size⟩ := gap
  constructor
  · rintro ⟨positive, vacant, before, after⟩
    simp only [vacant_nil] at positive vacant before after
    have first := vacant offset (Nat.le_refl _) (by omega)
    have last := vacant (offset + size - 1) (by omega) (by omega)
    have start : offset = cursor := by
      by_cases inside : cursor < offset
      · exact absurd ⟨by omega, by omega⟩ (before (offset - 1) (by omega))
      · omega
    refine ⟨by omega, ?_⟩
    simp only [Gap.mk.injEq]
    omega
  · rintro ⟨room, equal⟩
    simp only [Gap.mk.injEq] at equal
    obtain ⟨rfl, rfl⟩ := equal
    constructor <;> simp only [vacant_nil] <;> intros <;> omega

section Cons

variable {cursor : Nat} {object : HeapObject} {rest : List HeapObject} {gap : Gap}

theorem not_vacant_offset (arranged : Arranged cursor (object :: rest)) :
    ¬ Vacant cursor (object :: rest) object.offset := by
  have positive := arranged.2.1
  rw [vacant_cons arranged]
  rintro (left | right)
  · omega
  · have low := right.1
    unfold HeapObject.stop at low
    omega

theorem isGap_first (arranged : Arranged cursor (object :: rest)) (room : cursor < object.offset) :
    IsGap cursor (object :: rest) ⟨cursor, object.offset - cursor⟩ := by
  refine ⟨by dsimp only; omega, ?_, ?_, ?_⟩
  · intro byte lower upper
    dsimp only at lower upper
    exact (vacant_cons arranged).mpr (Or.inl ⟨lower, by omega⟩)
  · intro byte next free
    have low := free.1
    dsimp only at next
    omega
  · dsimp only
    rw [Nat.add_sub_cancel' (Nat.le_of_lt room)]
    exact not_vacant_offset arranged

theorem IsGap.cons (arranged : Arranged cursor (object :: rest)) (found : IsGap object.stop rest gap) :
    IsGap cursor (object :: rest) gap := by
  obtain ⟨positive, vacant, before, after⟩ := found
  have wide : object.offset < object.stop := Nat.lt_add_of_pos_right arranged.2.1
  have low := (vacant gap.offset (Nat.le_refl _) (by omega)).1
  refine ⟨positive, ?_, ?_, ?_⟩
  · intro byte lower upper
    exact (vacant_cons arranged).mpr (Or.inr (vacant byte lower upper))
  · intro byte next free
    rcases (vacant_cons arranged).mp free with left | right
    · omega
    · exact before byte next right
  · intro free
    rcases (vacant_cons arranged).mp free with left | right
    · omega
    · exact after right

theorem IsGap.eq_first (arranged : Arranged cursor (object :: rest))
    (found : IsGap cursor (object :: rest) gap) (left : gap.offset < object.offset) :
    cursor < object.offset ∧ gap = ⟨cursor, object.offset - cursor⟩ := by
  obtain ⟨offset, size⟩ := gap
  obtain ⟨positive, vacant, before, after⟩ := found
  dsimp only at positive vacant before after left
  have low := (vacant offset (Nat.le_refl _) (by omega)).1
  have short : offset + size ≤ object.offset := by
    by_contra long
    exact not_vacant_offset arranged (vacant object.offset (by omega) (by omega))
  have start : offset = cursor := by
    by_contra inside
    exact before (offset - 1) (by omega) ((vacant_cons arranged).mpr (Or.inl ⟨by omega, by omega⟩))
  have stop : object.offset ≤ offset + size := by
    by_contra inside
    exact after ((vacant_cons arranged).mpr (Or.inl ⟨by omega, by omega⟩))
  refine ⟨by omega, ?_⟩
  simp only [Gap.mk.injEq]
  omega

theorem IsGap.of_cons (arranged : Arranged cursor (object :: rest))
    (found : IsGap cursor (object :: rest) gap) (low : object.stop ≤ gap.offset) :
    IsGap object.stop rest gap := by
  have wide : object.offset < object.stop := Nat.lt_add_of_pos_right arranged.2.1
  refine ⟨found.positive, ?_, ?_, ?_⟩
  · intro byte lower upper
    rcases (vacant_cons arranged).mp (found.vacant byte lower upper) with left | inRest
    · omega
    · exact inRest
  · intro byte next free
    exact found.before byte next ((vacant_cons arranged).mpr (Or.inr free))
  · intro free
    exact found.after ((vacant_cons arranged).mpr (Or.inr free))

theorem isGap_cons (arranged : Arranged cursor (object :: rest)) :
    IsGap cursor (object :: rest) gap ↔
      (cursor < object.offset ∧ gap = ⟨cursor, object.offset - cursor⟩) ∨
        IsGap object.stop rest gap := by
  constructor
  · intro found
    have positive := found.positive
    have first := found.vacant gap.offset (Nat.le_refl _) (by omega)
    rcases (vacant_cons arranged).mp first with left | right
    · exact Or.inl (found.eq_first arranged left.2)
    · exact Or.inr (found.of_cons arranged right.1)
  · rintro (⟨room, rfl⟩ | found)
    · exact isGap_first arranged room
    · exact found.cons arranged

end Cons

/-- A sweep walks over exactly the maximal free ranges. -/
theorem mem_gapsFrom {cursor : Nat} {objects : List HeapObject} {gap : Gap}
    (arranged : Arranged cursor objects) :
    gap ∈ gapsFrom cursor objects ↔ IsGap cursor objects gap := by
  induction objects generalizing cursor with
  | nil =>
      rw [isGap_nil, gapsFrom]
      by_cases room : cursor < pageBytes <;> simp [room]
  | cons object rest ih =>
      -- A maximal range ends before the first object or starts after it.
      rw [isGap_cons arranged, gapsFrom, ← ih arranged.2.2]
      by_cases room : cursor < object.offset <;> simp [room]

theorem gapsFrom_pairwise {cursor : Nat} {objects : List HeapObject}
    (arranged : Arranged cursor objects) :
    (gapsFrom cursor objects).Pairwise fun gap later => gap.offset + gap.size < later.offset := by
  induction objects generalizing cursor with
  | nil =>
      rw [gapsFrom]
      split <;> simp
  | cons object rest ih =>
      obtain ⟨lower, positive, later⟩ := arranged
      rw [gapsFrom]
      split
      next room =>
        refine List.pairwise_cons.mpr ⟨?_, ih later⟩
        intro gap member
        have found := (mem_gapsFrom later).mp member
        have low := (found.vacant gap.offset (Nat.le_refl _) (by have := found.positive; omega)).1
        unfold HeapObject.stop at low
        dsimp only
        omega
      next => exact ih later

theorem gapsFrom_nodup {cursor : Nat} {objects : List HeapObject}
    (arranged : Arranged cursor objects) : (gapsFrom cursor objects).Nodup :=
  (gapsFrom_pairwise arranged).imp fun before equal => by
    rw [equal] at before
    omega

theorem gapsFrom_positive {cursor : Nat} {objects : List HeapObject} {gap : Gap}
    (member : gap ∈ gapsFrom cursor objects) : 0 < gap.size := by
  induction objects generalizing cursor with
  | nil =>
      rw [gapsFrom] at member
      split at member
      next room =>
        obtain rfl := List.mem_singleton.mp member
        dsimp only
        omega
      next => cases member
  | cons object rest ih =>
      rw [gapsFrom] at member
      split at member
      next room =>
        rcases List.mem_cons.mp member with rfl | inRest
        · dsimp only
          omega
        · exact ih inRest
      next => exact ih member

theorem gapsFrom_stop_le {cursor : Nat} {objects : List HeapObject} {gap : Gap}
    (arranged : Arranged cursor objects) (member : gap ∈ gapsFrom cursor objects) :
    gap.offset + gap.size ≤ pageBytes := by
  have found := (mem_gapsFrom arranged).mp member
  have positive := found.positive
  have last := (found.vacant (gap.offset + gap.size - 1) (by omega) (by omega)).2.1
  omega

theorem gapsFrom_bytes {cursor : Nat} {objects : List HeapObject}
    (arranged : Arranged cursor objects) :
    ((gapsFrom cursor objects).map (·.size)).sum + (objects.map (·.size)).sum + cursor =
      pageBytes := by
  induction objects generalizing cursor with
  | nil =>
      have upper : cursor ≤ pageBytes := arranged
      rw [gapsFrom]
      split
      · simp only [List.map_cons, List.map_nil, List.sum_cons, List.sum_nil]
        omega
      · simp only [List.map_nil, List.sum_nil]
        omega
  | cons object rest ih =>
      obtain ⟨lower, positive, later⟩ := arranged
      have total := ih later
      unfold HeapObject.stop at total
      rw [gapsFrom]
      unfold HeapObject.stop
      split
      · simp only [List.map_cons, List.sum_cons]
        omega
      · simp only [List.map_cons, List.sum_cons]
        omega

theorem gapsFrom_map {cursor : Nat} {objects : List HeapObject} {change : HeapObject → HeapObject}
    (offset : ∀ object, (change object).offset = object.offset)
    (size : ∀ object, (change object).size = object.size) :
    gapsFrom cursor (objects.map change) = gapsFrom cursor objects := by
  induction objects generalizing cursor with
  | nil => rfl
  | cons object rest ih =>
      have stop : (change object).stop = object.stop := by
        unfold HeapObject.stop
        rw [offset, size]
      simp only [List.map_cons, gapsFrom, offset, stop, ih]

def gapTail (gap : Gap) (size : Nat) : List Gap :=
  if gap.size = size then [] else [⟨gap.offset + size, gap.size - size⟩]

structure Fills (cursor : Nat) (objects : List HeapObject) (gap : Gap) (object : HeapObject)
    (before after : List HeapObject) : Prop where
  split : objects = before ++ after
  below : ∀ earlier ∈ before, earlier.stop ≤ gap.offset
  above : ∀ later ∈ after, gap.offset + gap.size ≤ later.offset
  arranged : Arranged cursor (before ++ object :: after)
  gaps : ∃ front back, gapsFrom cursor objects = front ++ gap :: back ∧
    gapsFrom cursor (before ++ object :: after) = front ++ gapTail gap object.size ++ back

theorem Fills.cons {cursor : Nat} {first object : HeapObject} {rest before after : List HeapObject}
    {gap : Gap} (filled : Fills first.stop rest gap object before after)
    (lower : cursor ≤ first.offset) (wide : 0 < first.size) (low : first.stop ≤ gap.offset) :
    Fills cursor (first :: rest) gap object (first :: before) after := by
  obtain ⟨split, below, above, placed, front, back, old, new⟩ := filled
  refine ⟨by rw [split]; rfl, ?_, above, ⟨lower, wide, placed⟩, ?_⟩
  · intro earlier inside
    rcases List.mem_cons.mp inside with rfl | inBefore
    · exact low
    · exact below earlier inBefore
  · by_cases room : cursor < first.offset
    · refine ⟨⟨cursor, first.offset - cursor⟩ :: front, back, ?_, ?_⟩
      · simp only [gapsFrom, room, if_true, old, List.cons_append]
      · simp only [List.cons_append, gapsFrom, room, if_true, new]
    · refine ⟨front, back, ?_, ?_⟩
      · simp only [gapsFrom, room, if_false, old]
      · simp only [List.cons_append, gapsFrom, room, if_false, new]

theorem gap_fills {cursor : Nat} {objects : List HeapObject} {gap : Gap} (object : HeapObject)
    (arranged : Arranged cursor objects) (member : gap ∈ gapsFrom cursor objects)
    (start : object.offset = gap.offset) (positive : 0 < object.size)
    (fits : object.size ≤ gap.size) :
    ∃ before after, Fills cursor objects gap object before after := by
  have stop : object.stop = gap.offset + object.size := by rw [HeapObject.stop, start]
  induction objects generalizing cursor with
  | nil =>
      rw [gapsFrom] at member
      split at member
      next room =>
        obtain rfl := List.mem_singleton.mp member
        dsimp only at start fits stop
        refine ⟨[], [], rfl, by simp, by simp, ?_, [], [], ?_⟩
        · exact ⟨by omega, positive, by simp only [Arranged]; omega⟩
        · have none : ¬ cursor < object.offset := by omega
          simp only [gapsFrom, room, none, if_true, if_false, gapTail, stop, List.nil_append,
            List.append_nil, true_and]
          by_cases whole : pageBytes - cursor = object.size
          · rw [if_neg (by omega), if_pos whole]
          · rw [if_pos (by omega), if_neg whole, Nat.sub_add_eq]
      next => cases member
  | cons first rest ih =>
      obtain ⟨lower, wide, later⟩ := arranged
      rw [gapsFrom] at member
      -- The object fills the range before the first one, or it comes later and the induction has it.
      by_cases leading : cursor < first.offset ∧ gap = ⟨cursor, first.offset - cursor⟩
      · obtain ⟨room, rfl⟩ := leading
        dsimp only at start fits stop
        refine ⟨[], first :: rest, rfl, by simp, ?_, ?_, [], gapsFrom first.stop rest, ?_⟩
        · intro other inside
          rcases List.mem_cons.mp inside with rfl | inRest
          · dsimp only
            omega
          · have bounds := later.bounds inRest
            unfold HeapObject.stop at bounds
            dsimp only
            omega
        · exact ⟨by omega, positive, by omega, wide, later⟩
        · have none : ¬ cursor < object.offset := by omega
          simp only [gapsFrom, room, none, if_true, if_false, gapTail, stop, List.nil_append,
            true_and]
          by_cases whole : first.offset - cursor = object.size
          · rw [if_neg (by omega), if_pos whole]
            rfl
          · rw [if_pos (by omega), if_neg whole, Nat.sub_add_eq]
            rfl
      · have inRest : gap ∈ gapsFrom first.stop rest := by
          split at member
          next room => exact (List.mem_cons.mp member).resolve_left fun equal => leading ⟨room, equal⟩
          next => exact member
        have low := (((mem_gapsFrom later).mp inRest).vacant gap.offset (Nat.le_refl _) (by omega)).1
        obtain ⟨before, after, filled⟩ := ih later inRest
        exact ⟨first :: before, after, filled.cons lower wide low⟩

end Page

end Reclaim
