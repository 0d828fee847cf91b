import Reclaim.Proofs.Page.Reclaimed

/-! Placing objects on a page. A page leaves a block when no object covers a byte of it. An object that
is placed in such a block goes between two others, and the objects stay arranged. -/

namespace Reclaim

namespace Page

structure Leaves (page : Page) (block : FreeBlock) : Prop where
  owner : block.page = page.id
  low : headerBytes ≤ block.offset
  high : block.offset + block.size ≤ pageBytes
  positive : 0 < block.size
  clear : ∀ object ∈ page.objects,
    object.stop ≤ block.offset ∨ block.offset + block.size ≤ object.offset

variable {page : Page} {block : FreeBlock}

theorem Arranged.apart {cursor : Nat} {objects : List HeapObject}
    (arranged : Arranged cursor objects) :
    objects.Pairwise fun object later => object.stop ≤ later.offset := by
  induction objects generalizing cursor with
  | nil => exact List.Pairwise.nil
  | cons object rest ih =>
      obtain ⟨_, _, later⟩ := arranged
      exact List.pairwise_cons.mpr ⟨fun other member => (later.bounds member).1, ih later⟩

theorem Arranged.gap_clear {cursor : Nat} {objects : List HeapObject} {object : HeapObject}
    {gap : Gap} (arranged : Arranged cursor objects) (member : gap ∈ gapsFrom cursor objects)
    (recorded : object ∈ objects) :
    object.stop ≤ gap.offset ∨ gap.offset + gap.size ≤ object.offset := by
  have found := (mem_gapsFrom arranged).mp member
  have wide := found.positive
  have positive := (arranged.bounds recorded).2.1
  rcases (found.vacant gap.offset (Nat.le_refl _) (by omega)).2.2 object recorded with after | before
  · right
    by_contra reaches
    -- Otherwise the first byte of the object would be one of the gap.
    have first := (found.vacant object.offset (by omega) (by omega)).2.2 object recorded
    unfold HeapObject.stop at first
    omega
  · exact Or.inl before

theorem Sound.ranges_leave (sound : page.Sound) (member : block ∈ page.ranges) :
    page.Leaves block := by
  obtain ⟨gap, inside, rfl⟩ := List.mem_map.mp member
  have found := (mem_gapsFrom sound.arranged).mp inside
  have wide := found.positive
  have start := found.vacant gap.offset (Nat.le_refl _) (by omega)
  refine ⟨rfl, start.1, gapsFrom_stop_le sound.arranged inside, wide, ?_⟩
  intro object recorded
  exact sound.arranged.gap_clear inside recorded

theorem Arranged.insert {cursor : Nat} {objects : List HeapObject} {object : HeapObject}
    (arranged : Arranged cursor objects) (low : cursor ≤ object.offset)
    (high : object.stop ≤ pageBytes) (positive : 0 < object.size)
    (clear : ∀ other ∈ objects, other.stop ≤ object.offset ∨ object.stop ≤ other.offset) :
    ∃ before after, objects = before ++ after ∧
      (∀ earlier ∈ before, earlier.stop ≤ object.offset) ∧
      (∀ later ∈ after, object.stop ≤ later.offset) ∧
      Arranged cursor (before ++ object :: after) := by
  induction objects generalizing cursor with
  | nil => exact ⟨[], [], rfl, nofun, nofun, low, positive, high⟩
  | cons first rest ih =>
      obtain ⟨lower, wide, later⟩ := arranged
      rcases clear first (by simp) with below | above
      · obtain ⟨before, after, split, early, late, placed⟩ :=
          ih later below fun other member => clear other (by simp [member])
        refine ⟨first :: before, after, by rw [split]; rfl, ?_, late, lower, wide, placed⟩
        intro earlier member
        rcases List.mem_cons.mp member with rfl | inBefore
        · exact below
        · exact early earlier inBefore
      · refine ⟨[], first :: rest, rfl, nofun, ?_, low, positive, above, wide, later⟩
        intro other member
        rcases List.mem_cons.mp member with rfl | inRest
        · exact above
        · have bound := (later.bounds inRest).1
          unfold HeapObject.stop at bound
          omega

theorem Sound.place (sound : page.Sound) (swept : page.swept = true) (leaves : page.Leaves block) :
    ∃ objects, page.place block.offset block.size = .ok { page with objects } ∧
      { page with objects }.Sound ∧
      objects.Perm (⟨block.offset, block.size, false⟩ :: page.objects) := by
  obtain ⟨_, low, high, positive, clear⟩ := leaves
  obtain ⟨before, after, split, below, above, arranged⟩ :=
    @Arranged.insert headerBytes page.objects ⟨block.offset, block.size, false⟩ sound.arranged low
      high positive clear
  refine ⟨_, place_eq sound split below above low high, ⟨arranged, sound.above, ?_, sound.inside,
    sound.full⟩, ?_⟩
  · intro object member
    have stop := (arranged.bounds member).2.2
    have top := sound.full swept
    dsimp only
    omega
  · rw [split]
    exact List.perm_middle

end Page

end Reclaim
