import Reclaim.Proofs.Page.Placing
import Reclaim.Proofs.World.History

/-! Blocks in pages that others act on. Two blocks are apart when no byte is in both. Blocks that are
apart and that some pages leave are no more than there is room for, and an object that takes one of
them leaves the others. -/

namespace Reclaim

namespace FreeBlock

def extent (block : FreeBlock) : Extent := ⟨block.page, block.offset, block.size⟩

def Apart (block other : FreeBlock) : Prop := block.extent.Apart other.extent

theorem Apart.symm {block other : FreeBlock} (apart : block.Apart other) : other.Apart block := by
  rcases apart with pages | below | above
  · exact Or.inl (Ne.symm pages)
  · exact Or.inr (Or.inr below)
  · exact Or.inr (Or.inl above)

theorem apart_perm {blocks more : List FreeBlock} (same : blocks.Perm more) :
    blocks.Pairwise Apart ↔ more.Pairwise Apart := same.pairwise_iff Apart.symm

def Within (part block : FreeBlock) : Prop :=
  part.page = block.page ∧ block.offset ≤ part.offset ∧
    part.offset + part.size ≤ block.offset + block.size

theorem Apart.within {part block other : FreeBlock} (apart : block.Apart other)
    (within : part.Within block) : part.Apart other := by
  obtain ⟨page, low, high⟩ := within
  rcases apart with pages | below | above
  · exact Or.inl fun same => pages (page.symm.trans same)
  · exact Or.inr (Or.inl (Nat.le_trans high below))
  · exact Or.inr (Or.inr (Nat.le_trans above low))

theorem head_within {block : FreeBlock} {size : Nat} (fits : size ≤ block.size) :
    ({ block with size } : FreeBlock).Within block :=
  ⟨rfl, Nat.le_refl _, Nat.add_le_add_left fits _⟩

theorem tail_within {block part : FreeBlock} {size : Nat} (fits : size ≤ block.size)
    (member : part ∈ block.tail size) : part.Within block ∧ 0 < part.size := by
  unfold tail at member
  split at member
  next => cases member
  next shorter =>
    obtain rfl := List.mem_singleton.mp member
    refine ⟨⟨rfl, Nat.le_add_right _ _, ?_⟩, ?_⟩ <;> dsimp only <;> omega

theorem apart_cut {block : FreeBlock} {size : Nat} {others : List FreeBlock}
    (apart : (block :: others).Pairwise Apart) (fits : size ≤ block.size) :
    ({ block with size } :: (block.tail size ++ others)).Pairwise Apart := by
  obtain ⟨head, rest⟩ := List.pairwise_cons.mp apart
  refine List.pairwise_cons.mpr ⟨?_, List.pairwise_append.mpr ⟨?_, rest, ?_⟩⟩
  · intro other member
    rcases List.mem_append.mp member with inTail | inRest
    · unfold tail at inTail
      split at inTail
      next => cases inTail
      next =>
        obtain rfl := List.mem_singleton.mp inTail
        exact Or.inr (Or.inl (Nat.le_refl _))
    · exact (head other inRest).within (head_within fits)
  · unfold tail
    split <;> simp
  · intro part inTail other member
    exact (head other member).within (tail_within fits inTail).1

theorem bytes_filter (blocks : List FreeBlock) (keep : FreeBlock → Bool) :
    bytes (blocks.filter keep) + bytes (blocks.filter fun block => !keep block) = bytes blocks := by
  rw [← bytes_append]
  exact bytes_perm (List.filter_append_perm keep blocks)

theorem bytes_le {blocks : List FreeBlock} {low high : Nat}
    (apart : blocks.Pairwise fun block other => block.offset + block.size ≤ other.offset ∨
      other.offset + other.size ≤ block.offset)
    (inside : ∀ block ∈ blocks, low ≤ block.offset ∧ block.offset + block.size ≤ high) :
    bytes blocks ≤ high - low := by
  induction many : blocks.length using Nat.strongRecOn generalizing blocks low high with
  | _ count ih =>
    cases blocks with
    | nil => exact Nat.zero_le _
    | cons block rest =>
        obtain ⟨head, others⟩ := List.pairwise_cons.mp apart
        obtain ⟨lower, upper⟩ := inside block (by simp)
        let later (other : FreeBlock) : Bool := decide (block.offset + block.size ≤ other.offset)
        have shorter (keep : FreeBlock → Bool) : (rest.filter keep).length < count := by
          have bound := List.length_filter_le keep rest
          rw [List.length_cons] at many
          omega
        -- The other ranges lie before the first one or after it.
        have after : bytes (rest.filter later) ≤ high - (block.offset + block.size) := by
          refine ih _ (shorter later) (others.filter _) ?_ rfl
          intro other member
          obtain ⟨inRest, beyond⟩ := List.mem_filter.mp member
          exact ⟨by simpa [later] using beyond, (inside other (by simp [inRest])).2⟩
        have before : bytes (rest.filter fun other => !later other) ≤ block.offset - low := by
          refine ih _ (shorter _) (others.filter _) ?_ rfl
          intro other member
          obtain ⟨inRest, earlier⟩ := List.mem_filter.mp member
          refine ⟨(inside other (by simp [inRest])).1, ?_⟩
          exact (head other inRest).resolve_left (by simpa [later] using earlier)
        have parted := bytes_filter rest later
        have first : bytes (block :: rest) = block.size + bytes rest := by simp [bytes]
        omega

end FreeBlock

namespace Page

variable {page : Page} {block : FreeBlock}

theorem Leaves.within {part : FreeBlock} (leaves : page.Leaves block) (within : part.Within block)
    (positive : 0 < part.size) : page.Leaves part := by
  obtain ⟨owner, low, high, _, clear⟩ := leaves
  obtain ⟨same, start, stop⟩ := within
  refine ⟨same.trans owner, by omega, by omega, positive, ?_⟩
  intro object member
  have apart := clear object member
  omega

theorem Sound.ranges_apart (sound : page.Sound) : page.ranges.Pairwise FreeBlock.Apart := by
  rw [ranges, List.pairwise_map]
  refine (gapsFrom_pairwise sound.arranged).imp ?_
  intro gap later below
  exact Or.inr (Or.inl (Nat.le_of_lt below))

theorem Leaves.placed {other : FreeBlock} {objects : List HeapObject} (leaves : page.Leaves other)
    (owner : block.page = page.id) (apart : block.Apart other)
    (gained : objects.Perm (⟨block.offset, block.size, false⟩ :: page.objects)) :
    ({ page with objects } : Page).Leaves other := by
  obtain ⟨same, low, high, positive, clear⟩ := leaves
  refine ⟨same, low, high, positive, ?_⟩
  intro object member
  rcases List.mem_cons.mp (gained.mem_iff.mp member) with rfl | before
  · rcases apart with pages | below | above
    · exact absurd (owner.trans same.symm) pages
    · exact Or.inl below
    · exact Or.inr above
  · exact clear object before

def extents (page : Page) : List Extent :=
  page.objects.map fun object => ⟨page.id, object.offset, object.size⟩

theorem Sound.extents_apart (sound : page.Sound) : page.extents.Pairwise Extent.Apart := by
  rw [extents, List.pairwise_map]
  refine sound.arranged.apart.imp ?_
  intro object later below
  exact Or.inr (Or.inl below)

end Page

section Pages

variable {pages : List Page} {blocks : List FreeBlock}

theorem extents_apart (distinct : (pages.map (·.id)).Nodup) (sound : ∀ page ∈ pages, page.Sound) :
    (pages.flatMap Page.extents).Pairwise Extent.Apart := by
  rw [List.pairwise_flatMap]
  refine ⟨fun page member => (sound page member).extents_apart, ?_⟩
  refine (List.pairwise_map.mp distinct).imp ?_
  intro page other names extent inside another found
  obtain ⟨_, _, rfl⟩ := List.mem_map.mp inside
  obtain ⟨_, _, rfl⟩ := List.mem_map.mp found
  exact Or.inl names

theorem leaves_apart (distinct : (pages.map (·.id)).Nodup)
    (left : ∀ block ∈ blocks, ∃ page ∈ pages, page.Leaves block) {extent : Extent} {block : FreeBlock}
    (recorded : extent ∈ pages.flatMap Page.extents) (member : block ∈ blocks) :
    extent.Apart block.extent := by
  obtain ⟨page, inside, found⟩ := List.mem_flatMap.mp recorded
  obtain ⟨object, held, rfl⟩ := List.mem_map.mp found
  obtain ⟨owner, known, leaves⟩ := left block member
  by_cases same : page.id = block.page
  · have one := List.inj_on_of_nodup_map distinct inside known (same.trans leaves.owner)
    subst one
    exact Or.inr (leaves.clear object held)
  · exact Or.inl same

/-- Blocks that are apart take no more bytes than the object areas have. -/
theorem blocks_fit (distinct : (pages.map (·.id)).Nodup) (apart : blocks.Pairwise FreeBlock.Apart)
    (left : ∀ block ∈ blocks, ∃ page ∈ pages, page.Leaves block) :
    FreeBlock.bytes blocks ≤ objectAreaBytes * pages.length := by
  induction pages generalizing blocks with
  | nil =>
      have none : blocks = [] := List.eq_nil_iff_forall_not_mem.mpr fun block member => by
        obtain ⟨_, inside, _⟩ := left block member
        cases inside
      rw [none]
      exact Nat.zero_le _
  | cons page rest ih =>
      obtain ⟨names, others⟩ := List.nodup_cons.mp distinct
      let here (block : FreeBlock) : Bool := decide (block.page = page.id)
      have parted := FreeBlock.bytes_filter blocks here
      have area : FreeBlock.bytes (blocks.filter here) ≤ objectAreaBytes := by
        apply FreeBlock.bytes_le
        · refine (apart.filter here).imp_of_mem ?_
          intro block other member found separate
          have owner : block.page = page.id := by simpa [here] using (List.mem_filter.mp member).2
          have same : other.page = page.id := by simpa [here] using (List.mem_filter.mp found).2
          exact separate.resolve_left fun distinct => distinct (owner.trans same.symm)
        · intro block member
          obtain ⟨_, _, leaves⟩ := left block (List.mem_filter.mp member).1
          exact ⟨leaves.low, leaves.high⟩
      have beyond : FreeBlock.bytes (blocks.filter fun block => !here block) ≤
          objectAreaBytes * rest.length := by
        refine ih others (apart.filter _) ?_
        intro block member
        obtain ⟨inBlocks, elsewhere⟩ := List.mem_filter.mp member
        obtain ⟨owner, inside, leaves⟩ := left block inBlocks
        rcases List.mem_cons.mp inside with rfl | inRest
        · simp [here, leaves.owner] at elsewhere
        · exact ⟨owner, inRest, leaves⟩
      rw [List.length_cons, Nat.mul_succ]
      omega

end Pages

end Reclaim
