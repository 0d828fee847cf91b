import Reclaim.Proofs.Shelf.Basic
import Reclaim.Proofs.Traffic.Blocks

/-! Memory that free lists hand out. Blocks are split, moved to other categories and joined to other
lists; still every byte of a freed block that is large enough stays in exactly one block that has been
served or is listed, or in one tail that was too small to keep. -/

namespace Reclaim

namespace FreeBlock

def covers (page : PageId) (byte : Nat) (block : FreeBlock) : Bool :=
  decide (block.page = page ∧ block.offset ≤ byte ∧ byte < block.offset + block.size)

/-- No byte is in both blocks. An empty block shares no byte with any other, wherever it lies. -/
def Disjoint (block other : FreeBlock) : Prop :=
  ∀ page byte, ¬ (block.covers page byte = true ∧ other.covers page byte = true)

instance (block other : FreeBlock) : Decidable (block.Apart other) :=
  inferInstanceAs (Decidable (block.extent.Apart other.extent))

theorem Apart.disjoint {block other : FreeBlock} (apart : block.Apart other) :
    block.Disjoint other := by
  rintro page byte ⟨inside, within⟩
  simp only [covers, decide_eq_true_eq] at inside within
  rcases apart with pages | below | above
  · exact pages (inside.1.trans within.1.symm)
  · have stop : block.offset + block.size ≤ other.offset := below
    omega
  · have stop : other.offset + other.size ≤ block.offset := above
    omega

theorem pairwise_disjoint_iff {blocks : List FreeBlock} :
    blocks.Pairwise Disjoint ↔ ∀ page byte, blocks.countP (covers page byte) ≤ 1 := by
  induction blocks with
  | nil => simp
  | cons block rest ih =>
      rw [List.pairwise_cons, ih]
      constructor
      · rintro ⟨head, once⟩ page byte
        rw [List.countP_cons]
        split
        next inside =>
          have none : rest.countP (covers page byte) = 0 := by
            rw [List.countP_eq_zero]
            intro other member within
            exact head other member page byte ⟨inside, within⟩
          omega
        next => exact once page byte
      · intro once
        constructor
        · rintro other member page byte ⟨inside, within⟩
          have positive : 0 < rest.countP (covers page byte) :=
            List.countP_pos_iff.mpr ⟨other, member, within⟩
          have bound := once page byte
          rw [List.countP_cons_of_pos inside] at bound
          omega
        · intro page byte
          have bound := once page byte
          rw [List.countP_cons] at bound
          omega

theorem countP_covers (page : PageId) (byte : Nat) (block : FreeBlock) (rest : List FreeBlock) :
    (block :: rest).countP (covers page byte) =
      (block.covers page byte).toNat + rest.countP (covers page byte) := by
  rw [List.countP_cons, Nat.add_comm]
  cases block.covers page byte <;> rfl

theorem sum_covers (page : PageId) (byte : Nat) (blocks : List FreeBlock) :
    (blocks.map fun block => (block.covers page byte).toNat).sum =
      blocks.countP (covers page byte) := by
  induction blocks with
  | nil => rfl
  | cons block rest ih => rw [List.map_cons, List.sum_cons, ih, countP_covers]

theorem covers_cut (page : PageId) (byte : Nat) {block : FreeBlock} {size : Nat}
    (enough : size ≤ block.size) :
    (covers page byte { block with size }).toNat + (block.tail size).countP (covers page byte) =
      (block.covers page byte).toNat := by
  unfold tail
  by_cases whole : block.size = size
  · subst whole
    simp
  · rw [if_neg whole, List.countP_singleton]
    unfold covers
    by_cases same : block.page = page
    · by_cases low : block.offset ≤ byte
      · by_cases first : byte < block.offset + size
        · have behind : ¬ block.offset + size ≤ byte := by omega
          have inside : byte < block.offset + block.size := by omega
          simp [same, low, first, behind, inside]
        · have behind : block.offset + size ≤ byte := by omega
          have stop : block.offset + size + (block.size - size) = block.offset + block.size := by omega
          simp only [same, low, first, behind, stop, true_and, and_false, decide_false,
            Bool.toNat_false, Nat.zero_add]
          by_cases inside : byte < block.offset + block.size <;> simp [inside]
      · have behind : ¬ block.offset + size ≤ byte := by omega
        simp [low, behind]
    · simp [same]

theorem Within.refl (block : FreeBlock) : block.Within block := ⟨rfl, Nat.le_refl _, Nat.le_refl _⟩

theorem Within.trans {part middle block : FreeBlock} (inner : part.Within middle)
    (outer : middle.Within block) : part.Within block :=
  ⟨inner.1.trans outer.1, Nat.le_trans outer.2.1 inner.2.1, Nat.le_trans inner.2.2 outer.2.2⟩

end FreeBlock

theorem FreeList.Cuts.within {list left : FreeList} {block part : FreeBlock} {size : Nat}
    (cuts : list.Cuts block size left)
    (member : part ∈ left.blocks ++ list.scrap left { block with size }) :
    ∃ old ∈ list.blocks, part.Within old := by
  obtain ⟨others, before, after⟩ := cuts.blocks
  rcases List.mem_append.mp (after.mem_iff.mp member) with inTail | same
  · exact ⟨block, before.mem_iff.mpr List.mem_cons_self,
      (FreeBlock.tail_within cuts.enough inTail).1⟩
  · exact ⟨part, before.mem_iff.mpr (List.mem_cons_of_mem _ same), .refl part⟩

namespace Shelf

def listed (shelf : Shelf) : List FreeBlock := shelf.lists.flatMap FreeList.blocks

def parts (shelf : Shelf) : List FreeBlock := shelf.served ++ (shelf.listed ++ shelf.scraps)

structure Parcels (freed : List FreeBlock) (shelf : Shelf) : Prop where
  disjoint : shelf.parts.Pairwise FreeBlock.Disjoint
  within : ∀ part ∈ shelf.parts, ∃ block ∈ freed, part.Within block
  short : ∀ scrap ∈ shelf.scraps, scrap.size < minBlockBytes
  once : ∀ block ∈ freed, minBlockBytes ≤ block.size →
    ∀ byte, block.offset ≤ byte → byte < block.offset + block.size →
      shelf.parts.countP (FreeBlock.covers block.page byte) = 1

variable {count : Nat} {uses : List Use} {use : Use} {shelf next : Shelf}

theorem covers_conserved (page : PageId) (byte : Nat) :
    Conserved (fun list => list.blocks.countP (FreeBlock.covers page byte))
      (fun block => (block.covers page byte).toNat) fun block => (block.covers page byte).toNat where
  empty := rfl
  join list source := by rw [(list.join_blocks_perm source).countP_eq, List.countP_append]
  cut {list left block size} cuts := by
    obtain ⟨others, before, after⟩ := cuts.blocks
    have old := before.countP_eq (FreeBlock.covers page byte)
    have new := after.countP_eq (FreeBlock.covers page byte)
    have cut := FreeBlock.covers_cut page byte cuts.enough
    rw [FreeBlock.countP_covers] at old
    rw [List.countP_append, List.countP_append] at new
    rw [FreeBlock.sum_covers, old]
    omega

theorem Reached.covered (reached : Reached count uses shelf) (page : PageId) (byte : Nat) :
    shelf.parts.countP (FreeBlock.covers page byte) +
        (shelf.dropped.map fun list => list.blocks.countP (FreeBlock.covers page byte)).sum =
      ((freedBy uses).filter FreeBlock.tracked).countP (FreeBlock.covers page byte) := by
  have conserved := reached.conserves (covers_conserved page byte)
  have kept (block : FreeBlock) :
      (FreeList.ofBlocks [block]).blocks.countP (FreeBlock.covers page byte) =
        ([block].filter FreeBlock.tracked).countP (FreeBlock.covers page byte) :=
    (FreeList.ofBlocks_blocks_perm [block]).countP_eq _
  have freed : ((freedBy uses).map fun block =>
      (FreeList.ofBlocks [block]).blocks.countP (FreeBlock.covers page byte)).sum =
        ((freedBy uses).filter FreeBlock.tracked).countP (FreeBlock.covers page byte) := by
    induction freedBy uses with
    | nil => rfl
    | cons block rest ih =>
        rw [List.map_cons, List.sum_cons, ih, kept, ← List.countP_append, ← List.filter_append]
        rfl
  rw [← freed, ← conserved, weight, FreeBlock.sum_covers, FreeBlock.sum_covers, parts, listed,
    List.countP_append, List.countP_append, List.countP_flatMap]
  simp only [Function.comp_def]
  omega

theorem Reached.dropped_nil (reached : Reached count uses shelf)
    (kept : ∀ index, .reset index ∉ uses) : shelf.dropped = [] := by
  induction reached with
  | opened => rfl
  | @after uses use shelf next _ effect ih =>
      have before := ih fun index member => kept index (List.mem_append_left _ member)
      cases effect with
      | free => exact before
      | refuse => exact before
      | serve => exact before
      | concatenate => exact before
      | @reset index => exact absurd (by simp) (kept index)

theorem mem_parts {part : FreeBlock} :
    part ∈ shelf.parts ↔ part ∈ shelf.served ∨ (∃ list ∈ shelf.lists, part ∈ list.blocks) ∨
      part ∈ shelf.scraps := by
  simp only [parts, listed, List.mem_append, List.mem_flatMap]

/-- A part lies in one that was there before, or it has just been freed. -/
theorem Effect.part_within (effect : Effect shelf use next) {part : FreeBlock}
    (member : part ∈ next.parts) :
    (∃ old ∈ shelf.parts, part.Within old) ∨ part ∈ use.freed := by
  have stays (old : part ∈ shelf.parts) : ∃ old ∈ shelf.parts, part.Within old :=
    ⟨part, old, .refl part⟩
  have known {list : FreeList} {index : Nat} (here : shelf.lists[index]? = some list)
      {old : FreeBlock} (inside : old ∈ list.blocks) : old ∈ shelf.parts :=
    mem_parts.mpr (.inr (.inl ⟨list, List.mem_of_getElem? here, inside⟩))
  have moved {index : Nat} {list other : FreeList} (inside : other ∈ shelf.lists.set index list)
      (found : part ∈ other.blocks) : part ∈ shelf.parts ∨ part ∈ list.blocks := by
    rcases List.mem_or_eq_of_mem_set inside with same | rfl
    · exact .inl (mem_parts.mpr (.inr (.inl ⟨other, same, found⟩)))
    · exact .inr found
  cases effect with
  | @free index list block here _ =>
      rcases mem_parts.mp member with served | ⟨other, inside, found⟩ | given
      · exact .inl (stays (mem_parts.mpr (.inl served)))
      · rcases moved inside found with old | added
        · exact .inl (stays old)
        · rcases List.mem_append.mp ((list.join_blocks_perm _).mem_iff.mp added) with same | freed
          · exact .inl (stays (known here same))
          · have kept := (FreeList.ofBlocks_blocks_perm [block]).mem_iff.mp freed
            exact .inr (List.mem_of_mem_filter kept)
      · exact .inl (stays (mem_parts.mpr (.inr (.inr given))))
  | refuse => exact .inl (stays member)
  | @serve index request size list left block here cuts =>
      have cut (inside : part ∈ left.blocks ++ list.scrap left { block with size }) :
          ∃ old ∈ shelf.parts, part.Within old := by
        obtain ⟨old, found, within⟩ := cuts.within inside
        exact ⟨old, known here found, within⟩
      rcases mem_parts.mp member with served | ⟨other, inside, found⟩ | given
      · rcases List.mem_append.mp served with before | last
        · exact .inl (stays (mem_parts.mpr (.inl before)))
        · obtain rfl := List.mem_singleton.mp last
          obtain ⟨others, before, _⟩ := cuts.blocks
          exact .inl ⟨block, known here (before.mem_iff.mpr List.mem_cons_self),
            FreeBlock.head_within cuts.enough⟩
      · rcases moved inside found with old | remains
        · exact .inl (stays old)
        · exact .inl (cut (List.mem_append_left _ remains))
      · rcases List.mem_append.mp given with before | last
        · exact .inl (stays (mem_parts.mpr (.inr (.inr before))))
        · exact .inl (cut (List.mem_append_right _ last))
  | @concatenate index source list other here there distinct _ =>
      rcases mem_parts.mp member with served | ⟨another, inside, found⟩ | given
      · exact .inl (stays (mem_parts.mpr (.inl served)))
      · rcases List.mem_or_eq_of_mem_set inside with same | rfl
        · rcases moved same found with old | joined
          · exact .inl (stays old)
          · rcases List.mem_append.mp ((list.join_blocks_perm _).mem_iff.mp joined) with mine | theirs
            · exact .inl (stays (known here mine))
            · exact .inl (stays (known there theirs))
        · cases found
      · exact .inl (stays (mem_parts.mpr (.inr (.inr given))))
  | @reset index list here =>
      rcases mem_parts.mp member with served | ⟨other, inside, found⟩ | given
      · exact .inl (stays (mem_parts.mpr (.inl served)))
      · rcases moved inside found with old | none
        · exact .inl (stays old)
        · cases none
      · exact .inl (stays (mem_parts.mpr (.inr (.inr given))))

theorem Reached.within (reached : Reached count uses shelf) :
    ∀ part ∈ shelf.parts, ∃ block ∈ freedBy uses, part.Within block := by
  induction reached with
  | opened =>
      intro part member
      rcases mem_parts.mp member with served | ⟨list, inside, found⟩ | given
      · cases served
      · rw [List.eq_of_mem_replicate inside] at found
        cases found
      · cases given
  | after _ effect ih =>
      intro part member
      rw [freedBy_snoc]
      rcases effect.part_within member with ⟨old, inside, lies⟩ | freed
      · obtain ⟨block, known, within⟩ := ih old inside
        exact ⟨block, List.mem_append_left _ known, lies.trans within⟩
      · exact ⟨part, List.mem_append_right _ freed, .refl part⟩

theorem Reached.short (reached : Reached count uses shelf) :
    ∀ scrap ∈ shelf.scraps, scrap.size < minBlockBytes := by
  induction reached with
  | opened => nofun
  | after _ effect ih =>
      cases effect with
      | free => exact ih
      | refuse => exact ih
      | serve here cuts => exact List.forall_mem_append.mpr ⟨ih, cuts.short⟩
      | concatenate => exact ih
      | reset => exact ih

/-- What was freed is in parts that share no byte, each inside one block that was freed. As long as
no list is emptied, every byte of a block that is large enough is in exactly one of them. -/
theorem Proper.parcels (proper : Proper count uses) (kept : ∀ index, .reset index ∉ uses)
    (disjoint : (freedBy uses).Pairwise FreeBlock.Disjoint) :
    ∃ shelf, (opened count).performEach uses = .ok shelf ∧ Parcels (freedBy uses) shelf := by
  obtain ⟨shelf, performed, reached⟩ := proper.reaches
  have covered (page : PageId) (byte : Nat) : shelf.parts.countP (FreeBlock.covers page byte) =
      ((freedBy uses).filter FreeBlock.tracked).countP (FreeBlock.covers page byte) := by
    have whole := reached.covered page byte
    rwa [reached.dropped_nil kept, List.map_nil, List.sum_nil, Nat.add_zero] at whole
  have once := FreeBlock.pairwise_disjoint_iff.mp (disjoint.filter FreeBlock.tracked)
  refine ⟨shelf, performed, ?_, reached.within, reached.short, ?_⟩
  · rw [FreeBlock.pairwise_disjoint_iff]
    intro page byte
    rw [covered]
    exact once page byte
  · intro block member large byte low high
    have inside : block ∈ (freedBy uses).filter FreeBlock.tracked :=
      List.mem_filter.mpr ⟨member, decide_eq_true large⟩
    have here : block.covers block.page byte = true := decide_eq_true ⟨rfl, low, high⟩
    have positive : 0 < ((freedBy uses).filter FreeBlock.tracked).countP
        (FreeBlock.covers block.page byte) := List.countP_pos_iff.mpr ⟨block, inside, here⟩
    have bound := once block.page byte
    rw [covered]
    omega

def carvedUses : List Use :=
  -- Blocks of two pages on two lists. One is cut in two before its list is joined to the other;
  -- what is left of it is then cut again, and of the eight bytes behind the last cut nothing
  -- can be kept.
  [.free 0 ⟨⟨0⟩, 64, 256⟩, .free 0 ⟨⟨0⟩, 320, 12⟩, .free 1 ⟨⟨1⟩, 64, 2100⟩, .allocate 0 100,
    .concatenate 1 0, .allocate 1 140, .allocate 1 70]

def carvedShelf : Shelf :=
  { lists := [.empty, ⟨[⟨⟨1⟩, 136, 2028⟩], [], [], [], 2028, 20⟩]
    served := [⟨⟨0⟩, 64, 104⟩, ⟨⟨0⟩, 168, 144⟩, ⟨⟨1⟩, 64, 72⟩]
    scraps := [⟨⟨0⟩, 312, 8⟩]
    dropped := [] }

theorem carvedUses_parcels : (opened 2).performEach carvedUses = .ok carvedShelf ∧
    Parcels (freedBy carvedUses) carvedShelf := by
  have performed : (opened 2).performEach carvedUses = .ok carvedShelf := by cbv
  have apart : (freedBy carvedUses).Pairwise FreeBlock.Apart := by decide
  obtain ⟨shelf, same, parcels⟩ := Proper.parcels (⟨by decide, by decide, by decide⟩ :
    Proper 2 carvedUses) (by simp [carvedUses]) (apart.imp FreeBlock.Apart.disjoint)
  rw [performed] at same
  cases same
  exact ⟨performed, parcels⟩

end Shelf

end Reclaim
