import Mathlib.Data.List.Flatten
import Reclaim.Proofs.Traffic.Basic

/-! Tidy traffic. Every block, on the free list, reserved, or on the list of a sweeper, is left by the
page that it lies in, and no two blocks share a byte. The page of a block that a mutator may get has
been published. A section keeps this so, except the one that takes the swept pages away from under a
reserved block. -/

namespace Reclaim

structure Roster (waiting cleared recycled : List Page) : Prop where
  distinct : ((waiting ++ (cleared ++ recycled)).map (·.id)).Nodup
  few : (waiting ++ (cleared ++ recycled)).length ≤ Word.halfLimit
  sound : ∀ page ∈ waiting ++ (cleared ++ recycled), page.Sound
  waits : ∀ page ∈ waiting, page.swept = false
  swept : ∀ page ∈ cleared, page.swept = true

namespace Roster

variable {waiting cleared recycled more others : List Page} {page next : Page}
  {blocks : List FreeBlock}

theorem perm (roster : Roster waiting cleared recycled) (first : more.Perm waiting)
    (second : others.Perm cleared) : Roster more others recycled := by
  have all : (more ++ (others ++ recycled)).Perm (waiting ++ (cleared ++ recycled)) :=
    first.append (second.append_right _)
  refine ⟨(all.map _).nodup_iff.mpr roster.distinct, ?_, ?_, ?_, ?_⟩
  · rw [all.length_eq]
    exact roster.few
  · exact fun page member => roster.sound page (all.mem_iff.mp member)
  · exact fun page member => roster.waits page (first.mem_iff.mp member)
  · exact fun page member => roster.swept page (second.mem_iff.mp member)

theorem less (roster : Roster waiting cleared recycled) (first : more.Sublist waiting)
    (second : others.Sublist cleared) : Roster more others recycled := by
  have all : (more ++ (others ++ recycled)).Sublist (waiting ++ (cleared ++ recycled)) :=
    first.append (second.append_right _)
  exact ⟨roster.distinct.sublist (all.map _), Nat.le_trans all.length_le roster.few,
    fun page member => roster.sound page (all.subset member),
    fun page member => roster.waits page (first.subset member),
    fun page member => roster.swept page (second.subset member)⟩

theorem turned (roster : Roster waiting cleared recycled)
    (turned : Turned page next (waiting ++ (cleared ++ recycled)) (more ++ (others ++ recycled)))
    (same : next.id = page.id) (sound : next.Sound) (waits : ∀ page ∈ more, page.swept = false)
    (swept : ∀ page ∈ others, page.swept = true) : Roster more others recycled := by
  refine ⟨(turned.map (·.id) same).nodup_iff.mpr roster.distinct, ?_, ?_, waits, swept⟩
  · have length := (turned.map (·.id) same).length_eq
    rw [List.length_map, List.length_map] at length
    rw [length]
    exact roster.few
  · obtain ⟨rest, old, new⟩ := turned
    intro other member
    rcases List.mem_cons.mp (new.mem_iff.mp member) with rfl | inRest
    · exact sound
    · exact roster.sound other (old.mem_iff.mpr (List.mem_cons_of_mem _ inRest))

theorem inWaiting {early late : List Page} (roster : Roster (early ++ page :: late) cleared recycled)
    (same : next.id = page.id) (sound : next.Sound) (unswept : next.swept = false) :
    Roster (early ++ next :: late) cleared recycled := by
  obtain ⟨before, _, after⟩ := forall_mem_middle.mp roster.waits
  exact roster.turned ((Turned.middle early late page next).frame _) same sound
    (forall_mem_middle.mpr ⟨before, unswept, after⟩) roster.swept

theorem inCleared {early late : List Page} (roster : Roster waiting (early ++ page :: late) recycled)
    (same : next.id = page.id) (sound : next.Sound) (done : next.swept = true) :
    Roster waiting (early ++ next :: late) recycled := by
  obtain ⟨before, _, after⟩ := forall_mem_middle.mp roster.swept
  have turned := (Turned.middle early late page next).frame recycled
  exact roster.turned ((turned.frame waiting).perm List.perm_append_comm List.perm_append_comm) same
    sound roster.waits (forall_mem_middle.mpr ⟨before, done, after⟩)

theorem sweep (roster : Roster (page :: waiting) cleared recycled) :
    Roster waiting (page.renewed :: cleared) recycled := by
  have sound := roster.sound page (by simp)
  refine roster.turned ⟨waiting ++ (cleared ++ recycled), List.Perm.refl _, List.perm_middle⟩ rfl
    sound.renewed (List.forall_mem_cons.mp roster.waits).2 ?_
  exact List.forall_mem_cons.mpr ⟨page.renewed_swept, roster.swept⟩

theorem take (roster : Roster waiting cleared []) : Roster waiting [] cleared := by
  obtain ⟨distinct, few, sound, waits, _⟩ := roster
  rw [List.append_nil] at distinct few sound
  exact ⟨distinct, few, sound, waits, nofun⟩

theorem recycle (roster : Roster waiting cleared recycled) :
    Roster (waiting ++ recycled.map Page.markUnswept) cleared [] := by
  obtain ⟨distinct, few, sound, waits, swept⟩ := roster
  have names : (recycled.map Page.markUnswept).map (·.id) = recycled.map (·.id) := by
    rw [List.map_map]
    rfl
  have moved {β : Type} (waiting cleared recycled : List β) :
      ((waiting ++ recycled) ++ (cleared ++ [])).Perm (waiting ++ (cleared ++ recycled)) := by
    rw [List.append_nil, List.append_assoc]
    exact List.perm_append_comm.append_left _
  refine ⟨?_, ?_, ?_, ?_, swept⟩
  · simp only [List.map_append, names, List.map_nil] at distinct ⊢
    exact (moved _ _ _).nodup_iff.mpr distinct
  · rw [(moved _ _ _).length_eq]
    simpa using few
  · intro page member
    rcases List.mem_append.mp ((moved _ _ _).mem_iff.mp member) with inWaiting | rest
    · exact sound page (List.mem_append_left _ inWaiting)
    rcases List.mem_append.mp rest with inCleared | inRecycled
    · exact sound page (by simp [inCleared])
    · obtain ⟨old, inside, rfl⟩ := List.mem_map.mp inRecycled
      exact (sound old (by simp [inside])).markUnswept
  · intro page member
    rcases List.mem_append.mp member with inWaiting | inRecycled
    · exact waits page inWaiting
    · obtain ⟨old, _, rfl⟩ := List.mem_map.mp inRecycled
      rfl

theorem cleared_distinct (roster : Roster waiting cleared recycled) :
    (cleared.map (·.id)).Nodup := by
  refine roster.distinct.sublist (List.Sublist.map _ ?_)
  exact (List.sublist_append_left _ _).trans (List.sublist_append_right _ _)

theorem room (roster : Roster waiting cleared recycled) (apart : blocks.Pairwise FreeBlock.Apart)
    (left : ∀ block ∈ blocks, ∃ page ∈ cleared, page.Leaves block) :
    FreeBlock.bytes blocks < Word.limit := by
  have fit := blocks_fit roster.cleared_distinct apart left
  have few := roster.few
  rw [List.length_append, List.length_append] at few
  have area := @objectArea_room cleared.length (by omega)
  omega

end Roster

structure Cart where
  haul : Haul
  blocks : List FreeBlock

structure Cart.Sound (swept : List Page) (cart : Cart) : Prop where
  holds : cart.haul.list.Holds cart.blocks
  left : ∀ block ∈ cart.blocks, ∃ page ∈ cart.haul.pages ++ swept, page.Leaves block

theorem carts_middle {carts : List Cart} {before after : List Haul} {haul : Haul}
    (split : before ++ haul :: after = carts.map (·.haul)) :
    ∃ front blocks back, carts = front ++ ⟨haul, blocks⟩ :: back ∧
      before = front.map (·.haul) ∧ after = back.map (·.haul) := by
  obtain ⟨front, rest, rfl, rfl, tail⟩ := List.map_eq_append_iff.mp split.symm
  obtain ⟨cart, back, rfl, rfl, rfl⟩ := List.map_eq_cons_iff.mp tail
  exact ⟨front, cart.blocks, back, rfl, rfl, rfl⟩

structure Tidy (free : List FreeBlock) (carts : List Cart) (traffic : Traffic) : Prop where
  roster : Roster traffic.waiting traffic.cleared traffic.collector.pages
  hauls : traffic.hauls = carts.map (·.haul)
  holds : traffic.space.free.Holds free
  loaded : ∀ cart ∈ carts, cart.Sound traffic.space.swept
  left : ∀ block ∈ free ++ traffic.reserved, ∃ page ∈ traffic.space.swept, page.Leaves block
  apart : (free ++ (traffic.reserved ++ carts.flatMap (·.blocks))).Pairwise FreeBlock.Apart
  cycle : traffic.collector ≠ .idle → traffic.hauls = [] ∧ free = []

namespace Tidy

variable {free : List FreeBlock} {carts : List Cart} {traffic : Traffic} {space : PagedSpace}
  {hauls : List Haul} {reserved first last : List FreeBlock} {collector : Collector}
  {block : FreeBlock} {before after : List Haul} {page : Page} {left pages : List Page}
  {list : FreeList}

theorem cart_pages (tidy : Tidy free carts traffic) {cart : Cart} (member : cart ∈ carts) :
    ∀ page ∈ cart.haul.pages ++ traffic.space.swept, page ∈ traffic.cleared := by
  intro page inside
  have known : cart.haul ∈ traffic.hauls := by
    rw [tidy.hauls]
    exact List.mem_map_of_mem member
  rcases List.mem_append.mp inside with own | swept
  · exact List.mem_append_left _ (List.mem_flatMap.mpr ⟨cart.haul, known, own⟩)
  · exact List.mem_append_right _ swept

theorem all_left (tidy : Tidy free carts traffic) :
    ∀ block ∈ free ++ (traffic.reserved ++ carts.flatMap (·.blocks)),
      ∃ page ∈ traffic.cleared, page.Leaves block := by
  intro block member
  rw [← List.append_assoc] at member
  rcases List.mem_append.mp member with shared | own
  · obtain ⟨page, inside, leaves⟩ := tidy.left block shared
    exact ⟨page, List.mem_append_right _ inside, leaves⟩
  · obtain ⟨cart, known, inside⟩ := List.mem_flatMap.mp own
    obtain ⟨page, found, leaves⟩ := (tidy.loaded cart known).left block inside
    exact ⟨page, tidy.cart_pages known page found, leaves⟩

theorem room (tidy : Tidy free carts traffic) :
    FreeBlock.bytes (free ++ (traffic.reserved ++ carts.flatMap (·.blocks))) < Word.limit :=
  tidy.roster.room tidy.apart tidy.all_left

theorem reserve (tidy : Tidy free carts ⟨space, hauls, reserved, collector⟩) (request : Nat) :
    (∃ found, (space.reserve request).1 = .ok found) ∧
      ∃ later, Tidy later carts ⟨(space.reserve request).2, hauls,
        reserved ++ granted (space.reserve request).1, collector⟩ := by
  have room := tidy.room
  rw [FreeBlock.bytes_append] at room
  have inWord : ∀ block ∈ free, block.offset + block.size < Word.limit := by
    intro block member
    obtain ⟨_, _, leaves⟩ := tidy.left block (List.mem_append_left _ member)
    have high := leaves.high
    have page : pageBytes < Word.limit := by decide
    omega
  rcases tidy.holds.allocate_eq (by omega) inWord request with
    same | ⟨block, rest, size, list, parted, _, positive, rounded, fits, holds, found⟩
  · have none : space.reserve request = (.ok none, space) := by
      simp only [PagedSpace.reserve, same]
    rw [none]
    refine ⟨⟨_, rfl⟩, free, ?_⟩
    simp only [granted, List.append_nil]
    exact tidy
  · have taken : space.reserve request =
        (.ok (some { block with size }), { space with free := list }) := by
      simp only [PagedSpace.reserve, found]
    have wide := (Word.roundUp?_eq_some rounded).1
    have member : block ∈ free := parted.mem_iff.mpr List.mem_cons_self
    obtain ⟨owner, inside, leaves⟩ := tidy.left block (List.mem_append_left _ member)
    rw [taken]
    refine ⟨⟨_, rfl⟩, block.tail size ++ rest, tidy.roster, tidy.hauls, holds, tidy.loaded, ?_, ?_,
      ?_⟩
    · intro part known
      simp only [granted, List.mem_append, List.mem_singleton] at known
      rcases known with (inTail | inRest) | inReserved | rfl
      · obtain ⟨within, some⟩ := FreeBlock.tail_within fits inTail
        exact ⟨owner, inside, leaves.within within some⟩
      · have old := parted.mem_iff.mpr (List.mem_cons_of_mem _ inRest)
        exact tidy.left part (List.mem_append_left _ old)
      · exact tidy.left part (List.mem_append_right _ inReserved)
      · exact ⟨owner, inside, leaves.within (FreeBlock.head_within fits) (by dsimp only; omega)⟩
    · have apart : (block :: (rest ++ (reserved ++ carts.flatMap (·.blocks)))).Pairwise
          FreeBlock.Apart := (FreeBlock.apart_perm (parted.append_right _)).mp tidy.apart
      refine (FreeBlock.apart_perm ?_).mp (FreeBlock.apart_cut apart fits)
      refine List.perm_iff_count.mpr fun part => ?_
      simp only [granted, List.count_append, List.count_cons, List.count_nil]
      omega
    · intro busy
      have none := (tidy.cycle busy).2
      rw [none] at member
      cases member

theorem still_left {early late others : List Page} {objects : List HeapObject} {part : FreeBlock}
    (leaves : ∃ owner ∈ others ++ (early ++ page :: late), owner.Leaves part)
    (owner : block.page = page.id) (apart : block.Apart part)
    (gained : objects.Perm (⟨block.offset, block.size, false⟩ :: page.objects)) :
    ∃ owner ∈ others ++ (early ++ { page with objects } :: late), owner.Leaves part := by
  obtain ⟨holder, inside, held⟩ := leaves
  simp only [List.mem_append, List.mem_cons] at inside ⊢
  rcases inside with elsewhere | inEarly | rfl | inLate
  · exact ⟨holder, Or.inl elsewhere, held⟩
  · exact ⟨holder, Or.inr (Or.inl inEarly), held⟩
  · exact ⟨{ holder with objects }, Or.inr (Or.inr (Or.inl rfl)), held.placed owner apart gained⟩
  · exact ⟨holder, Or.inr (Or.inr (Or.inr inLate)), held⟩

theorem occupy (tidy : Tidy free carts ⟨space, hauls, first ++ block :: last, collector⟩) :
    (space.occupy block).1 = .ok ⟨(space.occupy block).2.kind, block.page, block.offset⟩ ∧
      Tidy free carts ⟨(space.occupy block).2, hauls, first ++ last, collector⟩ ∧
      ∃ page ∈ (space.occupy block).2.swept, page.id = block.page ∧
        ⟨block.offset, block.size, false⟩ ∈ page.objects := by
  obtain ⟨page, inside, leaves⟩ := tidy.left block (by simp)
  obtain ⟨early, late, split⟩ := List.append_of_mem inside
  dsimp only at split
  have known : page ∈ Traffic.cleared ⟨space, hauls, first ++ block :: last, collector⟩ :=
    List.mem_append_right _ inside
  have sound := tidy.roster.sound page (by simp [known])
  obtain ⟨objects, placed, placedSound, gained⟩ :=
    sound.place (tidy.roster.swept page known) leaves
  have distinct : (space.swept.map (·.id)).Nodup :=
    tidy.roster.cleared_distinct.sublist ((List.sublist_append_right _ _).map _)
  rw [PagedSpace.occupy_eq space block split leaves.owner distinct placed]
  -- The block is apart from all others, so what was free in its page is still free beside the object.
  have parted : (block :: (free ++ ((first ++ last) ++ carts.flatMap (·.blocks)))).Perm
      (free ++ ((first ++ block :: last) ++ carts.flatMap (·.blocks))) := by
    refine List.perm_iff_count.mpr fun part => ?_
    simp only [List.count_append, List.count_cons]
    omega
  obtain ⟨separate, rest⟩ :=
    List.pairwise_cons.mp ((FreeBlock.apart_perm parted).mpr tidy.apart)
  refine ⟨rfl, ⟨?_, tidy.hauls, tidy.holds, ?_, ?_, rest, tidy.cycle⟩, ?_⟩
  · have roster := tidy.roster
    simp only [Traffic.cleared, split, ← List.append_assoc] at roster ⊢
    exact roster.inCleared rfl placedSound (tidy.roster.swept page known)
  · intro cart member
    obtain ⟨holds, left⟩ := tidy.loaded cart member
    refine ⟨holds, fun part found => ?_⟩
    have old := left part found
    dsimp only at old
    rw [split] at old
    refine still_left old leaves.owner (separate part ?_) gained
    simp only [List.mem_append]
    exact Or.inr (Or.inr (List.mem_flatMap.mpr ⟨cart, member, found⟩))
  · intro part found
    have old := tidy.left part (by
      simp only [List.mem_append, List.mem_cons] at found ⊢
      rcases found with inFree | inFirst | inLast <;> simp [*])
    dsimp only at old
    rw [split] at old
    refine @still_left block page early late [] objects part old leaves.owner (separate part ?_)
      gained
    simp only [List.mem_append] at found ⊢
    exact found.imp_right Or.inl
  · exact ⟨{ page with objects }, by simp, leaves.owner.symm, gained.mem_iff.mpr (by simp)⟩

theorem edit {early late : List Page} {edited : Page} {deed : Deed}
    (tidy : Tidy free carts ⟨space, hauls, reserved, collector⟩) (edit : Edit page deed edited)
    (waiting : space.unswept = early ++ page :: late) :
    Tidy free carts
      ⟨{ space with unswept := early ++ edited :: late }, hauls, reserved, collector⟩ := by
  have inside : page ∈ Traffic.waiting ⟨space, hauls, reserved, collector⟩ := by
    simp [Traffic.waiting, waiting]
  have sound := tidy.roster.sound page (List.mem_append_left _ inside)
  have unswept := tidy.roster.waits page inside
  obtain ⟨kept, same, _, flag, _⟩ := edit.turn sound
  refine ⟨?_, tidy.hauls, tidy.holds, tidy.loaded, tidy.left, tidy.apart, tidy.cycle⟩
  have roster := tidy.roster
  simp only [Traffic.waiting, waiting, List.append_assoc, List.cons_append] at roster ⊢
  exact roster.inWaiting same kept (flag.trans unswept)

theorem deal {parts : List (List Page)} (tidy : Tidy free carts ⟨space, hauls, reserved, .idle⟩)
    (parted : parts.flatten.Perm space.takeUnswept.1) :
    Tidy free (carts ++ parts.map fun part => ⟨.start part, []⟩)
      ⟨space.takeUnswept.2, hauls ++ parts.map .start, reserved, .idle⟩ := by
  have lefts : (parts.map Haul.start).flatMap (·.left) = parts.flatten := by
    rw [List.flatMap_map]
    exact List.flatMap_id
  have nothing : (parts.map Haul.start).flatMap (·.pages) = [] := by
    rw [List.flatMap_map]
    simp [Haul.start]
  have none : (parts.map fun part => Cart.mk (.start part) []).flatMap (·.blocks) = [] := by
    rw [List.flatMap_map]
    simp
  refine ⟨tidy.roster.perm ?_ ?_, ?_, tidy.holds, ?_, tidy.left, ?_, by simp⟩
  · simp only [Traffic.waiting, List.flatMap_append, lefts, PagedSpace.takeUnswept,
      List.nil_append] at parted ⊢
    exact List.perm_append_comm.trans (parted.append_right _)
  · simp only [Traffic.cleared, List.flatMap_append, nothing, List.append_nil]
    exact List.Perm.refl _
  · have same := tidy.hauls
    dsimp only at same ⊢
    rw [same, List.map_append, List.map_map]
    rfl
  · refine List.forall_mem_append.mpr ⟨tidy.loaded, ?_⟩
    intro cart member
    obtain ⟨part, _, rfl⟩ := List.mem_map.mp member
    exact ⟨FreeList.empty_holds, by simp⟩
  · rw [List.flatMap_append, none, List.append_nil]
    exact tidy.apart

theorem renewed_apart {waiting cleared recycled : List Page} {blocks : List FreeBlock}
    (roster : Roster (page :: waiting) cleared recycled) (apart : blocks.Pairwise FreeBlock.Apart)
    (left : ∀ block ∈ blocks, ∃ owner ∈ cleared, owner.Leaves block) :
    (blocks ++ page.renewed.ranges).Pairwise FreeBlock.Apart := by
  have sound := (roster.sound page (by simp)).renewed
  refine List.pairwise_append.mpr ⟨apart, sound.ranges_apart, ?_⟩
  intro block member range found
  obtain ⟨owner, inside, leaves⟩ := left block member
  obtain ⟨names, _⟩ := List.nodup_cons.mp roster.distinct
  refine Or.inl fun same => names ?_
  have name : owner.id = page.id :=
    leaves.owner.symm.trans (same.trans (sound.range_stop found).1)
  exact List.mem_map.mpr ⟨owner, by simp [inside], name⟩

theorem sweep (tidy : Tidy free carts
      ⟨space, before ++ ⟨page :: left, pages, list⟩ :: after, reserved, collector⟩)
    (young : page.sweeps + 1 < Word.halfLimit) :
    page.sweep list =
        .ok (page.yielded, page.renewed, list.join (.ofBlocks page.renewed.ranges)) ∧
      ∃ later, Tidy free later
        ⟨space, before ++ ⟨left, pages ++ [page.renewed],
          list.join (.ofBlocks page.renewed.ranges)⟩ :: after, reserved, collector⟩ := by
  obtain ⟨front, blocks, back, rfl, rfl, rfl⟩ := carts_middle tidy.hauls
  obtain ⟨early, own, late⟩ := forall_mem_middle.mp tidy.loaded
  -- The page comes first among those that wait, so that a sweep takes it over.
  have roster : Roster (page :: (space.unswept ++ ((front.map (·.haul)).flatMap (·.left) ++
      (left ++ (back.map (·.haul)).flatMap (·.left)))))
      (Traffic.cleared ⟨space, front.map (·.haul) ++ ⟨page :: left, pages, list⟩ ::
        back.map (·.haul), reserved, collector⟩) collector.pages := by
    refine tidy.roster.perm ?_ (List.Perm.refl _)
    simp only [Traffic.waiting, List.flatMap_append, List.flatMap_cons]
    refine List.perm_iff_count.mpr fun other => ?_
    simp only [List.count_append, List.count_cons]
    omega
  have sound := roster.sound page (by simp)
  have apart := renewed_apart roster tidy.apart tidy.all_left
  have leaves : ∀ range ∈ page.renewed.ranges, page.renewed.Leaves range :=
    fun range found => sound.renewed.ranges_leave found
  have room := roster.sweep.room apart (by
    intro block member
    rcases List.mem_append.mp member with old | new
    · obtain ⟨owner, inside, leaves⟩ := tidy.all_left block old
      exact ⟨owner, List.mem_cons_of_mem _ inside, leaves⟩
    · exact ⟨page.renewed, List.mem_cons_self, leaves block new⟩)
  have holds := own.holds.join (FreeList.ofBlocks_holds page.renewed.ranges)
  have swept : page.sweep list =
      .ok (page.yielded, page.renewed, list.join (.ofBlocks page.renewed.ranges)) := by
    refine Page.sweep_eq ⟨roster.waits page (by simp), young⟩ (holds.fits ?_)
    simp only [FreeBlock.bytes_append, List.flatMap_append, List.flatMap_cons] at room ⊢
    omega
  refine ⟨swept, front ++ ⟨⟨left, pages ++ [page.renewed],
    list.join (.ofBlocks page.renewed.ranges)⟩, blocks ++ page.renewed.ranges⟩ :: back, ?_, ?_,
    tidy.holds, ?_, tidy.left, ?_, ?_⟩
  · refine roster.sweep.perm ?_ ?_
    · simp only [Traffic.waiting, List.flatMap_append, List.flatMap_cons]
      exact List.Perm.refl _
    · simp only [Traffic.cleared, List.flatMap_append, List.flatMap_cons]
      refine List.perm_iff_count.mpr fun other => ?_
      simp only [List.count_append, List.count_cons, List.count_nil]
      omega
  · simp
  · refine forall_mem_middle.mpr ⟨early, ⟨holds, ?_⟩, late⟩
    intro block member
    rcases List.mem_append.mp member with old | new
    · obtain ⟨owner, inside, left⟩ := own.left block old
      refine ⟨owner, ?_, left⟩
      simp only [List.mem_append] at inside ⊢
      exact inside.imp_left Or.inl
    · exact ⟨page.renewed, by simp, leaves block new⟩
  · refine (FreeBlock.apart_perm ?_).mp apart
    simp only [List.flatMap_append, List.flatMap_cons]
    refine List.perm_iff_count.mpr fun block => ?_
    simp only [List.count_append]
    omega
  · intro busy
    have none := (tidy.cycle busy).1
    simp at none

theorem lose {haul : Haul} (tidy : Tidy free carts
      ⟨space, before ++ haul :: after, reserved, collector⟩) :
    ∃ later, Tidy free later ⟨space, before ++ after, reserved, collector⟩ := by
  obtain ⟨front, blocks, back, rfl, rfl, rfl⟩ := carts_middle tidy.hauls
  have fewer : (front ++ back).Sublist (front ++ ⟨haul, blocks⟩ :: back) :=
    (List.sublist_cons_self _ _).append_left front
  have hauls : (front.map Cart.haul ++ back.map Cart.haul).Sublist
      (front.map Cart.haul ++ haul :: back.map Cart.haul) :=
    (List.sublist_cons_self _ _).append_left _
  refine ⟨front ++ back, tidy.roster.less ?_ ?_, ?_, tidy.holds, ?_, tidy.left, ?_, ?_⟩
  · exact (hauls.flatMap _).append_left _
  · exact (hauls.flatMap _).append_right _
  · simp
  · exact fun cart member => tidy.loaded cart (fewer.subset member)
  · exact tidy.apart.sublist (((fewer.flatMap _).append_left _).append_left _)
  · intro busy
    have none := (tidy.cycle busy).1
    simp at none

theorem publishPages (tidy : Tidy free carts
      ⟨space, before ++ ⟨[], pages, list⟩ :: after, reserved, collector⟩) :
    ∃ later, Tidy free later
      ⟨space.publishPages pages, before ++ ⟨[], [], list⟩ :: after, reserved, collector⟩ := by
  obtain ⟨front, blocks, back, rfl, rfl, rfl⟩ := carts_middle tidy.hauls
  obtain ⟨early, own, late⟩ := forall_mem_middle.mp tidy.loaded
  have wider (cart : Cart) (sound : cart.Sound space.swept) :
      cart.Sound (space.publishPages pages).swept := by
    refine ⟨sound.holds, fun block member => ?_⟩
    obtain ⟨owner, inside, leaves⟩ := sound.left block member
    refine ⟨owner, ?_, leaves⟩
    rw [PagedSpace.publishPages, ← List.append_assoc]
    exact List.mem_append_left _ inside
  refine ⟨front ++ ⟨⟨[], [], list⟩, blocks⟩ :: back, tidy.roster.perm ?_ ?_, ?_, tidy.holds, ?_, ?_,
    ?_, ?_⟩
  · simp only [Traffic.waiting, List.flatMap_append, List.flatMap_cons]
    exact List.Perm.refl _
  · simp only [Traffic.cleared, PagedSpace.publishPages, List.flatMap_append, List.flatMap_cons]
    refine List.perm_iff_count.mpr fun other => ?_
    simp only [List.count_append, List.count_nil]
    omega
  · simp
  · refine forall_mem_middle.mpr ⟨fun cart member => wider cart (early cart member), ?_,
      fun cart member => wider cart (late cart member)⟩
    refine ⟨own.holds, fun block member => ?_⟩
    obtain ⟨owner, inside, leaves⟩ := own.left block member
    refine ⟨owner, ?_, leaves⟩
    simp only [PagedSpace.publishPages, List.mem_append] at inside ⊢
    exact Or.inr inside.symm
  · intro block member
    obtain ⟨owner, inside, leaves⟩ := tidy.left block member
    exact ⟨owner, List.mem_append_left _ inside, leaves⟩
  · simpa only [List.flatMap_append, List.flatMap_cons] using tidy.apart
  · intro busy
    have none := (tidy.cycle busy).1
    simp at none

theorem publishBlocks (tidy : Tidy free carts
      ⟨space, before ++ ⟨[], [], list⟩ :: after, reserved, collector⟩) :
    (space.publishBlocks list).1 = .ok () ∧ ∃ found later, Tidy found later
      ⟨(space.publishBlocks list).2, before ++ after, reserved, collector⟩ := by
  obtain ⟨front, blocks, back, rfl, rfl, rfl⟩ := carts_middle tidy.hauls
  obtain ⟨early, own, late⟩ := forall_mem_middle.mp tidy.loaded
  have room := tidy.room
  simp only [FreeBlock.bytes_append, List.flatMap_append, List.flatMap_cons] at room
  have holds : (space.free.join list).Holds (free ++ blocks) := tidy.holds.join own.holds
  have joined := FreeList.concatenate_eq (holds.fits (by
    rw [FreeBlock.bytes_append]
    omega))
  have published : space.publishBlocks list =
      (.ok (), { space with free := space.free.join list }) := by
    simp only [PagedSpace.publishBlocks, joined]
  rw [published]
  refine ⟨rfl, free ++ blocks, front ++ back, tidy.roster.perm ?_ ?_, ?_, holds, ?_, ?_, ?_, ?_⟩
  · simp only [Traffic.waiting, List.flatMap_append, List.flatMap_cons]
    exact List.Perm.refl _
  · simp only [Traffic.cleared, List.flatMap_append, List.flatMap_cons]
    exact List.Perm.refl _
  · simp
  · exact List.forall_mem_append.mpr ⟨early, late⟩
  · intro block member
    simp only [List.mem_append] at member
    rcases member with (inFree | inOwn) | inReserved
    · exact tidy.left block (List.mem_append_left _ inFree)
    · exact own.left block inOwn
    · exact tidy.left block (List.mem_append_right _ inReserved)
  · refine (FreeBlock.apart_perm ?_).mp tidy.apart
    simp only [List.flatMap_append, List.flatMap_cons]
    refine List.perm_iff_count.mpr fun block => ?_
    simp only [List.count_append]
    omega
  · intro busy
    have none := (tidy.cycle busy).1
    simp at none

theorem drop (tidy : Tidy free carts ⟨space, [], reserved, .idle⟩) :
    Tidy [] carts ⟨space.dropBlocks, [], reserved, .dropped⟩ := by
  refine ⟨tidy.roster, tidy.hauls, FreeList.empty_holds, tidy.loaded, ?_, ?_, fun _ => ⟨rfl, rfl⟩⟩
  · exact fun block member => tidy.left block (List.mem_append_right _ member)
  · exact tidy.apart.sublist (List.sublist_append_right _ _)

/-- The swept pages leave, and no block that somebody has lies in one of them. -/
theorem take (tidy : Tidy free carts ⟨space, hauls, [], .dropped⟩) :
    Tidy [] carts ⟨space.takeSwept.2, hauls, [], .holding space.takeSwept.1⟩ := by
  obtain ⟨rfl, rfl⟩ := tidy.cycle nofun
  obtain rfl := List.map_eq_nil_iff.mp tidy.hauls.symm
  exact ⟨tidy.roster.take, rfl, tidy.holds, nofun, nofun, List.Pairwise.nil,
    fun _ => ⟨rfl, rfl⟩⟩

theorem recycle (tidy : Tidy free carts ⟨space, hauls, reserved, .holding pages⟩) :
    Tidy free carts ⟨space.recycle pages, hauls, reserved, .idle⟩ := by
  obtain ⟨rfl, _⟩ := tidy.cycle nofun
  refine ⟨?_, tidy.hauls, tidy.holds, tidy.loaded, tidy.left, tidy.apart, nofun⟩
  have roster := tidy.roster.recycle
  simp only [Traffic.waiting, List.flatMap_nil, List.append_nil] at roster ⊢
  exact roster

end Tidy

end Reclaim
