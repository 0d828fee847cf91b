import Mathlib.Data.List.Forall2
import Reclaim.Proofs.World.Basic

/-! Deeds, and what they do to the pages of a world. A deed carries what it acts on and what it
answers, so it shows which bytes were handed out, which page was swept, and whether anything faulted.
However the pages are spread over a world, a deed turns them in one of four ways. -/

namespace Reclaim

structure Extent where
  page : PageId
  offset : Nat
  size : Nat
  deriving DecidableEq, Repr

def Extent.Apart (extent other : Extent) : Prop :=
  extent.page ≠ other.page ∨ extent.offset + extent.size ≤ other.offset ∨
    other.offset + other.size ≤ extent.offset

instance (extent other : Extent) : Decidable (extent.Apart other) := by
  unfold Extent.Apart
  infer_instance

inductive Deed where
  | create (page : Page)
  | bump (page : Page) (request : Nat) (answer : Option Nat)
  | mark (page : Page) (offset : Nat) (hit : Bool)
  | add (page : Page) (answer : Except Fault Unit)
  | allocate (kind : SpaceKind) (request : Nat) (answer : Except Fault (Option ObjectAddress))
  | take
  | restore
  | sweep (page : Page) (answer : Except Fault Unit)
  | publish (kind : SpaceKind) (answer : Except Fault Unit)
  | prepare

namespace Deed

def fault? : Deed → Option Fault
  | .add _ (.error fault) => some fault
  | .allocate _ _ (.error fault) => some fault
  | .sweep _ (.error fault) => some fault
  | .publish _ (.error fault) => some fault
  | _ => none

def obtained? : Deed → Option Extent
  | .bump page request (some offset) =>
      (Word.roundUp? request).map fun size => ⟨page.id, offset, size⟩
  | .allocate _ request (.ok (some address)) =>
      (Word.roundUp? request).map fun size => ⟨address.page, address.offset, size⟩
  | _ => none

def swept? : Deed → Option Page
  | .sweep page _ => some page
  | _ => none

def Drops (deed : Deed) (extent : Extent) : Prop :=
  ∃ page, deed.swept? = some page ∧ page.id = extent.page ∧
    ∃ object ∈ page.objects, object.offset = extent.offset ∧ object.marked = false

def born : Deed → List PageId
  | .create page => [page.id]
  | _ => []

structure Quiet (deed : Deed) : Prop where
  obtained : deed.obtained? = none
  swept : deed.swept? = none
  born : deed.born = []

theorem born_of_obtained {deed : Deed} {extent : Extent} (obtained : deed.obtained? = some extent) :
    deed.born = [] := by
  cases deed <;> first | rfl | simp [obtained?] at obtained

end Deed

def Page.Alike (page other : Page) : Prop :=
  other.id = page.id ∧
    other.objects.map (fun object => (object.offset, object.size)) =
      page.objects.map fun object => (object.offset, object.size)

inductive Turn (before : List Page) : Deed → List Page → Prop
  | quiet {deed : Deed} {old new after : List Page} (quiet : deed.Quiet) (same : before.Perm old)
      (changed : after.Perm new) (alike : List.Forall₂ Page.Alike old new) :
      Turn before deed after
  | born {page : Page} {after : List Page} (grown : after.Perm (page :: before)) :
      Turn before (.create page) after
  | placed {deed : Deed} {page next : Page} {object : HeapObject} {after : List Page}
      (turned : Turned page next before after) (same : next.id = page.id)
      (gains : page.Gains object next.objects)
      (obtained : deed.obtained? = some ⟨page.id, object.offset, object.size⟩)
      (idle : deed.swept? = none) :
      Turn before deed after
  | swept {page : Page} {after : List Page} (turned : Turned page page.renewed before after) :
      Turn before (.sweep page (.ok ())) after

theorem Page.Alike.refl (page : Page) : page.Alike page := ⟨rfl, rfl⟩

theorem alike_refl (pages : List Page) : List.Forall₂ Page.Alike pages pages :=
  List.forall₂_same.mpr fun page _ => .refl page

theorem alike_ids {old new : List Page} (alike : List.Forall₂ Page.Alike old new) :
    new.map (·.id) = old.map (·.id) := by
  induction alike with
  | nil => rfl
  | cons same _ ih => rw [List.map_cons, List.map_cons, same.1, ih]

theorem alike_mem {old new : List Page} (alike : List.Forall₂ Page.Alike old new) {page : Page}
    (member : page ∈ old) : ∃ other ∈ new, page.Alike other := by
  induction alike with
  | nil => cases member
  | cons same _ ih =>
      rcases List.mem_cons.mp member with rfl | inRest
      · exact ⟨_, by simp, same⟩
      · obtain ⟨other, inside, same⟩ := ih inRest
        exact ⟨other, by simp [inside], same⟩

theorem map_modify {α β : Type} {measure : α → β} {change : α → α} {items : List α}
    {position : Nat} (same : ∀ item, measure (change item) = measure item) :
    (items.modify position change).map measure = items.map measure := by
  induction items generalizing position with
  | nil => simp
  | cons item rest ih =>
      cases position with
      | zero => simp [same]
      | succ position => simp [ih]

def Page.Carries (page : Page) (extent : Extent) : Prop :=
  page.id = extent.page ∧
    ∃ object ∈ page.objects, object.offset = extent.offset ∧ object.size = extent.size

theorem Page.Alike.carries {page other : Page} {extent : Extent} (alike : page.Alike other)
    (carries : page.Carries extent) : other.Carries extent := by
  obtain ⟨name, object, inside, offset, size⟩ := carries
  have recorded : (object.offset, object.size) ∈
      other.objects.map fun object => (object.offset, object.size) := by
    rw [alike.2]
    exact List.mem_map_of_mem inside
  obtain ⟨same, member, equal⟩ := List.mem_map.mp recorded
  obtain ⟨sameOffset, sameSize⟩ := Prod.mk.inj equal
  exact ⟨alike.1.trans name, same, member, sameOffset.trans offset, sameSize.trans size⟩

def Recorded (pages : List Page) (extent : Extent) : Prop := ∃ page ∈ pages, page.Carries extent

namespace Turn

variable {before after : List Page} {deed : Deed}

theorem still (quiet : deed.Quiet) (same : after.Perm before) : Turn before deed after :=
  .quiet quiet (List.Perm.refl _) same (alike_refl before)

theorem alike {page next : Page} (quiet : deed.Quiet) (turned : Turned page next before after)
    (same : page.Alike next) : Turn before deed after := by
  obtain ⟨rest, old, new⟩ := turned
  exact .quiet quiet old new (List.Forall₂.cons same (alike_refl rest))

theorem ids (turn : Turn before deed after) :
    (after.map (·.id)).Perm (deed.born ++ before.map (·.id)) := by
  cases turn with
  | quiet quiet same changed alike =>
      rw [quiet.born, List.nil_append]
      refine (changed.map _).trans (List.Perm.trans ?_ (same.map _).symm)
      rw [alike_ids alike]
  | born grown => exact grown.map _
  | placed turned same _ obtained _ =>
      rw [Deed.born_of_obtained obtained]
      exact turned.map (·.id) same
  | swept turned => exact turned.map (·.id) rfl

theorem keeps (turn : Turn before deed after) {extent : Extent} (recorded : Recorded before extent)
    (kept : ¬ deed.Drops extent) : Recorded after extent := by
  obtain ⟨carrier, member, carries⟩ := recorded
  cases turn with
  | quiet _ same changed alike =>
      obtain ⟨other, inside, similar⟩ := alike_mem alike (same.mem_iff.mp member)
      exact ⟨other, changed.mem_iff.mpr inside, similar.carries carries⟩
  | born grown => exact ⟨carrier, grown.mem_iff.mpr (List.mem_cons_of_mem _ member), carries⟩
  | @placed _ page next object _ turned same gains _ _ =>
      obtain ⟨rest, old, new⟩ := turned
      rcases List.mem_cons.mp (old.mem_iff.mp member) with rfl | inRest
      · obtain ⟨name, recorded, inside, place⟩ := carries
        obtain ⟨front, back, split, _, _, gained⟩ := gains
        refine ⟨next, new.mem_iff.mpr (by simp), same.trans name, recorded, ?_, place⟩
        rw [split] at inside
        rw [gained]
        rcases List.mem_append.mp inside with inFront | inBack
        · simp [inFront]
        · simp [inBack]
      · exact ⟨carrier, new.mem_iff.mpr (List.mem_cons_of_mem _ inRest), carries⟩
  | @swept page _ turned =>
      obtain ⟨rest, old, new⟩ := turned
      rcases List.mem_cons.mp (old.mem_iff.mp member) with rfl | inRest
      · obtain ⟨name, object, inside, place, size⟩ := carries
        have marked : object.marked = true := by
          by_contra unmarked
          exact kept ⟨carrier, rfl, name, object, inside, place, by simpa using unmarked⟩
        refine ⟨carrier.renewed, new.mem_iff.mpr (by simp), name,
          { object with marked := false }, ?_, place, size⟩
        exact List.mem_map.mpr ⟨object, List.mem_filter.mpr ⟨inside, marked⟩, rfl⟩
      · exact ⟨carrier, new.mem_iff.mpr (List.mem_cons_of_mem _ inRest), carries⟩

theorem hands (turn : Turn before deed after) {extent : Extent}
    (obtained : deed.obtained? = some extent) : Recorded after extent := by
  cases turn with
  | quiet quiet _ _ _ =>
      rw [quiet.obtained] at obtained
      cases obtained
  | born _ => cases obtained
  | @placed _ page next object _ turned same gains handed _ =>
      rw [handed] at obtained
      cases obtained
      obtain ⟨front, back, _, _, _, gained⟩ := gains
      exact ⟨next, turned.mem.2, same, object, by simp [gained], rfl, rfl⟩
  | swept _ => cases obtained

theorem apart (turn : Turn before deed after) (distinct : (before.map (·.id)).Nodup)
    {extent other : Extent} (recorded : Recorded before extent)
    (obtained : deed.obtained? = some other) : extent.Apart other := by
  obtain ⟨carrier, member, name, held, inside, offset, size⟩ := recorded
  cases turn with
  | quiet quiet _ _ _ =>
      rw [quiet.obtained] at obtained
      cases obtained
  | born _ => cases obtained
  | @placed _ page next object _ turned same gains handed _ =>
      rw [handed] at obtained
      cases obtained
      by_cases elsewhere : extent.page = page.id
      · right
        have one : carrier = page :=
          List.inj_on_of_nodup_map distinct member turned.mem.1 (name.trans elsewhere)
        subst one
        obtain ⟨front, back, split, below, above, _⟩ := gains
        rw [split] at inside
        rcases List.mem_append.mp inside with inFront | inBack
        · have bound := below held inFront
          rw [HeapObject.stop, offset, size] at bound
          exact Or.inl bound
        · have bound := above held inBack
          rw [offset] at bound
          exact Or.inr bound
      · exact Or.inl elsewhere
  | swept _ => cases obtained

theorem drops (turn : Turn before deed after) (distinct : (before.map (·.id)).Nodup)
    (sound : ∀ page ∈ before, page.Sound) {extent : Extent} (dropped : deed.Drops extent) :
    ∀ page ∈ after, page.id = extent.page → ∀ object ∈ page.objects,
      object.offset ≠ extent.offset := by
  obtain ⟨lost, sweeps, name, object, inside, offset, unmarked⟩ := dropped
  intro other member same survivor found start
  cases turn with
  | quiet quiet _ _ _ =>
      rw [quiet.swept] at sweeps
      cases sweeps
  | born _ => cases sweeps
  | placed _ _ _ _ idle =>
      rw [idle] at sweeps
      cases sweeps
  | @swept page _ turned =>
      cases sweeps
      have pageSound := sound lost turned.mem.1
      obtain ⟨rest, old, new⟩ := turned
      rcases List.mem_cons.mp (new.mem_iff.mp member) with rfl | inRest
      · obtain ⟨origin, kept, rfl⟩ := List.mem_map.mp found
        obtain ⟨recorded, marked⟩ := List.mem_filter.mp kept
        have one : object = origin := pageSound.arranged.eq_of_offset inside recorded (by
          rw [offset]
          exact start.symm)
        rw [← one, unmarked] at marked
        cases marked
      · have names := (old.map (·.id)).nodup_iff.mp distinct
        rw [List.map_cons, List.nodup_cons] at names
        exact names.1 (List.mem_map.mpr ⟨other, inRest, same.trans name.symm⟩)

theorem survives (turn : Turn before deed after) {page : Page} (swept : deed.swept? = some page)
    {object : HeapObject} (inside : object ∈ page.objects) (marked : object.marked = true) :
    ∃ kept ∈ after, kept.id = page.id ∧ { object with marked := false } ∈ kept.objects := by
  cases turn with
  | quiet quiet _ _ _ =>
      rw [quiet.swept] at swept
      cases swept
  | born _ => cases swept
  | placed _ _ _ _ idle =>
      rw [idle] at swept
      cases swept
  | @swept swept' _ turned =>
      cases swept
      exact ⟨page.renewed, turned.mem.2, rfl,
        List.mem_map.mpr ⟨object, List.mem_filter.mpr ⟨inside, marked⟩, rfl⟩⟩

end Turn

end Reclaim
