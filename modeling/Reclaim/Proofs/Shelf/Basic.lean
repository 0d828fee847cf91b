import Mathlib.Data.List.Induction
import Reclaim.Proofs.FreeList.Orderly
import Reclaim.Proofs.Items

/-! Several free lists, used in any order. Blocks are freed into any of them, any of them serves
requests, one is joined to another, and one is emptied. Beside the lists stands what became of the
blocks that left them. As long as all bytes that were freed fit into the word no use ends in a fault,
and no byte is lost. -/

namespace Reclaim

structure Shelf where
  lists : List FreeList
  served : List FreeBlock
  scraps : List FreeBlock
  dropped : List FreeList
  deriving DecidableEq, Repr

namespace Shelf

inductive Use where
  | free (index : Nat) (block : FreeBlock)
  | allocate (index request : Nat)
  | concatenate (index source : Nat)
  | reset (index : Nat)
  deriving DecidableEq, Repr

def opened (count : Nat) : Shelf := ⟨List.replicate count .empty, [], [], []⟩

def put (shelf : Shelf) (index : Nat) (list : FreeList) : Shelf :=
  { shelf with lists := shelf.lists.set index list }

def perform (shelf : Shelf) : Use → Except Fault Shelf
  | .free index block =>
      match shelf.lists[index]? with
      | none => .error (.indexOutOfRange shelf.lists.length index)
      | some list =>
          match list.free block with
          | (.error fault, _) => .error fault
          | (.ok _, left) => .ok (shelf.put index left)
  | .allocate index request =>
      match shelf.lists[index]? with
      | none => .error (.indexOutOfRange shelf.lists.length index)
      | some list =>
          match list.allocate request with
          | (.error fault, _) => .error fault
          | (.ok none, left) => .ok (shelf.put index left)
          | (.ok (some block), left) =>
              .ok { shelf.put index left with
                served := shelf.served ++ [block]
                scraps := shelf.scraps ++ list.scrap left block }
  | .concatenate index source =>
      match shelf.lists[index]?, shelf.lists[source]? with
      | none, _ => .error (.indexOutOfRange shelf.lists.length index)
      | _, none => .error (.indexOutOfRange shelf.lists.length source)
      | some list, some other =>
          match list.concatenate other with
          | (.error fault, _, _) => .error fault
          | (.ok _, joined, emptied) => .ok ((shelf.put index joined).put source emptied)
  | .reset index =>
      match shelf.lists[index]? with
      | none => .error (.indexOutOfRange shelf.lists.length index)
      | some list => .ok { shelf.put index .empty with dropped := shelf.dropped ++ [list] }

def performEach (shelf : Shelf) (uses : List Use) : Except Fault Shelf := uses.foldlM perform shelf

def Use.freed : Use → List FreeBlock
  | .free _ block => [block]
  | _ => []

def freedBy (uses : List Use) : List FreeBlock := uses.flatMap Use.freed

def Use.Within (count : Nat) : Use → Prop
  | .free index _ | .allocate index _ | .reset index => index < count
  | .concatenate index source => index < count ∧ source < count ∧ index ≠ source

instance (count : Nat) : (use : Use) → Decidable (use.Within count)
  | .free index _ | .allocate index _ | .reset index => inferInstanceAs (Decidable (index < count))
  | .concatenate index source =>
      inferInstanceAs (Decidable (index < count ∧ source < count ∧ index ≠ source))

structure Proper (count : Nat) (uses : List Use) : Prop where
  within : ∀ use ∈ uses, use.Within count
  stops : ∀ block ∈ freedBy uses, block.offset + block.size < Word.limit
  room : FreeBlock.bytes (freedBy uses) < Word.limit

inductive Effect (shelf : Shelf) : Use → Shelf → Prop
  | free {index : Nat} {list : FreeList} {block : FreeBlock}
      (here : shelf.lists[index]? = some list)
      (orderly : (list.join (.ofBlocks [block])).Orderly) :
      Effect shelf (.free index block) (shelf.put index (list.join (.ofBlocks [block])))
  | refuse {index request : Nat} : Effect shelf (.allocate index request) shelf
  | serve {index request size : Nat} {list left : FreeList} {block : FreeBlock}
      (here : shelf.lists[index]? = some list) (cuts : list.Cuts block size left) :
      Effect shelf (.allocate index request)
        { shelf.put index left with
          served := shelf.served ++ [{ block with size }]
          scraps := shelf.scraps ++ list.scrap left { block with size } }
  | concatenate {index source : Nat} {list other : FreeList}
      (here : shelf.lists[index]? = some list) (there : shelf.lists[source]? = some other)
      (distinct : index ≠ source) (orderly : (list.join other).Orderly) :
      Effect shelf (.concatenate index source) ((shelf.put index (list.join other)).put source .empty)
  | reset {index : Nat} {list : FreeList} (here : shelf.lists[index]? = some list) :
      Effect shelf (.reset index)
        { shelf.put index .empty with dropped := shelf.dropped ++ [list] }

inductive Reached (count : Nat) : List Use → Shelf → Prop
  | opened : Reached count [] (opened count)
  | after {uses : List Use} {use : Use} {shelf next : Shelf} (earlier : Reached count uses shelf)
      (effect : Effect shelf use next) : Reached count (uses ++ [use]) next

structure Conserved (measure : FreeList → Nat) (out lost : FreeBlock → Nat) : Prop where
  empty : measure .empty = 0
  join : ∀ list source, measure (list.join source) = measure list + measure source
  cut : ∀ {list left : FreeList} {block : FreeBlock} {size : Nat}, list.Cuts block size left →
    measure left + out { block with size } +
      ((list.scrap left { block with size }).map lost).sum = measure list

theorem freedBy_snoc (uses : List Use) (use : Use) :
    freedBy (uses ++ [use]) = freedBy uses ++ use.freed := by
  simp [freedBy]

theorem performEach_snoc {shelf middle : Shelf} {uses : List Use}
    (earlier : shelf.performEach uses = .ok middle) (use : Use) :
    shelf.performEach (uses ++ [use]) = middle.perform use := by
  unfold performEach at earlier ⊢
  rw [List.foldlM_append, earlier]
  exact bind_pure (middle.perform use)

theorem Proper.earlier {count : Nat} {uses : List Use} {use : Use}
    (proper : Proper count (uses ++ [use])) : Proper count uses := by
  obtain ⟨within, stops, room⟩ := proper
  rw [freedBy_snoc] at stops room
  rw [FreeBlock.bytes_append] at room
  exact ⟨fun use member => within use (List.mem_append_left _ member),
    fun block member => stops block (List.mem_append_left _ member), by omega⟩

variable {shelf next : Shelf} {use : Use} {count : Nat} {uses : List Use}

theorem Effect.length (effect : Effect shelf use next) :
    next.lists.length = shelf.lists.length := by
  cases effect <;> simp [put]

theorem Effect.keeps_order (effect : Effect shelf use next)
    (orderly : ∀ list ∈ shelf.lists, list.Orderly) : ∀ list ∈ next.lists, list.Orderly := by
  have kept (index : Nat) {left : FreeList} (ordered : left.Orderly) :
      ∀ list ∈ shelf.lists.set index left, list.Orderly := by
    intro list member
    rcases List.mem_or_eq_of_mem_set member with same | rfl
    · exact orderly list same
    · exact ordered
  cases effect with
  | free here ordered => exact kept _ ordered
  | refuse => exact orderly
  | serve here cuts => exact kept _ cuts.ordered
  | concatenate here there distinct ordered =>
      intro list member
      rcases List.mem_or_eq_of_mem_set member with same | rfl
      · exact kept _ ordered list same
      · exact FreeList.empty_orderly
  | reset here => exact kept _ FreeList.empty_orderly

def weight (measure : FreeList → Nat) (out lost : FreeBlock → Nat) (shelf : Shelf) : Nat :=
  (shelf.lists.map measure).sum + (shelf.served.map out).sum + (shelf.scraps.map lost).sum +
    (shelf.dropped.map measure).sum

theorem Effect.conserves {measure : FreeList → Nat} {out lost : FreeBlock → Nat}
    (effect : Effect shelf use next) (conserved : Conserved measure out lost) :
    next.weight measure out lost = shelf.weight measure out lost +
      (use.freed.map fun block => measure (.ofBlocks [block])).sum := by
  unfold weight
  cases effect with
  | @free index list block here _ =>
      have changed := sum_set measure here (list.join (.ofBlocks [block]))
      rw [conserved.join] at changed
      simp only [put, Use.freed, List.map_singleton, List.sum_singleton]
      omega
  | refuse => simp [Use.freed]
  | @serve index request size list left block here cuts =>
      have changed := sum_set measure here left
      have cut := conserved.cut cuts
      simp only [put, Use.freed, List.map_append, List.sum_append, List.map_singleton,
        List.sum_singleton, List.map_nil, List.sum_nil]
      omega
  | @concatenate index source list other here there distinct _ =>
      have first := sum_set measure here (list.join other)
      have still : (shelf.lists.set index (list.join other))[source]? = some other := by
        rw [List.getElem?_set_ne distinct, there]
      have second := sum_set measure still .empty
      rw [conserved.join] at first
      rw [conserved.empty] at second
      simp only [put, Use.freed, List.map_nil, List.sum_nil]
      omega
  | @reset index list here =>
      have changed := sum_set measure here .empty
      rw [conserved.empty] at changed
      simp only [put, Use.freed, List.map_append, List.sum_append, List.map_singleton,
        List.sum_singleton, List.map_nil, List.sum_nil]
      omega

namespace Reached

theorem length (reached : Reached count uses shelf) : shelf.lists.length = count := by
  induction reached with
  | opened => exact List.length_replicate
  | after _ effect ih => exact effect.length.trans ih

theorem keeps_order (reached : Reached count uses shelf) : ∀ list ∈ shelf.lists, list.Orderly := by
  induction reached with
  | opened =>
      intro list member
      rw [List.eq_of_mem_replicate member]
      exact FreeList.empty_orderly
  | after _ effect ih => exact effect.keeps_order ih

theorem conserves {measure : FreeList → Nat} {out lost : FreeBlock → Nat}
    (reached : Reached count uses shelf) (conserved : Conserved measure out lost) :
    shelf.weight measure out lost =
      ((freedBy uses).map fun block => measure (.ofBlocks [block])).sum := by
  induction reached with
  | opened => simp [weight, Shelf.opened, freedBy, conserved.empty]
  | after _ effect ih => rw [effect.conserves conserved, ih, freedBy_snoc, List.map_append,
      List.sum_append]

end Reached

/-- Every byte that was freed is on one of the lists, has been served, or was on a list when it was
emptied. -/
theorem total_conserved : Conserved FreeList.total FreeBlock.size fun _ => 0 where
  empty := rfl
  join := FreeList.join_total
  cut cuts := by
    rw [← cuts.total]
    simp

theorem Reached.balance (reached : Reached count uses shelf) :
    (shelf.lists.map FreeList.total).sum + FreeBlock.bytes shelf.served +
      (shelf.dropped.map FreeList.total).sum = FreeBlock.bytes (freedBy uses) := by
  have conserved := reached.conserves total_conserved
  simpa [weight, FreeList.ofBlocks_single_total, FreeBlock.bytes] using conserved

theorem Reached.totals_le (reached : Reached count uses shelf) :
    (shelf.lists.map FreeList.total).sum ≤ FreeBlock.bytes (freedBy uses) := by
  have balance := reached.balance
  omega

/-- A use never ends in a fault: whatever has been done before, the counts have room for it. -/
theorem Reached.goes (reached : Reached count uses shelf) (proper : Proper count (uses ++ [use])) :
    ∃ next, shelf.perform use = .ok next ∧ Effect shelf use next := by
  have within := proper.within use (by simp)
  have stops := proper.stops
  have room := proper.room
  rw [freedBy_snoc] at stops room
  rw [FreeBlock.bytes_append] at room
  have totals := reached.totals_le
  have there {index : Nat} (inside : index < count) :
      ∃ list, shelf.lists[index]? = some list ∧ list.Orderly := by
    rw [← reached.length] at inside
    exact ⟨_, List.getElem?_eq_getElem inside, reached.keeps_order _ (List.getElem_mem inside)⟩
  cases use with
  | free index block =>
      obtain ⟨list, here, orderly⟩ := there within
      have below := le_sum FreeList.total here
      have stop := stops block (by simp [Use.freed])
      simp only [Use.freed, FreeBlock.bytes, List.map_singleton, List.sum_singleton] at room totals
      obtain ⟨freed, ordered⟩ := orderly.free stop (by omega)
      exact ⟨_, by simp only [perform, here, freed], .free here ordered⟩
  | allocate index request =>
      obtain ⟨list, here, orderly⟩ := there within
      have below := le_sum FreeList.total here
      rcases orderly.allocate (by omega) request with refused | ⟨block, size, left, served, cuts⟩
      · have same : shelf.put index list = shelf := by
          obtain ⟨inside, value⟩ := List.getElem?_eq_some_iff.mp here
          rw [put, ← value, List.set_getElem_self inside]
        exact ⟨shelf, by simp only [perform, here, refused, same], .refuse⟩
      · exact ⟨_, by simp only [perform, here, served], .serve here cuts⟩
  | concatenate index source =>
      obtain ⟨inside, known, distinct⟩ := within
      obtain ⟨list, here, orderly⟩ := there inside
      obtain ⟨other, beside, ordered⟩ := there known
      -- The two lists are different ones, so their bytes are different parts of all.
      have apart : list.total + other.total ≤ (shelf.lists.map FreeList.total).sum := by
        have emptied := sum_set FreeList.total here .empty
        have still : (shelf.lists.set index .empty)[source]? = some other := by
          rw [List.getElem?_set_ne distinct, beside]
        have part := le_sum FreeList.total still
        have none : FreeList.empty.total = 0 := rfl
        omega
      obtain ⟨joined, merged⟩ := orderly.concatenate ordered (by omega)
      exact ⟨_, by simp only [perform, here, beside, joined],
        .concatenate here beside distinct merged⟩
  | reset index =>
      obtain ⟨list, here, _⟩ := there within
      exact ⟨_, by simp only [perform, here], .reset here⟩

theorem Proper.reaches {count : Nat} {uses : List Use} (proper : Proper count uses) :
    ∃ shelf, (opened count).performEach uses = .ok shelf ∧ Reached count uses shelf := by
  induction uses using List.reverseRecOn with
  | nil => exact ⟨_, rfl, .opened⟩
  | append_singleton uses use ih =>
      obtain ⟨shelf, performed, reached⟩ := ih proper.earlier
      obtain ⟨next, step, effect⟩ := reached.goes proper
      exact ⟨next, by rw [performEach_snoc performed, step], reached.after effect⟩

end Shelf

end Reclaim
