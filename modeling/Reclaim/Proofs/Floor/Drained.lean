import Reclaim.Proofs.Floor.Drain

/-! Pools that are dropped while their workers still have tasks. Whatever becomes of the tasks, and whoever
else takes tasks from the queue, no task is lost and none is run twice; and unless each of its workers has
died, a pool leaves no task behind. -/

namespace Reclaim

theorem Counters.recordTask_iterate {counters : Counters} (small : counters.tasks < Word.limit)
    (count : Nat) :
    (Counters.recordTask^[count] counters).tasks = Word.wrappingAdd counters.tasks count := by
  induction count with
  | zero => exact (Nat.mod_eq_of_lt small).symm
  | succ count ih =>
      rw [Function.iterate_succ_apply', recordTask, ih]
      exact Nat.mod_add_mod _ _ _

namespace Floor

variable {desk : Desk} {floor next : Floor} {beats : List Beat} {beat : Beat}

structure Drained (desk : Desk) (beats : List Beat) (floor : Floor) : Prop where
  fifo : handed beats ++ floor.desk.queue.pending = accepted beats
  taken : handed beats = taken .all beats
  refused : ∀ task, task ∉ accepted beats → task ∉ Floor.taken .all beats
  whole : (accepted beats).Perm
    (completed .all beats ++ (failed .all beats ++ (floor.busy .all ++ floor.desk.queue.pending)))
  scripts : ∀ (number place : Nat) (squad : Squad) (hand : Hand),
    floor.squads[number]? = some squad → squad.hands[place]? = some hand →
      hand.Told desk.host (laborsOf (.ofHand number place) beats)
  counted : desk.counters.tasks < Word.limit → floor.desk.counters.tasks =
    Word.wrappingAdd desk.counters.tasks (completed .workers beats).length
  pools : ∀ (number threads : Nat), (Floor.hires beats)[number]? = some (.pool, threads) →
    ∃ squad : Squad, floor.squads[number]? = some squad ∧ squad.hands.length = threads ∧
      (∀ joined, squad.tenure = .leaving joined →
        ∃ stint deal next changed, squad.Step floor.desk stint deal next changed) ∧
      (squad.tenure = .released → Emptied beats floor number squad)

/-- Each task is run once, in the order in which tasks were taken in, or it waits. An owner that
drops a pool is never stuck, and if a worker has survived when it is done, nothing waits. -/
theorem Run.drained (run : Run (opened desk) beats floor) (fresh : desk.queue = .fresh) :
    Drained desk beats floor := by
  have fifo := run.fifo fresh
  constructor
  · exact fifo
  · exact run.handed_eq
  · intro task absent taken
    rw [← run.handed_eq] at taken
    exact absent (fifo ▸ List.mem_append_left _ taken)
  · exact run.whole fresh
  · intro number place squad hand here there
    exact run.told here there
  · intro small
    rw [run.counted]
    exact Counters.recordTask_iterate small _
  · intro number threads hired
    rw [run.hires, List.getElem?_map] at hired
    obtain ⟨squad, here, same⟩ := Option.map_eq_some_iff.mp hired
    obtain ⟨pool, size⟩ := Prod.mk.inj same
    have inside : squad.station ≠ .outside := by rw [pool]; nofun
    refine ⟨squad, here, size, fun joined leaving => ?_, run.emptied fresh here inside⟩
    have sound := run.sound squad (List.mem_of_getElem? here)
    exact sound.goes leaving (sound.closed pool (by rw [leaving]; nofun))

def sampleParent : Task := .make 1 [.make 2 [] [] .short false false] [] .long true false

def sampleFailure : Task := .make 3 [] [] .short false true

def sampleBeats : List Beat :=
  -- A pool of two workers. One of them dies; the other one leaves nothing in the queue.
  let child : Task := .make 2 [] [] .short false false
  let late : Task := .make 4 [] [] .short false false
  [⟨.hire .pool 2, none⟩, ⟨.append sampleParent, some (.append sampleParent (.ok ()))⟩,
    ⟨.append sampleFailure, some (.append sampleFailure (.ok ()))⟩,
    ⟨.squad 0 .pool (.labor 0 (.take sampleParent)), some (.next (some sampleParent))⟩,
    ⟨.squad 0 .pool (.labor 1 (.take sampleFailure)), some (.next (some sampleFailure))⟩,
    ⟨.squad 0 .pool (.labor 0 (.perform (.announce child))), none⟩,
    ⟨.squad 0 .pool (.labor 0 (.perform (.submit child))), some (.append child (.ok ()))⟩,
    ⟨.squad 0 .pool (.labor 1 (.fail sampleFailure)), none⟩,
    ⟨.squad 0 .pool (.labor 0 (.perform .terminate)), some .terminate⟩,
    ⟨.append late, some (.append late (.error late))⟩,
    ⟨.squad 0 .pool .drop, some .terminate⟩,
    ⟨.squad 0 .pool (.labor 0 (.finish sampleParent)), none⟩,
    ⟨.squad 0 .pool (.labor 0 (.take child)), some (.next (some child))⟩,
    ⟨.squad 0 .pool (.labor 0 (.finish child)), none⟩,
    ⟨.squad 0 .pool (.labor 0 .leave), some (.next none)⟩,
    ⟨.squad 0 .pool (.join .finished), none⟩, ⟨.squad 0 .pool (.join .died), none⟩,
    ⟨.squad 0 .pool .release, none⟩]

theorem sampleBeats_drained : ∃ floor, Run (opened (.fresh .queue)) sampleBeats floor ∧
    Drained (.fresh .queue) sampleBeats floor := by
  have hired : Run (opened (.fresh .queue)) _ _ := .snoc .nil (.hire .pool 2)
  have brought : Run _ _ _ := .snoc hired (.append sampleParent)
  have both : Run _ _ _ := .snoc brought (.append sampleFailure)
  have first : Run _ _ _ := .snoc both (.squad_at 0 rfl (.labor_at 0 rfl (.take rfl)))
  have second : Run _ _ _ := .snoc first (.squad_at 0 rfl (.labor_at 1 rfl (.take rfl)))
  have announced : Run _ _ _ := .snoc second (.squad_at 0 rfl (.labor_at 0 rfl .perform))
  have posted : Run _ _ _ := .snoc announced (.squad_at 0 rfl (.labor_at 0 rfl .perform))
  have died : Run _ _ _ := .snoc posted (.squad_at 0 rfl (.labor_at 1 rfl (.fail rfl)))
  have ended : Run _ _ _ := .snoc died (.squad_at 0 rfl (.labor_at 0 rfl .perform))
  have refused : Run _ _ _ := .snoc ended (.append (.make 4 [] [] .short false false))
  have dropped : Run _ _ _ := .snoc refused (.squad_at 0 rfl .dropPool)
  have finished : Run _ _ _ := .snoc dropped (.squad_at 0 rfl (.labor_at 0 rfl (.finish rfl)))
  have child : Run _ _ _ := .snoc finished (.squad_at 0 rfl (.labor_at 0 rfl (.take rfl)))
  have calm : Run _ _ _ := .snoc child (.squad_at 0 rfl (.labor_at 0 rfl (.finish rfl)))
  have left : Run _ _ _ := .snoc calm (.squad_at 0 rfl (.labor_at 0 rfl (.leave rfl)))
  have joined : Run _ _ _ := .snoc left (.squad_at 0 rfl (.join_at 0 rfl (by decide)))
  have buried : Run _ _ _ := .snoc joined (.squad_at 0 rfl (.join_at 1 rfl (by decide)))
  have run : Run (opened (.fresh .queue)) sampleBeats _ := .snoc buried (.squad_at 0 rfl .release)
  exact ⟨_, run, run.drained rfl⟩

end Floor

end Reclaim
