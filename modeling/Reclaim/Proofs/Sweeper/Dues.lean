import Reclaim.Proofs.Sweeper.Chores

/-! What a sweeper owes to its round: the totals of the pages that it has been given and that nobody
has merged yet. Sweeping turns pages into totals and hands the totals on, so a sweeper owes the same
after each of its chores, until somebody waits for it. -/

namespace Reclaim

def Sweeper.due (sweeper : Sweeper) (load : Load) : BatchYield :=
  match sweeper.phase with
  | .sweeping _ => load.batch.yielded.plus (harvest load.left)
  | .swept outcome => outcome
  | _ => (harvest sweeper.assignment.pages).plus (sweeper.outcome.getD .zero)

def dues (sweepers : List Sweeper) (hands : List Load) : BatchYield :=
  (List.zipWith Sweeper.due sweepers hands).foldr BatchYield.plus .zero

theorem dues_append {before after : List Sweeper} {handsBefore handsAfter : List Load}
    (same : before.length = handsBefore.length) :
    dues (before ++ after) (handsBefore ++ handsAfter) =
      (dues before handsBefore).plus (dues after handsAfter) := by
  unfold dues
  rw [List.zipWith_append same]
  induction List.zipWith Sweeper.due before handsBefore with
  | nil => exact (BatchYield.zero_plus _).symm
  | cons due rest ih => rw [List.cons_append, List.foldr_cons, List.foldr_cons, ih,
      BatchYield.plus_assoc]

theorem dues_cons (sweeper : Sweeper) (sweepers : List Sweeper) (load : Load) (hands : List Load) :
    dues (sweeper :: sweepers) (load :: hands) = (sweeper.due load).plus (dues sweepers hands) := rfl

def Load.Regular (load : Load) (heap : Heap) : Prop :=
  ∀ page left, load.left = page :: left → page.sweeps + 1 < Word.halfLimit →
    load.sweepNext heap =
      (.ok (), ⟨left, gained load.batch heap.totals page⟩,
        { heap with totals := heap.totals.record page.yielded })

theorem Move.due {stop : Bool} {sweeper next : Sweeper} {load taken : Load} {site later : Site}
    {chore : Chore} (move : Move stop sweeper load site chore next taken later)
    (calm : chore.fault? = none) (young : ∀ page ∈ chore.sweeps, page.sweeps + 1 < Word.halfLimit)
    (shake : Handshake stop sweeper load) (regular : load.Regular site.heap) :
    next.due taken = sweeper.due load := by
  cases move with
  | wake taken =>
      obtain ⟨idle, _, rfl⟩ := Sweeper.takePermit?_some taken
      simp only [Sweeper.due, idle]
  | heed phase =>
      simp only [Sweeper.heed, Sweeper.due, phase]
      cases stop <;> rfl
  | take phase =>
      have outcome := shake.unreported (by rw [phase]; rfl) (by rw [phase]; simp)
      simp only [Sweeper.takeBatch, Sweeper.due, phase, outcome, Option.getD_none,
        BatchYield.plus_zero]
      exact BatchYield.zero_plus _
  | sweep phase first =>
      rw [Sweeper.endure_calm fun fault failed => by simp [Chore.fault?, failed] at calm,
        regular _ _ first (young _ (by simp [Chore.sweeps]))]
      simp only [Sweeper.due, phase, first, harvest_cons, Load.gained, BatchYield.plus_assoc]
  | publish kind phase done some =>
      rw [Sweeper.endure_calm fun fault failed => by simp [Chore.fault?, failed] at calm]
      simp only [Sweeper.due, phase]
      rfl
  | conclude phase done =>
      have left : load.left = [] := (List.append_eq_nil_iff.mp done).1
      simp only [Sweeper.concludeBatch, Sweeper.due, phase, left]
      exact (BatchYield.plus_zero _).symm
  | leave phase =>
      have empty := shake.taken (by rw [phase]; rfl)
      simp only [Sweeper.leaveOutcome, Sweeper.due, phase, empty]
      exact BatchYield.zero_plus _
  | signal phase => simp only [Sweeper.signalEnd, Sweeper.due, phase]
  | acknowledge phase => simp only [Sweeper.acknowledge, Sweeper.due, phase]

end Reclaim
