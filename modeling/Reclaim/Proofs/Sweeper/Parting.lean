import Reclaim.Proofs.Sweeper.Effect

/-! A sweeper that is told to stop. It sweeps the batch for which it is past its look at the flag and
nothing else, and it is out of its loop after so many chores. What it has been dealt is swept as a
whole or comes back as a whole. -/

namespace Reclaim

namespace Sweeper

def passed (sweeper : Sweeper) (load : Load) : List Page :=
  match sweeper.phase with
  | .cleared => sweeper.assignment.pages
  | .sweeping _ => load.left
  | _ => []

def parting (sweeper : Sweeper) (load : Load) : Nat :=
  match sweeper.phase with
  | .idle => 3
  | .woken => 2
  | .cleared => 7 + 2 * sweeper.assignment.pages.length
  | .sweeping _ => 6 + (load.left.length + load.pages.length)
  | .swept _ => 5
  | .reported => 4
  | .leaving => 1
  | .exited | .died => 0

structure Gone (sweeper : Sweeper) : Prop where
  phase : sweeper.phase = .exited
  slot : sweeper.assignment.pages = []
  outcome : sweeper.outcome = none
  flight : sweeper.inFlight = false
  joinable : sweeper.joinable = false

structure Leaving (index : Nat) (nudged : Bool) (place : Nat) (sweeper : Sweeper) : Prop where
  gone : place < index → sweeper.Gone
  posted : index ≤ place → sweeper.phase = .exited → 0 < sweeper.stopped.permits
  permit : place = index → nudged = true →
    sweeper.phase = .idle ∨ sweeper.phase.busy = true → 0 < sweeper.begun.permits

end Sweeper

structure Share (part done back : List Page) (sweeper : Sweeper) (load : Load) : Prop where
  parts : part = done ++ (load.left ++ (sweeper.assignment.pages ++ back))
  whole : sweeper.assignment.pages ++ back ≠ [] → done ++ load.left = []
  gone : back ≠ [] → sweeper.phase = .exited

namespace Move

variable {stop : Bool} {sweeper next : Sweeper} {load taken : Load} {site later : Site}
  {chore : Chore}

theorem inside (move : Move stop sweeper load site chore next taken later) :
    sweeper.phase ≠ .exited := by
  intro exited
  cases move with
  | wake taken =>
      rw [(Sweeper.takePermit?_some taken).1] at exited
      cases exited
  | heed phase => exact nomatch phase.symm.trans exited
  | take phase => exact nomatch phase.symm.trans exited
  | sweep phase first => exact nomatch phase.symm.trans exited
  | publish kind phase done some => exact nomatch phase.symm.trans exited
  | conclude phase done => exact nomatch phase.symm.trans exited
  | leave phase => exact nomatch phase.symm.trans exited
  | signal phase => exact nomatch phase.symm.trans exited
  | acknowledge phase => exact nomatch phase.symm.trans exited

theorem parting (move : Move true sweeper load site chore next taken later)
    (calm : chore.fault? = none) (young : ∀ page ∈ chore.sweeps, page.sweeps + 1 < Word.halfLimit)
    (regular : load.Regular site.heap) :
    chore.sweeps ++ next.passed taken = sweeper.passed load ∧
      next.parting taken < sweeper.parting load := by
  cases move with
  | wake taken =>
      obtain ⟨idle, _, rfl⟩ := Sweeper.takePermit?_some taken
      simp [Sweeper.passed, Sweeper.parting, Chore.sweeps, idle]
  | heed phase => simp [Sweeper.heed, Sweeper.passed, Sweeper.parting, Chore.sweeps, phase]
  | take phase =>
      simp only [Sweeper.takeBatch, Sweeper.passed, Sweeper.parting, Chore.sweeps, phase,
        Load.ofPages_pages]
      refine ⟨rfl, ?_⟩
      simp only [Load.ofPages]
      omega
  | @sweep _ _ _ page left phase first =>
      rw [Sweeper.endure_calm fun fault failed => by simp [Chore.fault?, failed] at calm,
        regular _ _ first (young _ (by simp [Chore.sweeps]))]
      have grown := (Load.gained_pages_perm load.batch site.heap.totals page).length_eq
      simp only [List.length_append, List.length_cons] at grown
      simp only [Sweeper.passed, Sweeper.parting, Chore.sweeps, phase, Load.pages, first,
        List.length_append, List.length_cons]
      exact ⟨rfl, by omega⟩
  | publish kind phase done some =>
      rw [Sweeper.endure_calm fun fault failed => by simp [Chore.fault?, failed] at calm]
      have fewer := (load.without_pages_perm kind).length_eq
      have positive := List.length_pos_of_ne_nil some
      rw [List.length_append] at fewer
      have rest : (load.publish site.heap kind).2.1 = load.without kind := rfl
      have same : (load.without kind).left = load.left := rfl
      simp only [Sweeper.passed, Sweeper.parting, Chore.sweeps, phase, rest, same]
      exact ⟨rfl, by omega⟩
  | conclude phase done =>
      have left : load.left = [] := (List.append_eq_nil_iff.mp done).1
      simp only [Sweeper.concludeBatch, Sweeper.passed, Sweeper.parting, Chore.sweeps, phase, left]
      exact ⟨rfl, by omega⟩
  | leave phase => simp [Sweeper.leaveOutcome, Sweeper.passed, Sweeper.parting, Chore.sweeps, phase]
  | signal phase => simp [Sweeper.signalEnd, Sweeper.passed, Sweeper.parting, Chore.sweeps, phase]
  | acknowledge phase =>
      simp [Sweeper.acknowledge, Sweeper.passed, Sweeper.parting, Chore.sweeps, phase]

theorem leaving {index place : Nat} {nudged : Bool}
    (move : Move true sweeper load site chore next taken later) (calm : chore.fault? = none)
    (leaving : sweeper.Leaving index nudged place) : next.Leaving index nudged place := by
  have some : index ≤ place := by
    by_contra joined
    exact move.inside (leaving.gone (by omega)).phase
  -- Between its look at the flag and its signal a sweeper keeps the permit that waits for it.
  have busy {other : Sweeper} (old : sweeper.phase.busy = true) (inside : other.phase ≠ .exited)
      (same : other.begun = sweeper.begun) : other.Leaving index nudged place := by
    refine ⟨fun joined => by omega, fun _ exited => absurd exited inside, fun here again _ => ?_⟩
    rw [same]
    exact leaving.permit here again (Or.inr old)
  have out {other : Sweeper} (inside : other.phase ≠ .exited) (away : other.phase ≠ .idle)
      (idle : other.phase.busy = false) : other.Leaving index nudged place := by
    refine ⟨fun joined => by omega, fun _ exited => absurd exited inside, fun _ _ waits => ?_⟩
    rw [idle] at waits
    exact absurd waits (by simpa using away)
  cases move with
  | wake taken =>
      obtain ⟨_, _, rfl⟩ := Sweeper.takePermit?_some taken
      exact out (by simp) (by simp) rfl
  | heed phase =>
      simp only [Sweeper.heed, phase, if_true]
      exact out (by simp) (by simp) rfl
  | take phase =>
      simp only [Sweeper.takeBatch, phase]
      exact busy (by rw [phase]; rfl) (by simp) rfl
  | sweep phase first =>
      rw [Sweeper.endure_calm fun fault failed => by simp [Chore.fault?, failed] at calm]
      exact leaving
  | publish kind phase empty held =>
      rw [Sweeper.endure_calm fun fault failed => by simp [Chore.fault?, failed] at calm]
      exact leaving
  | conclude phase empty =>
      simp only [Sweeper.concludeBatch, phase]
      exact busy (by rw [phase]; rfl) (by simp) rfl
  | leave phase =>
      simp only [Sweeper.leaveOutcome, phase]
      exact busy (by rw [phase]; rfl) (by simp) rfl
  | signal phase =>
      simp only [Sweeper.signalEnd, phase]
      exact busy (by rw [phase]; rfl) (by simp) rfl
  | acknowledge phase =>
      simp only [Sweeper.acknowledge, phase]
      refine ⟨fun joined => by omega, fun _ _ => Nat.succ_pos _, fun _ _ waits => ?_⟩
      rcases waits with idle | busy
      · cases idle
      · cases busy

theorem counters (move : Move stop sweeper load site chore next taken later) :
    later.counters = site.counters := by
  cases move <;> rfl

theorem share {part done back : List Page}
    (move : Move stop sweeper load site chore next taken later) (calm : chore.fault? = none)
    (young : ∀ page ∈ chore.sweeps, page.sweeps + 1 < Word.halfLimit)
    (shake : Handshake stop sweeper load) (regular : load.Regular site.heap)
    (share : Share part done back sweeper load) :
    Share part (done ++ chore.sweeps) back next taken := by
  obtain ⟨parts, whole, gone⟩ := share
  have none : back = [] := by
    by_contra some
    exact move.inside (gone some)
  subst none
  have still {other : Sweeper} (same : other.assignment = sweeper.assignment) :
      Share part (done ++ []) [] other load := by
    rw [List.append_nil]
    exact ⟨by rw [same]; exact parts, by rw [same]; exact whole, fun some => absurd rfl some⟩
  cases move with
  | wake taken =>
      obtain ⟨_, _, rfl⟩ := Sweeper.takePermit?_some taken
      exact still rfl
  | heed phase => exact still (by simp only [Sweeper.heed, phase])
  | take phase =>
      have left : load.left = [] := (List.append_eq_nil_iff.mp (shake.hand (by rw [phase]; rfl))).1
      rw [left] at parts
      simp only [Sweeper.takeBatch, phase, Chore.sweeps, List.append_nil]
      refine ⟨?_, fun some => absurd rfl some, fun some => absurd rfl some⟩
      simpa [Load.ofPages, Assignment.none] using parts
  | @sweep _ _ _ page left phase first =>
      rw [Sweeper.endure_calm fun fault failed => by simp [Chore.fault?, failed] at calm,
        regular _ _ first (young _ (by simp [Chore.sweeps]))]
      rw [first] at parts whole
      refine ⟨?_, fun some => absurd (whole some) (by simp), fun some => absurd rfl some⟩
      rw [parts, Chore.sweeps, List.append_assoc]
      rfl
  | publish kind phase empty some =>
      rw [Sweeper.endure_calm fun fault failed => by simp [Chore.fault?, failed] at calm]
      change Share part (done ++ []) [] sweeper (load.without kind)
      rw [List.append_nil]
      exact ⟨parts, whole, fun some => absurd rfl some⟩
  | conclude phase done => exact still (by simp only [Sweeper.concludeBatch, phase])
  | leave phase => exact still (by simp only [Sweeper.leaveOutcome, phase])
  | signal phase => exact still (by simp only [Sweeper.signalEnd, phase])
  | acknowledge phase => exact still (by simp only [Sweeper.acknowledge, phase])

end Move

end Reclaim
