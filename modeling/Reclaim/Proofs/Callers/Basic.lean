import Reclaim.Proofs.Scene.Refinement

/-! Callers. Within one round any number of threads may wait for single sweepers, or for all of them to
report the round. A caller takes the outcome of a sweeper in one step and merges it into the round in
a later one; in between the outcome is with the caller, and others act. -/

namespace Reclaim

structure Caller where
  left : List Nat
  carried : Option (Nat × BatchYield)
  reports : Bool
  deriving DecidableEq, Repr

structure Lobby where
  coordinator : Coordinator
  hands : List Load
  callers : List Caller

inductive Errand where
  | sweeper (index : Nat) (chore : Chore)
  | wait (index : Nat)
  | ensure
  | take (index : Nat) (outcome : Option BatchYield)
  | merge (index : Nat) (answer : Except Fault Unit)
  | report (answer : Option RoundReport)
  | leave

namespace Errand

def fault? : Errand → Option Fault
  | .sweeper _ chore => chore.fault?
  | .merge _ (.error fault) => some fault
  | _ => none

def report? : Errand → Option RoundReport
  | .report answer => answer
  | _ => none

end Errand

namespace Lobby

/-- One step of a sweeper or of a caller. Nobody starts a round. -/
inductive Step : Lobby → Errand → Lobby → Prop
  | sweeper {coordinator : Coordinator} {before after : List Sweeper} {sweeper next : Sweeper}
      {early late : List Load} {load taken : Load} {site : Site} {callers : List Caller}
      {chore : Chore} (split : coordinator.sweepers = before ++ sweeper :: after)
      (same : before.length = early.length)
      (move : Move coordinator.stopped sweeper load coordinator.site chore next taken site) :
      Step ⟨coordinator, early ++ load :: late, callers⟩ (.sweeper before.length chore)
        ⟨{ coordinator with site, sweepers := before ++ next :: after }, early ++ taken :: late,
          callers⟩
  | wait {coordinator : Coordinator} {hands : List Load} {callers : List Caller} {index : Nat}
      (known : index < coordinator.numThreads) :
      Step ⟨coordinator, hands, callers⟩ (.wait index)
        ⟨coordinator, hands, callers ++ [⟨[index], none, false⟩]⟩
  | ensure {coordinator : Coordinator} {hands : List Load} {callers : List Caller} :
      Step ⟨coordinator, hands, callers⟩ .ensure
        ⟨coordinator, hands, callers ++ [⟨List.range coordinator.numThreads, none, true⟩]⟩
  | take {coordinator next : Coordinator} {hands : List Load} {first last : List Caller}
      {index : Nat} {left : List Nat} {reports : Bool} {outcome : Option BatchYield}
      (taken : coordinator.takeOutcome? index = .ok (some (outcome, next))) :
      Step ⟨coordinator, hands, first ++ ⟨index :: left, none, reports⟩ :: last⟩
        (.take index outcome)
        ⟨next, hands, first ++ ⟨left, outcome.map (index, ·), reports⟩ :: last⟩
  | merge {coordinator : Coordinator} {hands : List Load} {first last : List Caller} {index : Nat}
      {left : List Nat} {reports : Bool} {outcome : BatchYield} :
      Step ⟨coordinator, hands, first ++ ⟨left, some (index, outcome), reports⟩ :: last⟩
        (.merge index (coordinator.merge index (some outcome)).1)
        ⟨(coordinator.merge index (some outcome)).2, hands,
          first ++ ⟨left, none, reports⟩ :: last⟩
  | report {coordinator : Coordinator} {hands : List Load} {first last : List Caller} :
      Step ⟨coordinator, hands, first ++ ⟨[], none, true⟩ :: last⟩
        (.report coordinator.finalize.1) ⟨coordinator.finalize.2, hands, first ++ last⟩
  | leave {coordinator : Coordinator} {hands : List Load} {first last : List Caller} :
      Step ⟨coordinator, hands, first ++ ⟨[], none, false⟩ :: last⟩ .leave
        ⟨coordinator, hands, first ++ last⟩

abbrev Run (first : Lobby) (errands : List Errand) (last : Lobby) : Prop :=
  Runs Step first errands last

def opened (coordinator : Coordinator) : Lobby :=
  ⟨coordinator.start.2, List.replicate coordinator.numThreads (.ofPages []), []⟩

end Lobby

/-! What callers carry. -/

namespace Caller

def carries (caller : Caller) : BatchYield := caller.carried.elim .zero Prod.snd

def carriesFor (index : Nat) (caller : Caller) : Nat :=
  caller.carried.elim 0 fun (owner, outcome) => if owner = index then outcome.pages else 0

def carrying (callers : List Caller) : BatchYield :=
  (callers.map carries).foldr BatchYield.plus .zero

def carryingFor (index : Nat) (callers : List Caller) : Nat :=
  (callers.map (carriesFor index)).sum

theorem carrying_append (first last : List Caller) :
    carrying (first ++ last) = (carrying first).plus (carrying last) := by
  unfold carrying
  rw [List.map_append]
  induction first.map carries with
  | nil => exact (BatchYield.zero_plus _).symm
  | cons head rest ih =>
      rw [List.cons_append, List.foldr_cons, List.foldr_cons, ih, BatchYield.plus_assoc]

theorem carrying_middle (first last : List Caller) (caller : Caller) :
    carrying (first ++ caller :: last) = caller.carries.plus (carrying (first ++ last)) := by
  have head : carrying (caller :: last) = caller.carries.plus (carrying last) := rfl
  rw [carrying_append, head, carrying_append, ← BatchYield.plus_assoc,
    BatchYield.plus_comm (carrying first), BatchYield.plus_assoc]

theorem carryingFor_middle (index : Nat) (first last : List Caller) (caller : Caller) :
    carryingFor index (first ++ caller :: last) =
      caller.carriesFor index + carryingFor index (first ++ last) := by
  simp only [carryingFor, List.map_append, List.map_cons, List.sum_append, List.sum_cons]
  omega

theorem carries_none {caller : Caller} (empty : caller.carried = none) :
    caller.carries = .zero ∧ ∀ index, caller.carriesFor index = 0 := by
  simp [carries, carriesFor, empty]

theorem carrying_none {callers : List Caller} (empty : ∀ caller ∈ callers, caller.carried = none) :
    carrying callers = .zero ∧ ∀ index, carryingFor index callers = 0 := by
  induction callers with
  | nil => exact ⟨rfl, fun _ => rfl⟩
  | cons caller callers ih =>
      obtain ⟨totals, entries⟩ := ih fun other member => empty other (by simp [member])
      obtain ⟨nothing, none⟩ := carries_none (empty caller (by simp))
      constructor
      · have head := carrying_middle [] callers caller
        rwa [List.nil_append, List.nil_append, totals, nothing] at head
      · intro index
        have head := carryingFor_middle index [] callers caller
        rwa [List.nil_append, List.nil_append, entries, none] at head

theorem carries_taken (left : List Nat) (index : Nat) (outcome : Option BatchYield) (reports : Bool) :
    (Caller.mk left (outcome.map (index, ·)) reports).carries = outcome.getD .zero ∧
      ∀ other, (Caller.mk left (outcome.map (index, ·)) reports).carriesFor other =
        if index = other then (outcome.getD .zero).pages else 0 := by
  cases outcome with
  | none => simp [carries, carriesFor, BatchYield.zero]
  | some outcome => simp [carries, carriesFor]

end Caller

end Reclaim
