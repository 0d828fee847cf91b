import Reclaim.Proofs.Scene.Basic

/-! Sessions. One client calls what a coordinator and its sweepers offer, in any order: beside the acts
of a scene it polls one sweeper or all of them, it waits for a sweeper without the coordinator, and it
stops the sweepers once more. Between any two calls the sweepers go on with their chores. -/

namespace Reclaim

def Act.reports (before after : Coordinator) : Act → List RoundReport
  | .start _ _ =>
      before.finalize.1.toList ++ if before.numThreads = 0 then after.round.last.toList else []
  | .ensure (.ok report) => report.toList
  | .conclude => before.finalize.1.toList
  | _ => []

inductive Call where
  | act (act : Act) (reports : List RoundReport)
  | take (index : Nat) (outcome : Option BatchYield)
  | poll (index : Nat) (ended : Bool)
  | pollAll (ended : Bool)
  | stopAgain

namespace Call

def fault? : Call → Option Fault
  | .act done _ => done.fault?
  | _ => none

def sweeps : Call → List Page
  | .act done _ => done.sweeps
  | _ => []

def Young (call : Call) : Prop := ∀ page ∈ call.sweeps, page.sweeps + 1 < Word.halfLimit

instance (call : Call) : Decidable call.Young :=
  inferInstanceAs (Decidable (∀ page ∈ call.sweeps, page.sweeps + 1 < Word.halfLimit))

def reports : Call → List RoundReport
  | .act _ reports => reports
  | _ => []

def taken : Call → List BatchYield
  | .take _ outcome => outcome.toList
  | _ => []

def isStart : Call → Bool
  | .act done _ => done.isStart
  | _ => false

def closes : Call → Bool
  | .act (.start _ _) _ | .act (.ensure _) _ | .act .conclude _ => true
  | _ => false

end Call

namespace Session

def opened (site : Site) (threads : Nat) : Scene :=
  { coordinator := .fresh site threads
    hands := List.replicate threads (.ofPages [])
    client := .free }

/-- One call, or a chore of a sweeper. While the client stops the sweepers it calls nothing else. -/
inductive Step : Scene → Call → Scene → Prop
  | act {scene next : Scene} {act : Act} (step : scene.Step act next) :
      Step scene (.act act (act.reports scene.coordinator next.coordinator)) next
  | take {coordinator next : Coordinator} {hands : List Load} {index : Nat}
      {outcome : Option BatchYield}
      (taken : coordinator.takeOutcome? index = .ok (some (outcome, next))) :
      Step ⟨coordinator, hands, .free⟩ (.take index outcome) ⟨next, hands, .free⟩
  | poll {coordinator : Coordinator} {hands : List Load} {before after : List Sweeper}
      {sweeper : Sweeper} (split : coordinator.sweepers = before ++ sweeper :: after) :
      Step ⟨coordinator, hands, .free⟩ (.poll before.length sweeper.poll.1)
        ⟨{ coordinator with sweepers := before ++ sweeper.poll.2 :: after }, hands, .free⟩
  | pollAll {coordinator : Coordinator} {hands : List Load} :
      Step ⟨coordinator, hands, .free⟩ (.pollAll coordinator.poll.1)
        ⟨coordinator.poll.2, hands, .free⟩
  | stopAgain {coordinator : Coordinator} {hands : List Load}
      (stopped : coordinator.stopped = true) :
      Step ⟨coordinator, hands, .free⟩ .stopAgain ⟨coordinator.stop.2, hands, .free⟩

abbrev Run (first : Scene) (calls : List Call) (last : Scene) : Prop :=
  Runs Step first calls last

end Session

end Reclaim
