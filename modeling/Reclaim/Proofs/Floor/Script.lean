import Reclaim.Proofs.Floor.Account

/-! What one thread has done. Whatever the others do in between, a thread does the tasks that it takes one
after another, each from the first duty to the last. -/

namespace Reclaim

def Task.script (host : Host) (task : Task) : List Labor :=
  .take task :: (task.duties host).map .perform ++
    [if task.fails then .fail task else .finish task]

namespace Hand

inductive Told (host : Host) : List Labor → Hand → Prop
  | free (tasks : List Task) : Told host (tasks.flatMap (Task.script host)) .free
  | busy (tasks : List Task) (done : List Duty) {task : Task} {left : List Duty}
      (split : done ++ left = task.duties host) :
      Told host (tasks.flatMap (Task.script host) ++ .take task :: done.map .perform)
        (.busy task left)
  | finished (tasks : List Task) {last : Labor} (leaves : last = .leave ∨ last = .quit) :
      Told host (tasks.flatMap (Task.script host) ++ [last]) .finished
  | died (tasks : List Task) : Told host (tasks.flatMap (Task.script host)) .died

theorem script_snoc (host : Host) (tasks : List Task) {task : Task} {last : Labor}
    (ends : last = if task.fails then .fail task else .finish task) :
    tasks.flatMap (Task.script host) ++ .take task :: (task.duties host).map .perform ++ [last] =
      (tasks ++ [task]).flatMap (Task.script host) := by
  simp [Task.script, ends]

theorem Told.step {host : Host} {labors : List Labor} {hand changed : Hand} {labor : Labor}
    {runner : Runner} {desk next : Desk} {deal : Option (Deal Task)} (told : hand.Told host labors)
    (same : desk.host = host) (step : hand.Step runner desk labor deal next changed) :
    changed.Told host (labors ++ [labor]) := by
  subst same
  cases step with
  | take handed =>
      cases told with
      | free tasks => exact .busy tasks [] rfl
  | @perform task duty left =>
      cases told with
      | busy tasks done split =>
          rw [List.append_assoc, List.cons_append, ← List.map_singleton, ← List.map_append]
          exact .busy tasks (done ++ [duty]) (by rw [List.append_assoc, List.singleton_append, split])
  | @finish task succeeds =>
      cases told with
      | busy tasks done split =>
          rw [List.append_nil] at split
          rw [split, script_snoc desk.host tasks (by simp [succeeds])]
          exact .free (tasks ++ [task])
  | @fail task fails =>
      cases told with
      | busy tasks done split =>
          rw [List.append_nil] at split
          rw [split, script_snoc desk.host tasks (by simp [fails])]
          exact .died (tasks ++ [task])
  | leave =>
      cases told with
      | free tasks => exact .finished tasks (.inl rfl)
  | quit =>
      cases told with
      | free tasks => exact .finished tasks (.inr rfl)

end Hand

namespace Floor

variable {desk : Desk} {floor : Floor} {beats : List Beat}

/-! One group and one thread among all. -/

theorem flatMap_zipIdx {α β : Type} (items : List α) (f : α → List β) (start index : Nat) :
    ((items.zipIdx start).flatMap fun entry => if entry.2 = start + index then f entry.1 else []) =
      items[index]?.toList.flatMap f := by
  induction items generalizing start index with
  | nil => rfl
  | cons item rest ih =>
      rw [List.zipIdx_cons, List.flatMap_cons]
      cases index with
      | zero =>
          have later : ((rest.zipIdx (start + 1)).flatMap fun entry =>
              if entry.2 = start then f entry.1 else []) = [] := by
            refine List.flatMap_eq_nil_iff.mpr fun entry member => if_neg ?_
            have := List.le_snd_of_mem_zipIdx member
            omega
          simp only [Nat.add_zero, later, if_true]
          rfl
      | succ index =>
          have shift : start + (index + 1) = start + 1 + index := by omega
          rw [shift, ih, if_neg (by omega)]
          rfl

theorem handsOf_squad {number : Nat} {squad : Squad} (here : floor.squads[number]? = some squad) :
    floor.handsOf (.ofSquad number) = squad.hands := by
  have inside (squad : Squad) (entry : Nat) :
      squad.handsOf (Selection.ofSquad number entry squad.station) =
        if entry = 0 + number then squad.hands else [] := by
    by_cases same : entry = number
    · simp only [Squad.handsOf, Selection.ofSquad, same, beq_self_eq_true, if_true, Nat.zero_add,
        ← List.map_eq_flatMap, List.zipIdx_map_fst]
    · simp [Squad.handsOf, Selection.ofSquad, same]
  simp only [handsOf, inside]
  rw [flatMap_zipIdx floor.squads Squad.hands, here]
  exact List.append_nil _

theorem handsOf_hand {number place : Nat} {squad : Squad} {hand : Hand}
    (here : floor.squads[number]? = some squad) (there : squad.hands[place]? = some hand) :
    floor.handsOf (.ofHand number place) = [hand] := by
  have inside (squad : Squad) (entry : Nat) :
      squad.handsOf (Selection.ofHand number place entry squad.station) =
        if entry = 0 + number then squad.hands[place]?.toList else [] := by
    by_cases same : entry = number
    · have alone := flatMap_zipIdx squad.hands (fun hand => [hand]) 0 place
      simp only [Nat.zero_add, List.flatMap_singleton'] at alone
      simp [Squad.handsOf, Selection.ofHand, same, alone]
    · simp [Squad.handsOf, Selection.ofHand, same]
  simp only [handsOf, inside]
  rw [flatMap_zipIdx floor.squads fun squad => squad.hands[place]?.toList, here]
  simp [there]

def Alone (host : Host) (labors : List Labor) : List Hand → Prop
  | [] => labors = []
  | [hand] => hand.Told host labors
  | _ => True

theorem Run.told (run : Run (opened desk) beats floor) {number place : Nat} {squad : Squad} {hand : Hand}
    (here : floor.squads[number]? = some squad) (there : squad.hands[place]? = some hand) :
    hand.Told desk.host (laborsOf (.ofHand number place) beats) := by
  have alone : Alone desk.host (laborsOf (.ofHand number place) beats)
      (floor.handsOf (.ofHand number place)) := by
    -- Two threads or more are never selected, so nothing is said of them on the way.
    refine run.of_change (Alone desk.host) rfl ?_ ?_
    · intro labors hands hired alone
      match hands, hired, alone with
      | [], 0, alone => exact alone
      | [], 1, alone =>
          cases alone
          exact .free []
      | [hand], 0, alone => exact alone
      | [], _ + 2, _ | [_], _ + 1, _ | _ :: _ :: _, _, _ => exact trivial
    · intro now next deal labors runner early late hand changed labor same alone step
      match early, late, alone with
      | [], [], told => exact told.step same step
      | [], _ :: _, _ | [_], _, _ | _ :: _ :: _, _, _ => exact trivial
  rwa [handsOf_hand here there] at alone

end Floor

end Reclaim
