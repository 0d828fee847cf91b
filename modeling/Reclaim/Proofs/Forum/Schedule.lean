import Reclaim.Proofs.Forum.Pumped

/-! Pumps that nobody interrupts. What the platform does in one go for a foreground post and for a pump is one
run of the forum. -/

namespace Reclaim

namespace Pump

def answer? (pump : Pump) : Option (Option TaskResult) :=
  match pump.hand with
  | .free => some (pump.task.map fun task => task.result true)
  | .died => some (pump.task.map fun task => task.result false)
  | _ => none

end Pump

namespace Forum

variable {first forum : Forum} {acts : List (Dispatch Task)} {bureau : Bureau} {pumps : List Pump}

theorem Run.postForeground (run : Run first acts forum) (context : ContextId) (task : Task) :
    ∃ last, Run first (acts ++ [.post context task]) last ∧
      last.bureau.platform = forum.bureau.platform.postForeground context task :=
  ⟨_, run.snoc (.post context task), rfl⟩

theorem Run.works {context : ContextId} {task : Task} (due : List Duty)
    (run : Run first acts ⟨bureau, pumps ++ [⟨context, some task, .busy task due⟩]⟩) :
    ∃ more, Run first more ⟨bureau.withDesk (due.foldl (Desk.perform · .main ·)
      bureau.platform.desk), pumps ++ [⟨context, some task, .busy task []⟩]⟩ := by
  induction due generalizing acts bureau with
  | nil => exact ⟨acts, run⟩
  | cons duty rest ih =>
      have worked := run.snoc (.work pumps.length List.getElem?_concat_length .perform)
      rw [set_concat_length] at worked
      exact ih worked

/-- Whoever runs a task sees to the pool if the task has posted to it. -/
theorem Run.seen (run : Run first acts ⟨bureau, pumps⟩) (posts : Bool) : ∃ more last,
    Run first more ⟨last, pumps⟩ ∧
      last.platform = if posts then bureau.platform else bureau.platform.ensurePool := by
  cases posts with
  | true => exact ⟨acts, bureau, run, rfl⟩
  | false => exact ⟨_, bureau.ensure, run.snoc (.bureau .ensure), rfl⟩

theorem Run.pump (run : Run first acts forum) (context : ContextId) : ∃ more last pump,
    Run first more last ∧ last.bureau.platform = (forum.bureau.platform.pump context).2 ∧
      last.pumps = forum.pumps ++ [pump] ∧
      pump.answer? = some (forum.bureau.platform.pump context).1 := by
  obtain ⟨bureau, pumps⟩ := forum
  cases popped : bureau.queues.pop context with
  | none =>
      have nothing : bureau.platform.pump context = (none, bureau.platform) := by
        unfold Platform.pump
        rw [show bureau.platform.desk.foreground.pop context = none from popped]
      rw [nothing]
      exact ⟨_, _, _, run.snoc (.miss context popped), rfl, rfl, rfl⟩
  | some found =>
      obtain ⟨task, left⟩ := found
      have ran : bureau.platform.pump context = (some (task.result (!task.fails)),
          if task.posts.isEmpty then { bureau.platform with
            desk := (Desk.run { bureau.platform.desk with foreground := left } .main task).2 }
          else { bureau.platform with
            desk := (Desk.run { bureau.platform.desk with foreground := left } .main
              task).2 }.ensurePool) := by
        unfold Platform.pump
        rw [show bureau.platform.desk.foreground.pop context = some (task, left) from popped]
        rfl
      have taken := run.snoc (.hit context popped)
      obtain ⟨_, worked⟩ := Run.works (task.duties bureau.platform.desk.host) taken
      have ended := worked.snoc (step_end List.getElem?_concat_length)
      rw [set_concat_length] at ended
      obtain ⟨more, last, seen, platform⟩ := Run.seen ended task.posts.isEmpty
      refine ⟨more, _, _, seen, ?_, rfl, ?_⟩
      · rw [ran, platform, Desk.run_eq]
        rfl
      · rw [ran]
        cases task.fails with
        | false => rfl
        | true => rfl

end Forum

end Reclaim
