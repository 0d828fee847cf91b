import Mathlib.Data.List.Induction

/-! Runs of a system that goes on step by step, with what shows of the steps listed in order. Runs are put
together and cut at any point, and what every step keeps is kept by a run. Where a step shows several
things or none, the list of a run is put together from those of its steps. -/

namespace Reclaim

universe u v

inductive Runs {State : Type u} {Event : Type v} (Step : State → Event → State → Prop)
    (first : State) : List Event → State → Prop
  | nil : Runs Step first [] first
  | snoc {events : List Event} {event : Event} {state next : State}
      (earlier : Runs Step first events state) (step : Step state event next) :
      Runs Step first (events ++ [event]) next

namespace Runs

variable {State : Type u} {Event : Type v} {Step : State → Event → State → Prop}
  {first middle final : State} {events more : List Event} {event : Event}

theorem nil_eq (run : Runs Step first [] final) : final = first := by
  generalize whole : [] = events at run
  cases run with
  | nil => rfl
  | snoc => simp at whole

theorem last (run : Runs Step first (events ++ [event]) final) :
    ∃ middle, Runs Step first events middle ∧ Step middle event final := by
  generalize whole : events ++ [event] = all at run
  cases run with
  | nil => simp at whole
  | snoc earlier step =>
      obtain ⟨rfl, same⟩ := List.append_inj' whole rfl
      obtain rfl := List.singleton_inj.mp same
      exact ⟨_, earlier, step⟩

theorem single (run : Runs Step first [event] final) : Step first event final := by
  have whole : Runs Step first ([] ++ [event]) final := run
  obtain ⟨middle, earlier, step⟩ := whole.last
  rwa [earlier.nil_eq] at step

theorem append (run : Runs Step first events middle) (later : Runs Step middle more final) :
    Runs Step first (events ++ more) final := by
  induction later with
  | nil => rwa [List.append_nil]
  | snoc _ step ih =>
      rw [← List.append_assoc]
      exact ih.snoc step

theorem split (run : Runs Step first (events ++ more) final) :
    ∃ middle, Runs Step first events middle ∧ Runs Step middle more final := by
  induction more using List.reverseRecOn generalizing final with
  | nil =>
      rw [List.append_nil] at run
      exact ⟨final, run, .nil⟩
  | append_singleton more event ih =>
      rw [← List.append_assoc] at run
      obtain ⟨late, earlier, step⟩ := run.last
      obtain ⟨middle, before, after⟩ := ih earlier
      exact ⟨middle, before, after.snoc step⟩

theorem at_event (run : Runs Step first (events ++ event :: more) final) :
    ∃ before after, Runs Step first events before ∧ Step before event after ∧
      Runs Step after more final := by
  rw [List.append_cons] at run
  obtain ⟨after, earlier, later⟩ := run.split
  obtain ⟨before, earliest, step⟩ := earlier.last
  exact ⟨before, after, earliest, step, later⟩

/-- What holds at first and is kept by every step holds at any point. -/
theorem keeps (run : Runs Step first events final) (Kept : State → Prop) (start : Kept first)
    (step : ∀ {state event next}, Step state event next → Kept state → Kept next) : Kept final := by
  induction run with
  | nil => exact start
  | snoc _ latest ih => exact step latest ih

/-- What is known of the events may be used by the steps, and each step may say something of its event. -/
theorem keeps_while {Good Fine : Event → Prop} (run : Runs Step first events final)
    (Kept : State → Prop) (start : Kept first) (good : ∀ event ∈ events, Good event)
    (step : ∀ {state event next}, Step state event next → Good event → Kept state →
      Fine event ∧ Kept next) : (∀ event ∈ events, Fine event) ∧ Kept final := by
  induction run with
  | nil => exact ⟨nofun, start⟩
  | snoc _ latest ih =>
      rw [List.forall_mem_append, List.forall_mem_singleton] at good
      obtain ⟨before, kept⟩ := ih good.1
      obtain ⟨here, after⟩ := step latest good.2 kept
      exact ⟨List.forall_mem_append.mpr ⟨before, List.forall_mem_singleton.mpr here⟩, after⟩

end Runs

/-- Runs of a system whose steps show any number of events each. -/
def Emits {State : Type u} {Event : Type v} (Step : State → List Event → State → Prop)
    (first : State) (events : List Event) (final : State) : Prop :=
  ∃ batches, Runs Step first batches final ∧ batches.flatten = events

namespace Emits

variable {State : Type u} {Event : Type v} {Step : State → List Event → State → Prop}
  {events made : List Event} {first state next final : State}

theorem nil : Emits Step first [] first := ⟨[], .nil, rfl⟩

theorem snoc (earlier : Emits Step first events state) (step : Step state made next) :
    Emits Step first (events ++ made) next := by
  obtain ⟨batches, run, rfl⟩ := earlier
  exact ⟨batches ++ [made], run.snoc step, List.flatten_concat⟩

@[elab_as_elim]
theorem induction {motive : (events : List Event) → (final : State) → Emits Step first events final → Prop}
    (nil : motive [] first .nil)
    (snoc : ∀ {events made state next} (earlier : Emits Step first events state)
      (step : Step state made next), motive events state earlier →
      motive (events ++ made) next (earlier.snoc step))
    (run : Emits Step first events final) : motive events final run := by
  obtain ⟨batches, run, rfl⟩ := run
  induction run with
  | nil => exact nil
  | @snoc batches made state next earlier step ih =>
      have whole : motive (batches.flatten ++ made) next _ := snoc ⟨batches, earlier, rfl⟩ step ih
      have same : (batches ++ [made]).flatten = batches.flatten ++ made := List.flatten_concat
      generalize_proofs run
      revert run
      rw [same]
      exact fun _ => whole

theorem keeps (run : Emits Step first events final) (Kept : State → Prop) (start : Kept first)
    (step : ∀ {state made next}, Step state made next → Kept state → Kept next) : Kept final := by
  obtain ⟨batches, run, _⟩ := run
  exact run.keeps Kept start step

end Emits

end Reclaim
