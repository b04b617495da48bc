import Mathlib.Data.List.Basic

/-!
# Finite runs of a choice-driven transition system

`TransitionSystem.step` is a function of the state and of one choice (which
thread moves, which call an idle thread makes), so a run is determined by its
choices and can be evaluated. `RunsUnder` is the relation the theorems quantify
over: it records the visible events and admits only steps that satisfy a
condition on the events so far, the state, the choice and the event.
`RunsUnder.invariant` is the one induction every safety proof uses.
-/

namespace MmoServer.Semantics

universe u

/-- An interleaving semantics: every choice has at most one outcome. -/
structure TransitionSystem (State Choice Event : Type u) where
  step : State → Choice → Option (State × Event)

namespace TransitionSystem

variable {State Choice Event : Type u} (system : TransitionSystem State Choice Event)

/-- A condition on one step: the events before it, the state it starts from,
the choice taken and the event it emits. -/
abbrev StepCondition (State Choice Event : Type u) :=
  List Event → State → Choice → Event → Prop

/-- Runs whose every step satisfies `allowed`, with the events they emit. -/
inductive RunsUnder (allowed : StepCondition State Choice Event) (start : State) :
    List Event → State → Prop where
  | refl : RunsUnder allowed start [] start
  | step {events state choice next event}
      (prior : RunsUnder allowed start events state)
      (transition : system.step state choice = some (next, event))
      (permitted : allowed events state choice event) :
      RunsUnder allowed start (events ++ [event]) next

/-- Runs without any condition on their steps. -/
abbrev Runs (start : State) (events : List Event) (finish : State) : Prop :=
  system.RunsUnder (fun _ _ _ _ => True) start events finish

variable {system} {allowed weaker : StepCondition State Choice Event}
  {start finish : State} {events : List Event}

/-- A run under a condition is a run under every condition it implies. -/
theorem RunsUnder.mono (run : system.RunsUnder allowed start events finish)
    (implies : ∀ events state choice event,
      allowed events state choice event → weaker events state choice event) :
    system.RunsUnder weaker start events finish := by
  induction run with
  | refl => exact .refl
  | step _ transition permitted ih =>
      exact .step ih transition (implies _ _ _ _ permitted)

/-- Forget the step condition. -/
theorem RunsUnder.runs (run : system.RunsUnder allowed start events finish) :
    system.Runs start events finish :=
  run.mono fun _ _ _ _ _ => trivial

/-- A run all of whose events satisfy a predicate is a run under it. -/
theorem RunsUnder.restrict (shown : Event → Prop)
    (run : system.RunsUnder allowed start events finish)
    (every : ∀ event ∈ events, shown event) :
    system.RunsUnder (fun events state choice event =>
      allowed events state choice event ∧ shown event) start events finish := by
  induction run with
  | refl => exact .refl
  | @step events state choice next event prior transition permitted ih =>
      have earlier : ∀ event ∈ events, shown event :=
        fun event member => every event (List.mem_append_left _ member)
      exact .step (ih earlier) transition ⟨permitted, every event (by simp)⟩

/-- A run can be cut at every position of its trace. -/
theorem RunsUnder.split {before after : List Event}
    (run : system.RunsUnder allowed start events finish) (cut : events = before ++ after) :
    ∃ middle, system.RunsUnder allowed start before middle ∧
      system.RunsUnder (fun later => allowed (before ++ later)) middle after finish := by
  induction run generalizing after with
  | refl =>
      obtain ⟨rfl, rfl⟩ := List.nil_eq_append_iff.mp cut
      exact ⟨start, .refl, .refl⟩
  | @step events state choice next event prior transition permitted ih =>
      rcases List.eq_nil_or_concat after with rfl | ⟨shorter, last, rfl⟩
      · rw [List.append_nil] at cut
        exact ⟨next, cut ▸ .step prior transition permitted, .refl⟩
      · rw [List.concat_eq_append, ← List.append_assoc] at cut
        obtain ⟨earlier, same⟩ := List.append_inj' cut rfl
        obtain rfl : event = last := by simpa using same
        obtain ⟨middle, first, second⟩ := ih earlier
        rw [List.concat_eq_append]
        exact ⟨middle, first, .step second transition (earlier ▸ permitted)⟩

/-- Two runs, one after the other, the second under the condition for what comes after
the first. -/
theorem RunsUnder.append {middle : State} {later : List Event}
    (first : system.RunsUnder allowed start events middle)
    (second : system.RunsUnder (fun later => allowed (events ++ later)) middle later finish) :
    system.RunsUnder allowed start (events ++ later) finish := by
  induction second with
  | refl =>
      rw [List.append_nil]
      exact first
  | step _ transition permitted ih =>
      rw [← List.append_assoc]
      exact .step ih transition permitted

/-- Two runs, one after the other. -/
theorem RunsUnder.trans {middle : State} {later : List Event}
    (first : system.Runs start events middle) (second : system.Runs middle later finish) :
    system.Runs start (events ++ later) finish := first.append second

/-- The last step of a run. -/
theorem RunsUnder.last {before : List Event} {event : Event}
    (run : system.RunsUnder allowed start (before ++ [event]) finish) :
    ∃ state choice, system.RunsUnder allowed start before state ∧
      system.step state choice = some (finish, event) ∧ allowed before state choice event := by
  generalize whole : before ++ [event] = events at run
  cases run with
  | refl => simp at whole
  | @step events state choice _ emitted prior transition permitted =>
      obtain ⟨rfl, same⟩ := List.append_inj' whole rfl
      obtain rfl : event = emitted := by simpa using same
      exact ⟨state, choice, prior, transition, permitted⟩

/-- The step that emitted a given event of a run, with the run that led to it. -/
theorem RunsUnder.at_event {before after : List Event} {event : Event}
    (run : system.RunsUnder allowed start events finish)
    (split : events = before ++ event :: after) :
    ∃ state choice next, system.RunsUnder allowed start before state ∧
      system.step state choice = some (next, event) ∧ allowed before state choice event ∧
      system.RunsUnder allowed start (before ++ [event]) next := by
  induction run generalizing after with
  | refl => simp at split
  | @step events state choice next emitted prior transition permitted ih =>
      rcases List.eq_nil_or_concat after with rfl | ⟨shorter, last, rfl⟩
      · obtain ⟨rfl, rfl⟩ : events = before ∧ emitted = event := by
          have same := List.append_inj' split rfl
          exact ⟨same.1, by simpa using same.2⟩
        exact ⟨state, choice, next, prior, transition, permitted,
          .step prior transition permitted⟩
      · rw [List.concat_eq_append, ← List.cons_append, ← List.append_assoc] at split
        exact ih (List.append_inj_left' split rfl)

/-- The invariant rule: what holds of the start and is preserved by every
permitted step holds of every state reached, together with its trace. -/
theorem RunsUnder.invariant (holds : List Event → State → Prop)
    (run : system.RunsUnder allowed start events finish) (initial : holds [] start)
    (preserved : ∀ {events state choice next event},
      system.RunsUnder allowed start events state → holds events state →
      system.step state choice = some (next, event) → allowed events state choice event →
      holds (events ++ [event]) next) : holds events finish := by
  induction run with
  | refl => exact initial
  | step prior transition permitted ih => exact preserved prior ih transition permitted

/-- A condition that every run under it leaves no way to break is met by every run. -/
theorem RunsUnder.strengthen (run : system.RunsUnder weaker start events finish)
    (met : ∀ {before state choice next event}, before ++ [event] <+: events →
      system.RunsUnder allowed start before state →
      system.step state choice = some (next, event) → weaker before state choice event →
      allowed before state choice event) : system.RunsUnder allowed start events finish := by
  induction run with
  | refl => exact .refl
  | step prior transition permitted ih =>
      have earlier := ih fun segment => met (segment.trans (List.prefix_append ..))
      exact .step earlier transition (met List.prefix_rfl earlier transition permitted)

/-- Evaluate a list of choices after a trace, kept with its latest event first,
failing at the first choice that is not enabled or not allowed. -/
def exec (system : TransitionSystem State Choice Event) (allowed : StepCondition State Choice Event)
    [decidable : ∀ events state choice event, Decidable (allowed events state choice event)]
    (trace : List Event) (state : State) : List Choice → Option (State × List Event)
  | [] => some (state, trace.reverse)
  | choice :: rest =>
    match system.step state choice with
    | none => none
    | some (next, event) =>
      if allowed trace.reverse state choice event then
        exec system allowed (event :: trace) next rest
      else none

/-- What `exec` evaluates is a run, and its choices are those it was given. -/
theorem exec_runs {admitted : Choice → Prop}
    [decidable : ∀ events state choice event, Decidable (allowed events state choice event)]
    {choices : List Choice} {trace : List Event} {state : State}
    (before : system.RunsUnder (fun events state choice event =>
      allowed events state choice event ∧ admitted choice) start trace.reverse state)
    (every : ∀ choice ∈ choices, admitted choice)
    (evaluated : system.exec allowed trace state choices = some (finish, events)) :
    system.RunsUnder (fun events state choice event =>
      allowed events state choice event ∧ admitted choice) start events finish := by
  induction choices generalizing state trace with
  | nil =>
      cases evaluated
      exact before
  | cons choice rest ih =>
      simp only [exec] at evaluated
      split at evaluated
      · cases evaluated
      · next next event transition =>
        split at evaluated
        · next permitted =>
          refine ih ?_ (fun later member => every later (List.mem_cons_of_mem _ member)) evaluated
          rw [List.reverse_cons]
          exact .step before transition ⟨permitted, every choice List.mem_cons_self⟩
        · cases evaluated

/-- A check that holds of an evaluated outcome holds of some run, whose choices
satisfy what the evaluated ones satisfy. -/
theorem runs_of_exec_admitted (system : TransitionSystem State Choice Event)
    (allowed : StepCondition State Choice Event)
    [decidable : ∀ events state choice event, Decidable (allowed events state choice event)]
    (start : State) (choices : List Choice) (check : State → List Event → Prop)
    [checks : ∀ finish events, Decidable (check finish events)] {admitted : Choice → Prop}
    (every : ∀ choice ∈ choices, admitted choice)
    (evaluated : (system.exec allowed [] start choices).any
      (fun outcome => decide (check outcome.1 outcome.2)) = true) :
    ∃ events finish, system.RunsUnder (fun events state choice event =>
      allowed events state choice event ∧ admitted choice) start events finish ∧
      check finish events := by
  cases outcome : system.exec allowed [] start choices with
  | none => simp [outcome] at evaluated
  | some reached =>
      rw [outcome] at evaluated
      exact ⟨reached.2, reached.1, exec_runs .refl every outcome, of_decide_eq_true evaluated⟩

/-- A check that holds of an evaluated outcome holds of some run. -/
theorem runs_of_exec (system : TransitionSystem State Choice Event)
    (allowed : StepCondition State Choice Event)
    [decidable : ∀ events state choice event, Decidable (allowed events state choice event)]
    (start : State) (choices : List Choice) (check : State → List Event → Prop)
    [checks : ∀ finish events, Decidable (check finish events)]
    (evaluated : (system.exec allowed [] start choices).any
      (fun outcome => decide (check outcome.1 outcome.2)) = true) :
    ∃ events finish, system.RunsUnder allowed start events finish ∧ check finish events := by
  obtain ⟨events, finish, run, checked⟩ := system.runs_of_exec_admitted allowed start choices check
    (fun _ _ => trivial) evaluated
  exact ⟨events, finish, run.mono fun _ _ _ _ permitted => permitted.1, checked⟩

end TransitionSystem
end MmoServer.Semantics
