import MmoServer.Semantics.Tally
import MmoServer.Semantics.Transition

/-!
# Simulation of one transition system by another

A concrete step either stutters or shows one event of the abstract system. When each
step is matched by a run of the abstract system that shows the same, so is each run, and
every safety property of the abstract system's traces is one of the concrete system.
-/

namespace MmoServer.Semantics.TransitionSystem

variable {State Choice Event : Type} {AbstractState AbstractChoice AbstractEvent : Type}
  {system : TransitionSystem State Choice Event}
  {abstract : TransitionSystem AbstractState AbstractChoice AbstractEvent}
  {allowed : StepCondition State Choice Event} {start finish : State} {first : AbstractState}
  {events : List Event}

/-- Steps that the abstract system matches, from related states to related states, what
they show being the label of their event. -/
def Simulates (system : TransitionSystem State Choice Event) (allowed : StepCondition State Choice Event)
    (start : State) (abstract : TransitionSystem AbstractState AbstractChoice AbstractEvent)
    (label : Event → Option AbstractEvent) (related : State → AbstractState → Prop) : Prop :=
  ∀ events state choice next event current, system.RunsUnder allowed start events state →
    related state current → system.step state choice = some (next, event) →
    allowed events state choice event →
    ∃ later, abstract.Runs current (label event).toList later ∧ related next later

/-- The abstract system matches every run whose steps it matches. -/
theorem RunsUnder.simulated {label : Event → Option AbstractEvent}
    {related : State → AbstractState → Prop} (run : system.RunsUnder allowed start events finish)
    (simulates : Simulates system allowed start abstract label related)
    (initial : related start first) :
    ∃ last, abstract.Runs first (events.filterMap label) last ∧ related finish last := by
  apply run.invariant fun events state => ∃ current,
    abstract.Runs first (events.filterMap label) current ∧ related state current
  · exact ⟨first, .refl, initial⟩
  · rintro events state choice next event prior ⟨current, before, relation⟩ transition permitted
    obtain ⟨later, matched, kept⟩ :=
      simulates events state choice next event current prior relation transition permitted
    refine ⟨later, ?_, kept⟩
    rw [filterMap_concat]
    exact before.trans matched

end MmoServer.Semantics.TransitionSystem
