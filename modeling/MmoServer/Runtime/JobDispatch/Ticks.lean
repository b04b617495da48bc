import MmoServer.Runtime.JobDispatch.Tick

/-!
# The ticks of a session

A session calls ExecutePhase for the four phases in turn, over and over. As long as every tick
begins at rest, `Tick` holds of the trace since the latest call for the input phase: this is
`Ticks`, which says nothing about how a tick ends. `RestGuard` is the condition, and
`ticks_rule` the invariant rule under it.
-/

namespace MmoServer.Runtime

open MmoServer.Std MmoServer.Semantics

namespace JobDispatch

/-- ExecutePhase(Input) finds nothing that a tick before has left: nothing is queued, counted
or held. -/
def RestGuard : TransitionSystem.StepCondition JobDispatch Choice Event :=
  fun _ dispatch _ event =>
    match event with
    | .calledPhase .input => dispatch.readyQueue.items = [] ∧ dispatch.activeTaskCount = 0 ∧
        ∀ worker, (dispatch.workers worker).task? = none
    | _ => True

instance (events : List Event) (dispatch : JobDispatch) (choice : Choice) (event : Event) :
    Decidable (RestGuard events dispatch choice event) := by
  unfold RestGuard
  split <;> infer_instance

/-- The trace since the latest call for the input phase, that call included. -/
def currentTick (events : List Event) : List Event :=
  events.foldl
    (fun tick event => if event = .calledPhase .input then [event] else tick ++ [event]) []

/-- ExecutePhase is called for the four phases in turn, over and over. -/
def InPhaseOrder (events : List Event) : Prop :=
  ∀ position phase, (calledPhases events)[position]? = some phase → phase.index = position % 4

/-- A session, of whose current tick the invariant holds. -/
structure Ticks (graph : TaskGraph) (events : List Event) (dispatch : JobDispatch) : Prop where
  tick : Tick graph (currentTick events) dispatch
  registered : ∃ registry, dispatch.registry = some registry ∧ registry.validate graph = some true
  called : calls (currentTick events) ≤ 4 ∧ calls (currentTick events) % 4 = calls events % 4

variable {graph : TaskGraph} {dispatch next start finish : JobDispatch} {events : List Event}
  {event : Event} {choice : Choice}

@[simp] theorem currentTick_concat (events : List Event) (event : Event) :
    currentTick (events ++ [event]) =
      if event = .calledPhase .input then [event] else currentTick events ++ [event] := by
  simp [currentTick]

/-- The next call of a run in phase order. -/
theorem InPhaseOrder.next_call {phase : RuntimePhaseId}
    (inOrder : InPhaseOrder (events ++ [.calledPhase phase])) : phase.index = calls events % 4 := by
  apply inOrder
  simp [calls, Event.calledPhase?]

theorem InPhaseOrder.of_prefix {before : List Event} (inOrder : InPhaseOrder events)
    (segment : before <+: events) : InPhaseOrder before := by
  intro position phase here
  obtain ⟨after, rfl⟩ := segment
  apply inOrder position phase
  rw [calledPhases, List.filterMap_append]
  exact List.getElem?_append_left (List.getElem?_eq_some_iff.mp here).1 |>.trans here

/-- A single call for the input phase is in phase order. -/
theorem InPhaseOrder.of_input (called : calledPhases events = [.input]) : InPhaseOrder events := by
  intro position phase here
  rw [called] at here
  rcases position with _ | position
  · cases here
    rfl
  · cases here

/-- The calls of one tick are in phase order. -/
theorem OneTick.inPhaseOrder (oneTick : OneTick events) : InPhaseOrder events := by
  intro position phase here
  obtain ⟨later, order⟩ := oneTick
  have within := (List.getElem?_eq_some_iff.mp here).1
  have index := phaseOrder_index (order ▸ (List.getElem?_append_left within).trans here)
  have four : runtimePhaseCountV1 = 4 := rfl
  have small := phase.index_lt
  rw [index] at small ⊢
  exact (Nat.mod_eq_of_lt (by omega)).symm

/-- The calls of two ticks are in phase order. -/
theorem InPhaseOrder.of_two_ticks (called : calledPhases events = phaseOrder ++ phaseOrder) :
    InPhaseOrder events := by
  intro position phase here
  rw [called] at here
  have eight : position < 8 := (List.getElem?_eq_some_iff.mp here).1
  rcases Nat.lt_or_ge position 4 with first | second
  · rw [List.getElem?_append_left first] at here
    rw [phaseOrder_index here, Nat.mod_eq_of_lt first]
  · rw [List.getElem?_append_right second] at here
    have index : phase.index = position - 4 := phaseOrder_index here
    omega

theorem idle_of_called {phase : RuntimePhaseId}
    (moved : SystemStep dispatch choice next (.calledPhase phase)) : dispatch.main = .idle := by
  cases moved with
  | calledPhase idle => exact idle
  | main moved => cases moved
  | worker moved => cases moved

/-- Nothing inside a session replaces the registry. -/
theorem SystemStep.registry_of_running (moved : SystemStep dispatch choice next event)
    (running : dispatch.running = true) (inTick : dispatch.main.inTick = true) :
    next.registry = dispatch.registry := by
  cases moved with
  | initializeBound idle stopped => exact absurd (running.symm.trans stopped) nofun
  | main moved => exact (moved.frame_of_inTick inTick).2.1
  | worker moved => exact moved.frame.registry
  | _ => rfl

namespace Ticks

/-- A session in which nothing is queued, counted or held is at rest between two calls. -/
theorem atRest (ticks : Ticks graph events dispatch) (idle : dispatch.main = .idle)
    (queue : dispatch.readyQueue.items = []) (count : dispatch.activeTaskCount = 0)
    (empty : ∀ worker, (dispatch.workers worker).task? = none) : AtRest graph dispatch := by
  refine ⟨ticks.tick.bound, ticks.registered, ticks.tick.running, ticks.tick.poolRunning,
    idle, queue, count, fun worker => ⟨empty worker, ?_⟩⟩
  intro fault
  have sound := ticks.tick.sound worker
  rw [fault] at sound
  exact sound

/-- The order of the calls of one tick, seen from the session. -/
theorem next_call (ticks : Ticks graph events dispatch) {phase : RuntimePhaseId}
    (inOrder : phase.index = calls events % 4) (later : phase ≠ .input) :
    phase.index = calls (currentTick events) ∧ calls (currentTick events) < 4 := by
  obtain ⟨few, same⟩ := ticks.called
  have positive : phase.index ≠ 0 := mt RuntimePhaseId.index_eq_zero.mp later
  omega

/-- The tick goes on, or a new one starts from rest. -/
theorem tick_step (ticks : Ticks graph events dispatch) (wellFormed : graph.WellFormed)
    (moved : SystemStep dispatch choice next event)
    (begins : event = .calledPhase .input → AtRest graph dispatch)
    (inOrder : ∀ phase, event = .calledPhase phase → phase.index = calls events % 4)
    (notShutdown : event ≠ .calledShutdown) :
    Tick graph (currentTick (events ++ [event])) next := by
  rw [currentTick_concat]
  by_cases first : event = .calledPhase .input
  · have restart := Tick.initial (begins first)
    subst first
    refine restart.step wellFormed moved (fun phase same => ?_) notShutdown
    cases same
    rfl
  · rw [if_neg first]
    refine ticks.tick.step wellFormed moved (fun phase same => ?_) notShutdown
    have later : phase ≠ .input := fun input => first (input ▸ same)
    exact (ticks.next_call (inOrder phase same) later).1

theorem called_step (ticks : Ticks graph events dispatch)
    (inOrder : ∀ phase, event = .calledPhase phase → phase.index = calls events % 4) :
    calls (currentTick (events ++ [event])) ≤ 4 ∧
      calls (currentTick (events ++ [event])) % 4 = calls (events ++ [event]) % 4 := by
  obtain ⟨few, same⟩ := ticks.called
  rw [currentTick_concat, calls_concat]
  cases event with
  | calledPhase phase =>
      by_cases first : phase = .input
      · have start := inOrder phase rfl
        subst first
        rw [if_pos rfl]
        simp only [RuntimePhaseId.index] at start
        simp only [calls, calledPhases, List.filterMap_cons, List.filterMap_nil,
          Event.calledPhase?, List.length_singleton, Option.isSome_some, if_true] at start ⊢
        omega
      · obtain ⟨_, fewer⟩ := ticks.next_call (inOrder phase rfl) first
        rw [if_neg (by simpa using first), calls_concat]
        simp only [Event.calledPhase?, Option.isSome_some, if_true]
        omega
  | _ =>
      rw [if_neg (by rintro ⟨⟩), calls_concat]
      exact ⟨few, same⟩

/-- Every step keeps the invariant if a new tick begins at rest. -/
theorem step (ticks : Ticks graph events dispatch) (wellFormed : graph.WellFormed)
    (moved : SystemStep dispatch choice next event)
    (begins : event = .calledPhase .input → AtRest graph dispatch)
    (inOrder : ∀ phase, event = .calledPhase phase → phase.index = calls events % 4)
    (notShutdown : event ≠ .calledShutdown) : Ticks graph (events ++ [event]) next := by
  constructor
  · exact ticks.tick_step wellFormed moved begins inOrder notShutdown
  · rw [moved.registry_of_running ticks.tick.running ticks.tick.schedule.main.inTick]
    exact ticks.registered
  · exact ticks.called_step inOrder

theorem initial (rest : AtRest graph dispatch) : Ticks graph [] dispatch :=
  ⟨.initial rest, rest.registered, Nat.zero_le _, rfl⟩

end Ticks

/-- The invariant rule for the ticks of a session: every run in phase order under a condition
that implies the guard at the start of a tick. -/
theorem ticks_rule {allowed : TransitionSystem.StepCondition JobDispatch Choice Event}
    (extra : List Event → JobDispatch → Prop) (wellFormed : graph.WellFormed)
    (rest : AtRest graph start) (run : system.RunsUnder allowed start events finish)
    (guarded : ∀ events dispatch choice event, allowed events dispatch choice event →
      RestGuard events dispatch choice event)
    (inOrder : InPhaseOrder events) (notShutdown : .calledShutdown ∉ events)
    (initial : extra [] start)
    (preserved : ∀ {events dispatch choice next event}, Ticks graph events dispatch →
      extra events dispatch → SystemStep dispatch choice next event →
      allowed events dispatch choice event → Ticks graph (events ++ [event]) next →
      extra (events ++ [event]) next) : Ticks graph events finish ∧ extra events finish := by
  have along := run.invariant (fun before dispatch => before <+: events →
    Ticks graph before dispatch ∧ extra before dispatch) (fun _ => ⟨.initial rest, initial⟩) ?_
  · exact along (List.prefix_refl events)
  · rintro before dispatch choice next event - ih transition permitted segment
    obtain ⟨ticks, holds⟩ := ih ((List.prefix_append before [event]).trans segment)
    have moved := step_sound transition
    have ordered := inOrder.of_prefix segment
    have member : event ∈ events := segment.subset (by simp)
    have after := ticks.step wellFormed moved
      (fun same => by
        subst same
        obtain ⟨queue, count, empty⟩ := guarded _ _ _ _ permitted
        exact ticks.atRest (idle_of_called moved) queue count empty)
      (fun phase same => InPhaseOrder.next_call (same ▸ ordered))
      (fun same => notShutdown (same ▸ member))
    exact ⟨after, preserved ticks holds moved permitted after⟩

end JobDispatch
end MmoServer.Runtime
