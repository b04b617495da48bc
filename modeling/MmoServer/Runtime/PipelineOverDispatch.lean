import MmoServer.Runtime.JobDispatch.Lifecycle
import MmoServer.Runtime.JobDispatch.TickEffect
import MmoServer.Runtime.RuntimePipelineExecutor

/-!
# RuntimePipelineExecutor over JobDispatch

The executor's calls are made by the dispatcher's runtime thread. `PipelineOverDispatch`
runs the two together: the executor waits where it has called the dispatcher, and goes on
with the answer, while the workers move at any time.

With the executor in between, the order of the phases is no assumption any more. Over a
layered graph ExecutePipeline never fails, and each one that has returned is one
sequential tick (`pipelines_have_sequential_effect`). That this executor is the one of
`RuntimePipelineExecutor` is shown in `ExecutorRefinement`.
-/

namespace MmoServer.Runtime

open MmoServer.Std MmoServer.Semantics

namespace PipelineOverDispatch

/-- Where the runtime thread is in the executor. -/
inductive Point where
  | outside
  /-- Initialize, inside `m_jobDispatch.Initialize`. -/
  | initializing
  /-- Initialize, with the dispatcher's answer. -/
  | initializeAnswered (answer : Bool)
  /-- ExecutePipeline, inside `m_jobDispatch.ExecutePhase`, with the phases to come. -/
  | executing (phases : List RuntimePhase)
  /-- ExecutePipeline, with the dispatcher's answer. -/
  | phaseAnswered (answer : Bool) (phases : List RuntimePhase)
  /-- Shutdown, inside `m_jobDispatch.Shutdown`. -/
  | stopping
  | shutdownReturned
deriving DecidableEq

/-- Where the dispatcher's runtime thread leaves the executor. -/
def Point.after : Point → Runtime.Event → Point
  | .initializing, .initialized answer => .initializeAnswered answer
  | .initializing, .initializeThrew => .outside
  | .executing phases, .returnedPhase _ => .phaseAnswered true phases
  | .executing phases, .refusedPhase _ => .phaseAnswered false phases
  | .stopping, .returnedShutdown | .stopping, .ignoredShutdown => .shutdownReturned
  | point, _ => point

/-- The owner of the executor calls it, or a thread of the dispatcher moves. -/
inductive Choice where
  /-- A call of Initialize, with what `std::thread::hardware_concurrency` will answer. -/
  | initializeDispatch (hardwareConcurrency : Nat)
  | executePipeline
  | shutdown
  /-- The runtime thread takes its next step. -/
  | main
  | threadFailure
  | worker (index : WorkerIndex)

/-- A step of the dispatcher, or a call of the executor that returns. -/
inductive Event where
  | dispatched (event : Runtime.Event)
  | returned (outcome : RuntimePipelineExecutor.Outcome)

end PipelineOverDispatch

open PipelineOverDispatch in
/-- The executor with its references, the place of its caller, and the real dispatcher. -/
structure PipelineOverDispatch where
  pipeline : RuntimePipeline
  taskGraph : TaskGraph
  taskRegistry : TaskRegistry
  state : RuntimePipelineExecutorState := .created
  point : Point := .outside
  jobDispatch : JobDispatch := .fresh

namespace PipelineOverDispatch

variable (driver : PipelineOverDispatch)

/-- The runtime thread moves inside the dispatcher. -/
def advance (choice : Runtime.Choice) : Option (PipelineOverDispatch × Event) :=
  (driver.jobDispatch.step choice).map fun (jobDispatch, event) =>
    ({ driver with jobDispatch, point := driver.point.after event }, .dispatched event)

/-- The loop of ExecutePipeline, up to the next call of the dispatcher. -/
def executePhases : List RuntimePhase → Option (PipelineOverDispatch × Event)
  | [] => some ({ driver with state := .initialized, point := .outside },
      .returned (.executed (.ok .success)))
  | phase :: phases =>
    { driver with point := .executing phases }.advance (.call (.executePhase phase.id))

/-- RuntimePipelineExecutor::Initialize. -/
def initializeDispatch (hardwareConcurrency : Nat) : Option (PipelineOverDispatch × Event) :=
  if driver.state ≠ .created then
    some (driver, .returned (.initialized (.error "RuntimePipelineExecutor already initialized")))
  else
    { driver with point := .initializing }.advance
      (.call (.initializeWith driver.taskGraph driver.taskRegistry hardwareConcurrency))

/-- RuntimePipelineExecutor::ExecutePipeline. -/
def executePipeline : Option (PipelineOverDispatch × Event) :=
  if driver.state = .created then
    some (driver, .returned (.executed (.error "ExecutePipeline before Initialize")))
  else if driver.state = .stopped then
    some (driver, .returned (.executed (.error "ExecutePipeline after Shutdown")))
  else { driver with state := .running }.executePhases driver.pipeline.phases.toList

/-- RuntimePipelineExecutor::Shutdown. -/
def shutdown : Option (PipelineOverDispatch × Event) :=
  if driver.state = .stopped then some (driver, .returned .shutDown)
  else { driver with state := .stopping, point := .stopping }.advance (.call .shutdown)

/-- The next step of the runtime thread inside a call. -/
def mainStep : Option (PipelineOverDispatch × Event) :=
  match driver.point with
  | .outside => none
  | .initializing | .executing _ | .stopping => driver.advance .main
  | .initializeAnswered answer =>
    some ({ driver with state := if answer then .initialized else .created, point := .outside },
      .returned (.initialized (.ok answer)))
  | .phaseAnswered false _ =>
    some ({ driver with state := .initialized, point := .outside },
      .returned (.executed (.ok .dispatchFailure)))
  | .phaseAnswered true phases => driver.executePhases phases
  | .shutdownReturned =>
    some ({ driver with state := .stopped, point := .outside }, .returned .shutDown)

/-- The executor's caller and the runtime thread of the dispatcher are one thread. -/
def step : Choice → Option (PipelineOverDispatch × Event)
  | .initializeDispatch hardwareConcurrency =>
    if driver.point = .outside then driver.initializeDispatch hardwareConcurrency else none
  | .executePipeline => if driver.point = .outside then driver.executePipeline else none
  | .shutdown => if driver.point = .outside then driver.shutdown else none
  | .main => driver.mainStep
  | .threadFailure => driver.advance .threadFailure
  | .worker index =>
    (driver.jobDispatch.step (.worker index)).map fun (jobDispatch, event) =>
      ({ driver with jobDispatch }, .dispatched event)

/-- The executor under any sequence of calls, over a dispatcher with all its threads. -/
abbrev system : TransitionSystem PipelineOverDispatch Choice Event := ⟨step⟩

/-- The executor and the dispatcher as constructed. -/
def constructed (pipeline : RuntimePipeline) (taskGraph : TaskGraph)
    (taskRegistry : TaskRegistry) : PipelineOverDispatch where
  pipeline
  taskGraph
  taskRegistry

/-- What the dispatcher has shown. -/
def Event.dispatched? : Event → Option Runtime.Event
  | .dispatched event => some event
  | .returned _ => none

/-- What the dispatcher has shown, in order. -/
def dispatched (events : List Event) : List Runtime.Event := events.filterMap Event.dispatched?

/-- ExecutePipeline has returned Success. -/
def Event.succeeds : Event → Bool
  | .returned (.executed (.ok .success)) => true
  | _ => false

/-- ExecutePipeline has returned DispatchFailure. -/
def Event.fails : Event → Bool
  | .returned (.executed (.ok .dispatchFailure)) => true
  | _ => false

/-- The ExecutePipelines that have returned Success. -/
def succeeded (events : List Event) : Nat := tally Event.succeeds events

variable {driver} {graph : TaskGraph} {next : PipelineOverDispatch} {events : List Event}
  {event : Event} {trace : List Runtime.Event} {shown : Runtime.Event}
  {dispatch after : JobDispatch} {choice : Runtime.Choice} {rounds : Nat}
  {front : List RuntimePhaseId} {worker : WorkerIndex}

/-! ## The session of the dispatcher -/

open JobDispatch

/-- The calls of whole ticks and of the first phases of another one are in phase order. -/
theorem index_of_rounds (rounds : Nat) {position : Nat} {phase : RuntimePhaseId}
    (started : front <+: phaseOrder)
    (here : ((List.replicate rounds phaseOrder).flatten ++ front)[position]? = some phase) :
    phase.index = position % 4 := by
  induction rounds generalizing position with
  | zero =>
      obtain ⟨later, order⟩ := started
      have within := (List.getElem?_eq_some_iff.mp here).1
      have index := phaseOrder_index (order ▸ (List.getElem?_append_left within).trans here)
      have small := phase.index_lt
      rw [index] at small ⊢
      exact (Nat.mod_eq_of_lt small).symm
  | succ rounds ih =>
      rw [List.replicate_succ, List.flatten_cons, List.append_assoc] at here
      have four : phaseOrder.length = 4 := rfl
      by_cases first : position < phaseOrder.length
      · rw [List.getElem?_append_left first] at here
        rw [phaseOrder_index here, Nat.mod_eq_of_lt (four ▸ first)]
      · rw [List.getElem?_append_right (Nat.not_lt.mp first), four] at here
        have earlier := ih here
        omega

/-- Initialize has returned true, and the phases called since are so many whole ticks and
the first ones of another. -/
def Running (graph : TaskGraph) (trace : List Runtime.Event) (dispatch : JobDispatch)
    (rounds : Nat) (front : List RuntimePhaseId) : Prop :=
  ∃ before start session, trace = before ++ session ∧ endedTasks before = [] ∧
    AtRest graph start ∧ JobDispatch.system.Runs start session dispatch ∧
    .calledShutdown ∉ session ∧
    calledPhases session = (List.replicate rounds phaseOrder).flatten ++ front

theorem Running.initial (rest : AtRest graph dispatch) (none : endedTasks trace = []) :
    Running graph trace dispatch 0 [] :=
  ⟨trace, dispatch, [], (List.append_nil _).symm, none, rest, .refl, nofun, rfl⟩

theorem Running.extend (running : Running graph trace dispatch rounds front)
    (transition : dispatch.step choice = some (after, shown)) (going : shown ≠ .calledShutdown) :
    Running graph (trace ++ [shown]) after rounds (front ++ shown.calledPhase?.toList) := by
  obtain ⟨before, start, session, rfl, none, rest, run, notShutdown, called⟩ := running
  refine ⟨before, start, session ++ [shown], List.append_assoc .., none, rest,
    run.step transition trivial, ?_, ?_⟩
  · intro member
    rcases List.mem_append.mp member with earlier | last
    · exact notShutdown earlier
    · exact going (List.mem_singleton.mp last).symm
  · rw [calledPhases_concat, called, List.append_assoc]

/-- What a layered session keeps holds since Initialize. -/
theorem Running.session (running : Running graph trace dispatch rounds front)
    (wellFormed : graph.WellFormed) (layered : graph.Layered) (started : front <+: phaseOrder) :
    ∃ session, LayeredSession graph session dispatch := by
  obtain ⟨before, start, session, rfl, none, rest, run, notShutdown, called⟩ := running
  exact ⟨session, layeredSession_of_runs wellFormed layered rest run
    (fun position phase here => index_of_rounds rounds started (called ▸ here)) notShutdown⟩

/-- Whole ticks begin as often as they call the input phase. -/
theorem ticks_of_rounds {session : List Runtime.Event}
    (called : calledPhases session = (List.replicate rounds phaseOrder).flatten) :
    ticks session = rounds := by
  have inputs : tally (fun phase => decide (phase = .input)) (calledPhases session) =
      ticks session := tally_filterMap fun event => by cases event <;> simp [Event.calledPhase?]
  rw [← inputs, called]
  clear called inputs
  induction rounds with
  | zero => rfl
  | succ rounds ih =>
      have one : tally (fun phase => decide (phase = .input)) phaseOrder = 1 := rfl
      rw [List.replicate_succ, List.flatten_cons, tally_append, ih, one, Nat.add_comm]

/-- After whole ticks, what has been executed has their sequential effect. -/
theorem Running.effect {World : Type} {effect : World → TaskId → World}
    (running : Running graph trace dispatch rounds []) (wellFormed : graph.WellFormed)
    (layered : graph.Layered) (commutes : PhaseCommutes effect graph)
    (idle : dispatch.main = .idle) (world : World) :
    (endedTasks trace).foldl effect world = (sequential effect graph .output)^[rounds] world := by
  obtain ⟨before, start, session, rfl, none, rest, run, notShutdown, called⟩ := running
  have inOrder : InPhaseOrder session :=
    fun position phase here => index_of_rounds rounds (List.nil_prefix) (called ▸ here)
  have kept := layeredSession_of_runs wellFormed layered rest run inOrder notShutdown
  obtain ⟨order, ticked⟩ :=
    effect_of_runs wellFormed layered commutes rest run inOrder notShutdown
  rw [List.append_nil] at called
  have counted := ticks_of_rounds called
  rw [endedTasks, List.filterMap_append, ← endedTasks, none, List.nil_append, ← endedTasks,
    ticked.applied, counted]
  cases rounds with
  | zero =>
      have empty : endedTasks (currentTick session) = [] := by
        refine List.eq_nil_iff_forall_not_mem.mpr fun task returned => ?_
        have reached := (order.reached task returned).2
        have begun := ticked.begun
        omega
      rw [empty]
      rfl
  | succ rounds =>
      obtain ⟨few, same⟩ := kept.session.called
      have whole : calls session = 4 * (rounds + 1) := by
        rw [calls, called]
        simp [phaseOrder, Nat.mul_comm]
      have begun := ticked.begun.mpr (by omega)
      have last : calls (currentTick session) = RuntimePhaseId.output.index + 1 := by
        have three : RuntimePhaseId.output.index = 3 := rfl
        omega
      rw [order.foldl_ended kept wellFormed commutes idle last, Nat.add_sub_cancel,
        ← Function.iterate_succ_apply' (sequential effect graph .output)]

/-! ## The executor and the dispatcher together -/

/-- How far the two have come, with the number of whole ticks called. -/
inductive Stage (driver : PipelineOverDispatch) (trace : List Runtime.Event) : Nat → Prop
  | down (created : driver.state = .created)
      (place : driver.point = .outside ∨ driver.point = .initializeAnswered false)
      (fresh : driver.jobDispatch = .fresh) (none : endedTasks trace = []) : Stage driver trace 0
  | starting (created : driver.state = .created) (place : driver.point = .initializing)
      (starting : Starting driver.taskGraph driver.jobDispatch) (none : endedTasks trace = []) :
      Stage driver trace 0
  | broken (created : driver.state = .created)
      (place : driver.point ∈ [.outside, .initializing, .initializeAnswered false])
      (broken : Broken driver.jobDispatch) : Stage driver trace 0
  | ready {rounds : Nat} (running : Running driver.taskGraph trace driver.jobDispatch rounds [])
      (idle : driver.jobDispatch.main = .idle)
      (place : driver.state = .created ∧ driver.point = .initializeAnswered true ∨
        driver.state = .initialized ∧ driver.point = .outside) : Stage driver trace rounds
  | ticking {rounds : Nat} {front : List RuntimePhaseId} {phases : List RuntimePhase}
      (running : Running driver.taskGraph trace driver.jobDispatch rounds front)
      (state : driver.state = .running) (order : front ++ phases.map RuntimePhase.id = phaseOrder)
      (place : driver.point = .executing phases ∨
        driver.point = .phaseAnswered true phases ∧ driver.jobDispatch.main = .idle) :
      Stage driver trace rounds
  | ended {rounds : Nat}
      (place : driver.state = .stopping ∧
          (driver.point = .stopping ∨ driver.point = .shutdownReturned) ∨
        driver.state = .stopped ∧ driver.point = .outside) : Stage driver trace rounds

theorem advance_eq_some (transition : driver.advance choice = some (next, event)) :
    ∃ after shown, SystemStep driver.jobDispatch choice after shown ∧
      driver.jobDispatch.step choice = some (after, shown) ∧
      next = { driver with jobDispatch := after, point := driver.point.after shown } ∧
      event = .dispatched shown := by
  rw [advance, Option.map_eq_some_iff] at transition
  obtain ⟨⟨after, shown⟩, taken, same⟩ := transition
  cases same
  exact ⟨after, shown, step_sound taken, taken, rfl, rfl⟩

/-- An empty dispatcher executes nothing. -/
theorem ended_of_empty (empty : Empty dispatch) (moved : WorkerStep dispatch worker after shown) :
    shown.ended? = none := by
  cases moved with
  | executing here =>
      have none := empty.workers worker
      rw [here] at none
      cases none
  | _ => rfl

theorem endedTasks_eq_nil (none : endedTasks trace = []) (quiet : shown.ended? = Option.none) :
    endedTasks (trace ++ [shown]) = [] := by
  rw [endedTasks_concat, none, quiet]
  rfl

/-- A worker moves. -/
theorem Stage.workerStep (stage : Stage driver trace rounds) {index : WorkerIndex}
    (transition : driver.jobDispatch.step (.worker index) = some (after, shown)) :
    Stage { driver with jobDispatch := after } (trace ++ [shown]) rounds := by
  have moved : SystemStep driver.jobDispatch (.worker index) after shown := step_sound transition
  have worked : WorkerStep driver.jobDispatch index after shown := by
    cases moved with
    | worker moved => exact moved
  have uncalled : shown.calledPhase? = none := by
    cases worked <;> rfl
  have going : shown ≠ .calledShutdown := by
    cases worked <;> nofun
  have main := worked.frame.main
  cases stage with
  | down created place fresh none =>
      rw [fresh] at worked
      exact absurd rfl worked.frame.started
  | starting created place starting none =>
      exact .starting created place (starting.workerStep worked)
        (endedTasks_eq_nil none (ended_of_empty starting.empty worked))
  | broken created place broken => exact .broken created place (broken.step moved).1
  | ready running idle place =>
      have extended := running.extend transition going
      rw [uncalled] at extended
      exact .ready extended (main.trans idle) place
  | ticking running state order place =>
      have extended := running.extend transition going
      rw [uncalled, Option.toList_none, List.append_nil] at extended
      exact .ticking extended state order (place.imp_right (And.imp_right main.trans))
  | ended place => exact .ended place

/-- A step that keeps the two together, and is no failure. -/
structure Goes (trace : List Runtime.Event) (rounds : Nat) (next : PipelineOverDispatch)
    (event : Event) : Prop where
  stage : Stage next (trace ++ event.dispatched?.toList)
    (rounds + if event.succeeds then 1 else 0)
  unfailed : event.fails = false

theorem Goes.dispatched (stage : Stage next (trace ++ [shown]) rounds) :
    Goes trace rounds next (.dispatched shown) := ⟨stage, rfl⟩

/-- A call returns without touching the dispatcher. -/
theorem Goes.returned {outcome : RuntimePipelineExecutor.Outcome}
    (stage : Stage next trace rounds) (unsuccessful : Event.succeeds (.returned outcome) = false)
    (unfailed : Event.fails (.returned outcome) = false) :
    Goes trace rounds next (.returned outcome) := by
  refine ⟨?_, unfailed⟩
  rw [unsuccessful]
  simpa [Event.dispatched?] using stage

/-- A broken dispatcher leaves Initialize with false, or with an exception. -/
theorem after_of_broken {point : Point}
    (place : point ∈ [.outside, .initializing, .initializeAnswered false])
    (refused : shown ≠ .initialized true) :
    point.after shown ∈ [.outside, .initializing, .initializeAnswered false] := by
  simp only [List.mem_cons, List.not_mem_nil, or_false] at place
  rcases place with rfl | rfl | rfl
  · simp [Point.after]
  · cases shown with
    | initialized answer =>
        cases answer with
        | false => simp [Point.after]
        | true => exact absurd rfl refused
    | _ => simp [Point.after]
  · simp [Point.after]

/-- Once Shutdown has been entered, the executor only leaves it. -/
theorem Stage.shuttingDown (place : driver.state = .stopping ∧
      (driver.point = .stopping ∨ driver.point = .shutdownReturned) ∨
    driver.state = .stopped ∧ driver.point = .outside)
    (transition : driver.advance choice = some (next, event)) : Goes trace rounds next event := by
  obtain ⟨after, shown, -, -, rfl, rfl⟩ := advance_eq_some transition
  refine .dispatched (.ended ?_)
  rcases place with ⟨state, point | point⟩ | ⟨state, point⟩
  · refine .inl ⟨state, ?_⟩
    rw [point]
    cases shown <;> simp [Point.after]
  · exact .inl ⟨state, .inr (by rw [point]; rfl)⟩
  · exact .inr ⟨state, by rw [point]; rfl⟩

theorem Stage.brokenStep (created : driver.state = .created)
    (place : driver.point ∈ [.outside, .initializing, .initializeAnswered false])
    (broken : Broken driver.jobDispatch)
    (transition : driver.advance choice = some (next, event)) : Goes trace 0 next event := by
  obtain ⟨after, shown, moved, -, rfl, rfl⟩ := advance_eq_some transition
  obtain ⟨same, refused, -⟩ := broken.step moved
  exact .dispatched (.broken created (after_of_broken place refused) same)

/-- The runtime thread moves inside Initialize. -/
theorem Stage.startingStep (created : driver.state = .created)
    (place : driver.point = .initializing) (starting : Starting driver.taskGraph driver.jobDispatch)
    (none : endedTasks trace = []) (transition : driver.advance .main = some (next, event)) :
    Goes trace 0 next event := by
  obtain ⟨after, shown, moved, -, rfl, rfl⟩ := advance_eq_some transition
  have stage := starting.stage
  cases moved with
  | main moved =>
      rcases starting.mainStep moved with ⟨going, same⟩ | ⟨rfl, rest, -⟩
      · have silent : shown = .silent := by
          cases moved with
          | startPool | startWorker | startedWorkers => rfl
          | startPoolRefused here refused =>
              rw [here] at stage
              exact absurd (stage.symm.trans refused) nofun
          | startWorkerFault => exact same.stage.elim
          | storeRunning => exact absurd rfl going
          | waitDone here =>
              rcases here with here | ⟨epoch, here⟩ <;>
                exact absurd stage (by rw [here]; exact id)
          | _ here => exact absurd stage (by rw [here]; exact id)
        subst silent
        exact .dispatched (.starting created (by rw [place]; rfl) same (endedTasks_eq_nil none rfl))
      · have idle : after.main = .idle := by
          cases moved
          rfl
        exact .dispatched (.ready (.initial rest (endedTasks_eq_nil none rfl)) idle
          (.inl ⟨created, by rw [place]; rfl⟩))

/-- A whole tick has been called. -/
theorem Running.round (running : Running graph trace dispatch rounds phaseOrder) :
    Running graph trace dispatch (rounds + 1) [] := by
  obtain ⟨before, start, session, split, none, rest, run, notShutdown, called⟩ := running
  refine ⟨before, start, session, split, none, rest, run, notShutdown, ?_⟩
  rw [called, List.replicate_succ', List.flatten_append, List.flatten_singleton, List.append_nil]

/-- The loop of ExecutePipeline calls the next phase, or the tick is whole. -/
theorem Stage.nextPhase {phases : List RuntimePhase}
    (running : Running driver.taskGraph trace driver.jobDispatch rounds front)
    (state : driver.state = .running) (order : front ++ phases.map RuntimePhase.id = phaseOrder)
    (idle : driver.jobDispatch.main = .idle)
    (transition : driver.executePhases phases = some (next, event)) :
    Goes trace rounds next event := by
  cases phases with
  | nil =>
      cases transition
      rw [List.map_nil, List.append_nil] at order
      rw [order] at running
      refine ⟨?_, rfl⟩
      rw [Event.dispatched?, Option.toList_none, List.append_nil]
      exact .ready running.round idle (.inr ⟨rfl, rfl⟩)
  | cons phase phases =>
      obtain ⟨after, shown, moved, taken, rfl, rfl⟩ := advance_eq_some transition
      cases moved with
      | calledPhase =>
          refine .dispatched (.ticking (running.extend taken nofun) state ?_ (.inl rfl))
          rw [← order]
          exact List.append_assoc ..

/-- A dispatcher inside its session is running. -/
theorem Running.inSession (running : Running graph trace dispatch rounds front)
    (wellFormed : graph.WellFormed) (layered : graph.Layered) (started : front <+: phaseOrder) :
    dispatch.running = true ∧ dispatch.main.inTick = true := by
  obtain ⟨session, kept⟩ := running.session wellFormed layered started
  exact ⟨kept.session.tick.running, kept.session.tick.schedule.main.inTick⟩

/-- What the runtime thread of a running dispatcher shows to ExecutePipeline. -/
theorem shown_of_running (moved : MainStep dispatch after shown)
    (running : dispatch.running = true) :
    (∃ phase, shown = .returnedPhase phase ∧ after.main = .idle) ∨
      (∀ phases, (Point.executing phases).after shown = .executing phases) := by
  cases moved with
  | waitDone => exact .inl ⟨_, rfl, rfl⟩
  | loadRunningRefused here stopped => exact absurd (running.symm.trans stopped) nofun
  | _ => exact .inr fun _ => rfl

/-- The runtime thread moves inside ExecutePhase. -/
theorem Stage.executing {phases : List RuntimePhase} (wellFormed : driver.taskGraph.WellFormed)
    (layered : driver.taskGraph.Layered)
    (running : Running driver.taskGraph trace driver.jobDispatch rounds front)
    (state : driver.state = .running) (order : front ++ phases.map RuntimePhase.id = phaseOrder)
    (place : driver.point = .executing phases)
    (transition : driver.advance .main = some (next, event)) : Goes trace rounds next event := by
  obtain ⟨up, -⟩ :=
    running.inSession wellFormed layered (order ▸ List.prefix_append ..)
  obtain ⟨after, shown, moved, taken, rfl, rfl⟩ := advance_eq_some transition
  cases moved with
  | main moved =>
      have uncalled : shown.calledPhase? = none := by
        cases moved <;> rfl
      have extended := running.extend taken (by rintro rfl; cases moved)
      rw [uncalled, Option.toList_none, List.append_nil] at extended
      refine .dispatched (.ticking extended state order ?_)
      rw [place]
      rcases shown_of_running moved up with ⟨phase, rfl, idle⟩ | same
      · exact .inr ⟨rfl, idle⟩
      · exact .inl (same phases)

/-- The thread constructor throws only inside Initialize. -/
theorem Stage.threadFailure (stage : Stage driver trace rounds)
    (wellFormed : driver.taskGraph.WellFormed) (layered : driver.taskGraph.Layered)
    (transition : driver.advance .threadFailure = some (next, event)) :
    Goes trace rounds next event := by
  obtain ⟨after, shown, moved, -, same, shownSame⟩ := advance_eq_some transition
  cases moved with
  | threadFailure here more =>
      cases stage with
      | down created place fresh =>
          rw [fresh] at here
          cases here
      | starting created place starting none =>
          have stage := starting.stage
          rw [here] at stage
          rw [same, shownSame, place]
          exact .dispatched (.broken created (by simp [Point.after])
            ⟨starting.stopped, stage.1, trivial⟩)
      | broken created place broken => exact brokenStep created place broken transition
      | ready running idle place =>
          rw [here] at idle
          cases idle
      | ticking running state order place =>
          obtain ⟨-, inTick⟩ :=
            running.inSession wellFormed layered (order ▸ List.prefix_append ..)
          rw [here] at inTick
          cases inTick
      | ended place => exact shuttingDown place transition

/-- The runtime thread takes its next step inside a call. -/
theorem Stage.mainStep (stage : Stage driver trace rounds)
    (wellFormed : driver.taskGraph.WellFormed) (layered : driver.taskGraph.Layered)
    (transition : driver.mainStep = some (next, event)) : Goes trace rounds next event := by
  unfold PipelineOverDispatch.mainStep at transition
  cases stage with
  | down created place fresh none =>
      rcases place with place | place <;> rw [place] at transition <;> cases transition
      exact .returned (.down rfl (.inl rfl) fresh none) rfl rfl
  | starting created place starting none =>
      rw [place] at transition
      exact startingStep created place starting none transition
  | broken created place broken =>
      simp only [List.mem_cons, List.not_mem_nil, or_false] at place
      rcases place with place | place | place <;> rw [place] at transition
      · cases transition
      · exact brokenStep created (by simp [place]) broken transition
      · cases transition
        exact .returned (.broken rfl (by simp) broken) rfl rfl
  | ready running idle place =>
      rcases place with ⟨-, place⟩ | ⟨-, place⟩ <;> rw [place] at transition <;> cases transition
      exact .returned (.ready running idle (.inr ⟨rfl, rfl⟩)) rfl rfl
  | ticking running state order place =>
      rcases place with place | ⟨place, idle⟩ <;> rw [place] at transition
      · exact executing wellFormed layered running state order place transition
      · exact nextPhase running state order idle transition
  | ended place =>
      rcases place with ⟨state, point | point⟩ | ⟨state, point⟩ <;> rw [point] at transition
      · exact shuttingDown (.inl ⟨state, .inl point⟩) transition
      · cases transition
        exact .returned (.ended (.inr ⟨rfl, rfl⟩)) rfl rfl
      · cases transition

/-- A call of Initialize. -/
theorem Stage.initializeDispatch (stage : Stage driver trace rounds)
    (wellFormed : driver.taskGraph.WellFormed) {hardwareConcurrency : Nat}
    (outside : driver.point = .outside)
    (transition : driver.initializeDispatch hardwareConcurrency = some (next, event)) :
    Goes trace rounds next event := by
  rw [PipelineOverDispatch.initializeDispatch] at transition
  split at transition
  · cases transition
    exact .returned stage rfl rfl
  · next created =>
    rw [not_not] at created
    cases stage with
    | down _ _ fresh none =>
        obtain ⟨after, shown, moved, -, rfl, rfl⟩ := advance_eq_some transition
        rw [fresh] at moved
        cases moved with
        | initializeRefused =>
            exact .dispatched (.down created (.inr rfl) rfl (endedTasks_eq_nil none rfl))
        | initializeFault _ _ unbounded =>
            have large := (TaskRegistry.validate_eq_none_iff.mp unbounded).1
            exact absurd wellFormed.nodeCount_le (Nat.not_le.mpr large)
        | initializeBound _ _ valid =>
            exact .dispatched (.starting created rfl (.initial wellFormed valid _)
              (endedTasks_eq_nil none rfl))
    | starting _ place =>
        rw [place] at outside
        cases outside
    | broken _ _ broken =>
        refine brokenStep ?_ ?_ ?_ transition
        · exact created
        · simp
        · exact broken
    | ready _ _ place =>
        rcases place with ⟨-, place⟩ | ⟨state, -⟩
        · rw [place] at outside
          cases outside
        · rw [state] at created
          cases created
    | ticking _ state =>
        rw [state] at created
        cases created
    | ended place =>
        rcases place with ⟨state, -⟩ | ⟨state, -⟩ <;> rw [state] at created <;> cases created

/-- A call of ExecutePipeline. -/
theorem Stage.executePipeline (stage : Stage driver trace rounds)
    (inOrder : driver.pipeline.ids = phaseOrder) (outside : driver.point = .outside)
    (transition : driver.executePipeline = some (next, event)) :
    Goes trace rounds next event := by
  rw [PipelineOverDispatch.executePipeline] at transition
  split at transition
  · cases transition
    exact .returned stage rfl rfl
  · next early =>
    split at transition
    · cases transition
      exact .returned stage rfl rfl
    · next late =>
      cases stage with
      | down created | starting created | broken created => exact absurd created early
      | ready running idle place =>
          have first : [] ++ driver.pipeline.phases.toList.map RuntimePhase.id = phaseOrder :=
            inOrder
          refine nextPhase ?_ ?_ first ?_ transition
          · exact running
          · rfl
          · exact idle
      | ticking _ _ _ place =>
          rcases place with place | ⟨place, -⟩ <;> rw [place] at outside <;> cases outside
      | ended place =>
          rcases place with ⟨-, point | point⟩ | ⟨state, -⟩
          · rw [point] at outside
            cases outside
          · rw [point] at outside
            cases outside
          · exact absurd state late

/-- Every step of the two together. -/
theorem Stage.step {choice : Choice} (stage : Stage driver trace rounds)
    (wellFormed : driver.taskGraph.WellFormed) (layered : driver.taskGraph.Layered)
    (inOrder : driver.pipeline.ids = phaseOrder)
    (transition : driver.step choice = some (next, event)) : Goes trace rounds next event := by
  cases choice with
  | worker index =>
      obtain ⟨⟨after, shown⟩, taken, same⟩ := Option.map_eq_some_iff.mp transition
      cases same
      exact .dispatched (stage.workerStep taken)
  | threadFailure => exact stage.threadFailure wellFormed layered transition
  | main => exact stage.mainStep wellFormed layered transition
  | initializeDispatch hardwareConcurrency =>
      rw [PipelineOverDispatch.step] at transition
      split at transition
      · next outside => exact stage.initializeDispatch wellFormed outside transition
      · cases transition
  | executePipeline =>
      rw [PipelineOverDispatch.step] at transition
      split at transition
      · next outside => exact stage.executePipeline inOrder outside transition
      · cases transition
  | shutdown =>
      rw [PipelineOverDispatch.step] at transition
      split at transition
      · rw [PipelineOverDispatch.shutdown] at transition
        split at transition
        · cases transition
          exact .returned stage rfl rfl
        · exact shuttingDown (.inl ⟨rfl, .inl rfl⟩) transition
      · cases transition

/-- The references the executor was constructed with stay. -/
theorem step_keeps {choice : Choice} (transition : driver.step choice = some (next, event)) :
    next.pipeline = driver.pipeline ∧ next.taskGraph = driver.taskGraph := by
  have entered : ∀ {state point choice},
      { driver with state, point }.advance choice = some (next, event) →
        next.pipeline = driver.pipeline ∧ next.taskGraph = driver.taskGraph := by
    intro state point choice moved
    obtain ⟨after, shown, -, -, rfl, -⟩ := advance_eq_some moved
    exact ⟨rfl, rfl⟩
  have looped : ∀ {state phases},
      { driver with state }.executePhases phases = some (next, event) →
        next.pipeline = driver.pipeline ∧ next.taskGraph = driver.taskGraph := by
    intro state phases moved
    cases phases with
    | nil =>
        cases moved
        exact ⟨rfl, rfl⟩
    | cons => exact entered moved
  cases choice with
  | worker index =>
      obtain ⟨⟨after, shown⟩, -, same⟩ := Option.map_eq_some_iff.mp transition
      cases same
      exact ⟨rfl, rfl⟩
  | threadFailure => exact entered transition
  | main =>
      rw [PipelineOverDispatch.step, PipelineOverDispatch.mainStep] at transition
      split at transition <;> first
        | exact entered transition
        | exact looped transition
        | (cases transition; try exact ⟨rfl, rfl⟩)
  | initializeDispatch | executePipeline | shutdown =>
      simp only [PipelineOverDispatch.step, PipelineOverDispatch.initializeDispatch,
        PipelineOverDispatch.executePipeline, PipelineOverDispatch.shutdown] at transition
      split_ifs at transition <;> first
        | exact entered transition
        | exact looped transition
        | (cases transition; exact ⟨rfl, rfl⟩)

/-- Along every run, the two are at one of their stages and nothing has failed. -/
theorem stage_of_runs {pipeline : RuntimePipeline} {registry : TaskRegistry}
    (wellFormed : graph.WellFormed) (layered : graph.Layered) (inOrder : pipeline.ids = phaseOrder)
    (run : system.Runs (constructed pipeline graph registry) events driver) :
    (driver.pipeline = pipeline ∧ driver.taskGraph = graph) ∧
      Stage driver (dispatched events) (succeeded events) ∧ ∀ event ∈ events, event.fails = false := by
  apply run.invariant fun events driver =>
    (driver.pipeline = pipeline ∧ driver.taskGraph = graph) ∧
      Stage driver (dispatched events) (succeeded events) ∧ ∀ event ∈ events, event.fails = false
  · exact ⟨⟨rfl, rfl⟩, .down rfl (.inl rfl) rfl rfl, nofun⟩
  · rintro events driver choice next event - ⟨⟨rfl, rfl⟩, stage, unfailed⟩ transition -
    obtain ⟨after, last⟩ := stage.step wellFormed layered inOrder transition
    refine ⟨step_keeps transition, ?_, ?_⟩
    · rw [dispatched, filterMap_concat, succeeded, tally_concat]
      exact after
    · intro other member
      rcases List.mem_append.mp member with earlier | same
      · exact unfailed other earlier
      · rw [List.mem_singleton.mp same]
        exact last

/-- Whatever is called on an executor over a layered graph, the tasks of one phase of which
commute, and however the threads of the dispatcher interleave, ExecutePipeline never returns
DispatchFailure; and between two calls of an executor that is initialized, what its workers
have executed has the effect of one sequential tick for each ExecutePipeline that has
returned. -/
theorem pipelines_have_sequential_effect {World : Type} (effect : World → TaskId → World)
    (pipeline : RuntimePipeline) (graph : TaskGraph) (registry : TaskRegistry)
    (events : List Event) (driver : PipelineOverDispatch) (wellFormed : graph.WellFormed)
    (layered : graph.Layered) (commutes : PhaseCommutes effect graph)
    (inOrder : pipeline.ids = phaseOrder)
    (run : system.Runs (constructed pipeline graph registry) events driver) :
    (∀ event ∈ events, event.fails = false) ∧
    (driver.state = .initialized → driver.point = .outside → ∀ world,
      (endedTasks (dispatched events)).foldl effect world =
        (sequential effect graph .output)^[succeeded events] world) := by
  obtain ⟨⟨-, same⟩, stage, unfailed⟩ := stage_of_runs wellFormed layered inOrder run
  refine ⟨unfailed, fun initialized outside world => ?_⟩
  generalize dispatched events = trace, succeeded events = rounds at stage ⊢
  cases stage with
  | down created | starting created | broken created =>
      rw [initialized] at created
      cases created
  | ready running idle place =>
      rw [same] at running
      exact running.effect wellFormed layered commutes idle world
  | ticking _ state =>
      rw [initialized] at state
      cases state
  | ended place =>
      rcases place with ⟨state, -⟩ | ⟨state, -⟩ <;> rw [initialized] at state <;> cases state

/-- ExecutePipeline on the join, with what the workers do while it waits for the input and
for the simulation phase. -/
def joinTick (input simulation : List Choice) : List Choice :=
  .executePipeline :: List.replicate 14 .main ++ input ++ List.replicate 9 .main ++ simulation ++
    List.replicate 14 .main

/-- One worker takes `count` steps. -/
def work (index : WorkerIndex) (count : Nat) : List Choice := List.replicate count (.worker index)

/-- Two ticks of the join, in the first of which task 1 ends before task 0. -/
theorem join_pipelines : ∃ events driver,
    system.Runs (constructed {} .joinGraph .full) events driver ∧ succeeded events = 2 ∧
    endedTasks (dispatched events) = [1, 0, 2, 0, 1, 2] ∧
    (endedTasks (dispatched events)).foldl joinEffect (0, 0) =
      (sequential joinEffect .joinGraph .output)^[2] (0, 0) := by
  obtain ⟨events, driver, run, twice, order, state, point⟩ := system.runs_of_exec
    (fun _ _ _ _ => True) (constructed {} .joinGraph .full)
    (.initializeDispatch 2 :: List.replicate 6 .main ++
      joinTick (work 0 2 ++ work 1 8 ++ work 0 6) (work 1 7) ++
      joinTick (work 0 18) (work 0 9))
    (fun driver events => succeeded events = 2 ∧
      endedTasks (dispatched events) = [1, 0, 2, 0, 1, 2] ∧ driver.state = .initialized ∧
      driver.point = .outside)
    (by decide +kernel)
  have effect := (pipelines_have_sequential_effect joinEffect {} .joinGraph .full events driver
    TaskGraph.joinGraph_wellFormed TaskGraph.joinGraph_layered joinEffect_commutes rfl run).2 state point
    (0, 0)
  rw [twice] at effect
  exact ⟨events, driver, run, twice, order, effect⟩

end PipelineOverDispatch
end MmoServer.Runtime
