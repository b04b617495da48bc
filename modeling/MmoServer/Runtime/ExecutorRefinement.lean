import MmoServer.Runtime.PipelineOverDispatch

/-!
# The executor over the real dispatcher

`RuntimePipelineExecutor` sees its dispatcher from outside, as a stream of answers;
`PipelineOverDispatch` runs it on the dispatcher's own steps. The second is the first: whatever
the threads do, every call returns what it returns when the dispatcher gives the same answers,
and between two calls the same has been called on the dispatcher, so that the protocol of the
executor holds on the real one (`executor_over_dispatch`).

Nothing is assumed of the graph here. An exception that leaves Initialize is no answer: the
executor is then as it was before the call.
-/

namespace MmoServer.Runtime

open MmoServer.Semantics

/-- The answer that a call has been given. -/
def DispatchCall.answer? : DispatchCall → Option Bool
  | .initializeWith answer | .executePhase _ answer => some answer
  | .shutdown => none

/-- The call that the dispatcher has answered in a step. -/
def Event.answered? : Event → Option DispatchCall
  | .initialized answer => some (.initializeWith answer)
  | .returnedPhase phase => some (.executePhase phase true)
  | .refusedPhase phase => some (.executePhase phase false)
  | .returnedShutdown | .ignoredShutdown => some .shutdown
  | _ => none

/-- The runtime thread is in Initialize of the dispatcher. -/
def MainState.inInitialize : MainState → Bool
  | .startPool _ | .startWorker _ | .storeRunning | .fault => true
  | _ => false

/-- The runtime thread is in ExecutePhase of the phase, where `current` is `m_currentPhase`. -/
def MainState.InExecutePhase (phase current : RuntimePhaseId) : MainState → Prop
  | .loadRunning called | .storePhase called => called = phase
  | .build _ | .loadSeedPhase | .seed _ _ | .seedEnqueue _ _ _ | .seedAdd _ _ | .waitActive
  | .waitEpoch | .waitRecheck _ | .waitBlocked _ => current = phase
  | .fault => True
  | _ => False

namespace IJobDispatch

variable {dispatch : IJobDispatch} {calls more : List DispatchCall}

/-- The dispatcher after a call. -/
def after (dispatch : IJobDispatch) : DispatchCall → IJobDispatch
  | .shutdown => dispatch.shutdown
  | call => dispatch.answered call

/-- The next answers of the dispatcher are those that the calls have been given. -/
def Gives : IJobDispatch → List DispatchCall → Prop
  | _, [] => True
  | dispatch, call :: calls =>
    (∀ answer ∈ call.answer?, dispatch.answers 0 = answer) ∧ (dispatch.after call).Gives calls

/-- The answers of two runs of calls, one after the other. -/
theorem gives_append : dispatch.Gives (calls ++ more) ↔
    dispatch.Gives calls ∧ (calls.foldl after dispatch).Gives more := by
  induction calls generalizing dispatch with
  | nil => exact (true_and _ ▸ Iff.rfl)
  | cons call calls ih => rw [List.cons_append, Gives, Gives, ih, List.foldl_cons, and_assoc]

/-- A call is noted. -/
theorem calls_after (call : DispatchCall) :
    (dispatch.after call).calls = dispatch.calls ++ [call] := by
  cases call <;> rfl

/-- So are all of them. -/
theorem calls_foldl : (calls.foldl after dispatch).calls = dispatch.calls ++ calls := by
  induction calls generalizing dispatch with
  | nil => exact (List.append_nil _).symm
  | cons call calls ih =>
      rw [List.foldl_cons, ih, calls_after, List.append_assoc, List.singleton_append]

/-- Any calls can be answered as they have been. -/
theorem exists_gives (calls : List DispatchCall) :
    ∃ answers, ∀ made, Gives ⟨answers, made⟩ calls := by
  refine ⟨fun index => (calls.filterMap DispatchCall.answer?).getD index false, ?_⟩
  induction calls with
  | nil => exact fun _ => trivial
  | cons call calls ih =>
      intro made
      cases call with
      | shutdown => exact ⟨by rintro _ ⟨⟩, ih _⟩
      | initializeWith first | executePhase phase first =>
          refine ⟨?_, ih _⟩
          rintro _ ⟨⟩
          rfl

end IJobDispatch

/-! ## The calls of the executor -/

namespace RuntimePipelineExecutor

/-- The call that returns so. -/
def Outcome.call : Outcome → Call
  | .initialized _ => .initializeDispatch
  | .executed _ => .executePipeline
  | .shutDown => .shutdown

variable {executor : RuntimePipelineExecutor} {dispatch : IJobDispatch}
  {before phases : List RuntimePhase} {phase : RuntimePhase} {answer : Bool}

/-- One more phase that has been agreed to. -/
theorem fullBlock_concat (before : List RuntimePhase) (phase : RuntimePhase) :
    fullBlock ((before ++ [phase]).map RuntimePhase.id) =
      fullBlock (before.map RuntimePhase.id) ++ [.executePhase phase.id true] := by
  simp [fullBlock]

/-- The loop passes the phases that the dispatcher agrees to. -/
theorem executePhases_append
    (gives : dispatch.Gives (fullBlock (before.map RuntimePhase.id))) :
    executePhases (before ++ phases) dispatch = executePhases phases
      ((fullBlock (before.map RuntimePhase.id)).foldl IJobDispatch.after dispatch) := by
  induction before generalizing dispatch with
  | nil => rfl
  | cons first before ih =>
      obtain ⟨agreed, later⟩ := gives
      rw [List.cons_append, executePhases, executePhase, IJobDispatch.executePhase, agreed true rfl]
      exact ih later

/-- Initialize returns what the dispatcher answers. -/
theorem call_initializeDispatch (created : executor.state = .created)
    (gives : executor.jobDispatch.Gives [.initializeWith answer]) :
    executor.call .initializeDispatch = (.initialized (.ok answer),
      { executor with
        jobDispatch := executor.jobDispatch.after (.initializeWith answer)
        state := if answer then .initialized else .created }) := by
  have first := gives.1 answer rfl
  rw [call, initializeDispatch, if_neg (not_not.mpr created), IJobDispatch.initializeWith, first]
  cases answer
  · rw [← created]
    rfl
  · rfl

/-- ExecutePipeline returns what its loop does. -/
theorem call_executePipeline (early : executor.state ≠ .created)
    (late : executor.state ≠ .stopped) :
    executor.call .executePipeline =
      (.executed (.ok (executePhases executor.pipeline.phases.toList executor.jobDispatch).1),
        { executor with
          jobDispatch := (executePhases executor.pipeline.phases.toList executor.jobDispatch).2
          state := .initialized }) := by
  rw [call, executePipeline, if_neg early, if_neg late]
  rfl

/-- Shutdown hands the call on. -/
theorem call_shutdown (live : executor.state ≠ .stopped) : executor.call .shutdown = (.shutDown,
    { executor with jobDispatch := executor.jobDispatch.after .shutdown, state := .stopped }) := by
  rw [call, shutdown, if_neg live]
  rfl

end RuntimePipelineExecutor

/-! ## One call, step by step -/

namespace PipelineOverDispatch

open JobDispatch
open RuntimePipelineExecutor (fullBlock)

/-- How far the executor's call has come, and what has been called in it so far. The executor is
the one before the call. -/
inductive Progress (driver : PipelineOverDispatch) (executor : RuntimePipelineExecutor) :
    List DispatchCall → Prop
  | outside (point : driver.point = .outside) (idle : driver.jobDispatch.main = .idle)
      (state : driver.state = executor.state) : Progress driver executor []
  | initializing (point : driver.point = .initializing)
      (inside : driver.jobDispatch.main.inInitialize = true)
      (created : driver.state = .created ∧ executor.state = .created) : Progress driver executor []
  | initializeAnswered {answer : Bool} (point : driver.point = .initializeAnswered answer)
      (idle : driver.jobDispatch.main = .idle) (created : executor.state = .created) :
      Progress driver executor [.initializeWith answer]
  | executing {before phases : List RuntimePhase} {phase : RuntimePhase}
      (point : driver.point = .executing phases)
      (inside : driver.jobDispatch.main.InExecutePhase phase.id driver.jobDispatch.currentPhase)
      (split : executor.pipeline.phases.toList = before ++ phase :: phases)
      (live : executor.state ≠ .created ∧ executor.state ≠ .stopped) :
      Progress driver executor (fullBlock (before.map RuntimePhase.id))
  | phaseAnswered {before phases : List RuntimePhase} {phase : RuntimePhase} {answer : Bool}
      (point : driver.point = .phaseAnswered answer phases)
      (idle : driver.jobDispatch.main = .idle)
      (split : executor.pipeline.phases.toList = before ++ phase :: phases)
      (live : executor.state ≠ .created ∧ executor.state ≠ .stopped) :
      Progress driver executor
        (fullBlock (before.map RuntimePhase.id) ++ [.executePhase phase.id answer])
  | stopping (point : driver.point = .stopping)
      (inside : driver.jobDispatch.main.inShutdown = true ∨ driver.jobDispatch.main = .fault)
      (live : executor.state ≠ .stopped) : Progress driver executor []
  | shutdownReturned (point : driver.point = .shutdownReturned)
      (idle : driver.jobDispatch.main = .idle) (live : executor.state ≠ .stopped) :
      Progress driver executor [.shutdown]

/-- What a step shows belongs to the call that the executor is in, or the call returns what it
returns when the dispatcher has given the same answers. -/
def Follows (executor : RuntimePipelineExecutor) (calls : List DispatchCall)
    (next : PipelineOverDispatch) : Event → Prop
  | .dispatched shown => Progress next executor (calls ++ shown.answered?.toList)
  | .returned outcome => executor.jobDispatch.Gives calls → ∃ later,
      executor.call outcome.call = (outcome, later) ∧
      later.jobDispatch = calls.foldl IJobDispatch.after executor.jobDispatch ∧
      later.pipeline = executor.pipeline ∧ Progress next later []

variable {driver next : PipelineOverDispatch} {executor : RuntimePipelineExecutor}
  {calls : List DispatchCall} {dispatch after : JobDispatch} {shown : Runtime.Event}
  {event : Event} {events : List Event} {choice : Choice} {index : WorkerIndex}
  {before phases : List RuntimePhase} {phase : RuntimePhase}

/-- A worker is no part of the call. -/
theorem Progress.workerStep (progress : Progress driver executor calls)
    (worked : WorkerStep driver.jobDispatch index after shown) :
    Progress { driver with jobDispatch := after } executor (calls ++ shown.answered?.toList) := by
  have unanswered : shown.answered? = none := by
    cases worked <;> rfl
  rw [unanswered, Option.toList_none, List.append_nil]
  have main := worked.frame.main
  cases progress with
  | outside point idle state => exact .outside point (main.trans idle) state
  | initializing point inside created => exact .initializing point (main ▸ inside) created
  | initializeAnswered point idle created =>
      exact .initializeAnswered point (main.trans idle) created
  | executing point inside split live =>
      refine .executing point ?_ split live
      rw [main, worked.frame.currentPhase]
      exact inside
  | phaseAnswered point idle split live => exact .phaseAnswered point (main.trans idle) split live
  | stopping point inside live => exact .stopping point (main ▸ inside) live
  | shutdownReturned point idle live => exact .shutdownReturned point (main.trans idle) live

/-- The runtime thread moves inside Initialize of the dispatcher. -/
theorem Progress.initializeStep (point : driver.point = .initializing)
    (inside : driver.jobDispatch.main.inInitialize = true)
    (created : driver.state = .created ∧ executor.state = .created)
    (moved : MainStep driver.jobDispatch after shown) :
    Progress { driver with jobDispatch := after, point := driver.point.after shown } executor
      shown.answered?.toList := by
  rw [point]
  cases moved with
  | startPool | startWorker | startWorkerFault | startedWorkers =>
      exact .initializing rfl rfl created
  | startPoolRefused | storeRunning => exact .initializeAnswered rfl rfl created.2
  | waitDone here =>
      rcases here with here | ⟨epoch, here⟩ <;> rw [here] at inside <;> cases inside
  | _ here => rw [here] at inside; cases inside

/-- The runtime thread moves inside ExecutePhase. -/
theorem Progress.executeStep (point : driver.point = .executing phases)
    (inside : driver.jobDispatch.main.InExecutePhase phase.id driver.jobDispatch.currentPhase)
    (split : executor.pipeline.phases.toList = before ++ phase :: phases)
    (live : executor.state ≠ .created ∧ executor.state ≠ .stopped)
    (moved : MainStep driver.jobDispatch after shown) :
    Progress { driver with jobDispatch := after, point := driver.point.after shown } executor
      (fullBlock (before.map RuntimePhase.id) ++ shown.answered?.toList) := by
  have going : ∀ {after shown}, shown.answered? = none →
      Point.after (.executing phases) shown = .executing phases →
      after.main.InExecutePhase phase.id after.currentPhase →
      Progress { driver with jobDispatch := after, point := Point.after (.executing phases) shown }
        executor (fullBlock (before.map RuntimePhase.id) ++ shown.answered?.toList) := by
    intro after shown unanswered same inside
    rw [unanswered, Option.toList_none, List.append_nil]
    exact .executing same inside split live
  have returned : ∀ {after answer}, after.main = .idle →
      Progress { driver with jobDispatch := after, point := .phaseAnswered answer phases } executor
        (fullBlock (before.map RuntimePhase.id) ++ [.executePhase phase.id answer]) :=
    fun idle => .phaseAnswered rfl idle split live
  rw [point]
  cases moved with
  | loadRunning here =>
      rw [here] at inside
      exact going rfl rfl inside
  | loadRunningRefused here =>
      rw [here] at inside
      obtain rfl : _ = phase.id := inside
      exact returned rfl
  | storePhase here =>
      rw [here] at inside
      refine going rfl rfl ?_
      dsimp only
      split <;> exact inside
  | build here | buildDone here | loadSeedPhase here | seedDone here | seedEnqueue here
  | seedAdd here | waitBusy here | waitEpoch here | waitRecheck here | waitReturned here =>
      rw [here] at inside
      exact going rfl rfl inside
  | seed here =>
      rw [here] at inside
      refine going rfl rfl ?_
      dsimp only [JobDispatch.setMain]
      split <;> exact inside
  | buildFault | seedFault => exact going rfl rfl trivial
  | waitDone here =>
      have current : driver.jobDispatch.currentPhase = phase.id := by
        rcases here with here | ⟨epoch, here⟩ <;> rw [here] at inside <;> exact inside
      rw [current]
      exact returned rfl
  | _ here => rw [here] at inside; exact False.elim inside

/-- The runtime thread moves inside Shutdown of the dispatcher. -/
theorem Progress.shutdownStep (point : driver.point = .stopping)
    (inside : driver.jobDispatch.main.inShutdown = true ∨ driver.jobDispatch.main = .fault)
    (live : executor.state ≠ .stopped) (moved : MainStep driver.jobDispatch after shown) :
    Progress { driver with jobDispatch := after, point := driver.point.after shown } executor
      shown.answered?.toList := by
  rw [point]
  cases moved with
  | stopPool | joinSkip | join | joined | clearActive | clearEpoch | clearPhase | clearCounters =>
      exact .stopping rfl (.inl rfl) live
  | joinFault => exact .stopping rfl (.inr rfl) live
  | cleared => exact .shutdownReturned rfl rfl live
  | waitDone here =>
      rcases here with here | ⟨epoch, here⟩ <;> simp [here, MainState.inShutdown] at inside
  | _ here => simp [here, MainState.inShutdown] at inside

/-- The loop of ExecutePipeline calls the next phase, or all have been agreed to. -/
theorem Progress.nextPhase (idle : driver.jobDispatch.main = .idle)
    (split : executor.pipeline.phases.toList = before ++ phases)
    (live : executor.state ≠ .created ∧ executor.state ≠ .stopped)
    (transition : driver.executePhases phases = some (next, event)) :
    Follows executor (fullBlock (before.map RuntimePhase.id)) next event := by
  cases phases with
  | nil =>
      cases transition
      intro gives
      have called := RuntimePipelineExecutor.call_executePipeline live.1 live.2
      rw [split, RuntimePipelineExecutor.executePhases_append gives] at called
      exact ⟨_, called, rfl, rfl, .outside rfl idle rfl⟩
  | cons phase phases =>
      obtain ⟨after, shown, moved, -, rfl, rfl⟩ := advance_eq_some transition
      cases moved with
      | calledPhase =>
          change Progress _ executor (fullBlock (before.map RuntimePhase.id) ++ [])
          rw [List.append_nil]
          exact .executing rfl rfl split live

/-- The runtime thread takes its next step inside a call. -/
theorem Progress.mainStep (progress : Progress driver executor calls)
    (transition : driver.mainStep = some (next, event)) : Follows executor calls next event := by
  unfold PipelineOverDispatch.mainStep at transition
  cases progress with
  | outside point =>
      rw [point] at transition
      cases transition
  | initializing point inside created =>
      rw [point] at transition
      obtain ⟨after, shown, moved, -, rfl, rfl⟩ := advance_eq_some transition
      cases moved with
      | main moved => exact initializeStep point inside created moved
  | initializeAnswered point idle created =>
      rw [point] at transition
      cases transition
      intro gives
      refine ⟨_, RuntimePipelineExecutor.call_initializeDispatch created gives, rfl, rfl, ?_⟩
      exact .outside rfl idle rfl
  | executing point inside split live =>
      rw [point] at transition
      obtain ⟨after, shown, moved, -, rfl, rfl⟩ := advance_eq_some transition
      cases moved with
      | main moved => exact executeStep point inside split live moved
  | @phaseAnswered before phases phase answer point idle split live =>
      rw [point] at transition
      cases answer with
      | true =>
          rw [← RuntimePipelineExecutor.fullBlock_concat]
          refine nextPhase idle ?_ live transition
          rw [split, List.append_assoc, List.singleton_append]
      | false =>
          cases transition
          intro gives
          obtain ⟨passed, refused, -⟩ := IJobDispatch.gives_append.mp gives
          have called := RuntimePipelineExecutor.call_executePipeline live.1 live.2
          rw [split, RuntimePipelineExecutor.executePhases_append passed,
            RuntimePipelineExecutor.executePhases, RuntimePipelineExecutor.executePhase,
            IJobDispatch.executePhase, refused false rfl] at called
          refine ⟨_, called, ?_, rfl, .outside rfl idle rfl⟩
          rw [List.foldl_append]
          rfl
  | stopping point inside live =>
      rw [point] at transition
      obtain ⟨after, shown, moved, -, rfl, rfl⟩ := advance_eq_some transition
      cases moved with
      | main moved => exact shutdownStep point inside live moved
  | shutdownReturned point idle live =>
      rw [point] at transition
      cases transition
      intro gives
      exact ⟨_, RuntimePipelineExecutor.call_shutdown live, rfl, rfl, .outside rfl idle rfl⟩

/-- The thread constructor throws inside Initialize, and the exception leaves the executor. -/
theorem Progress.threadFailure (progress : Progress driver executor calls)
    (transition : driver.advance .threadFailure = some (next, event)) :
    Follows executor calls next event := by
  obtain ⟨after, shown, moved, -, rfl, rfl⟩ := advance_eq_some transition
  cases moved with
  | threadFailure here =>
      cases progress with
      | outside point idle | initializeAnswered point idle | phaseAnswered point idle
      | shutdownReturned point idle =>
          rw [here] at idle
          cases idle
      | initializing point inside created =>
          rw [point]
          exact .outside rfl rfl (created.1.trans created.2.symm)
      | executing point inside =>
          rw [here] at inside
          exact False.elim inside
      | stopping point inside =>
          simp [here, MainState.inShutdown] at inside

/-- A call of Initialize. -/
theorem Progress.initializeDispatch {hardwareConcurrency : Nat}
    (idle : driver.jobDispatch.main = .idle) (state : driver.state = executor.state)
    (outside : driver.point = .outside)
    (transition : driver.initializeDispatch hardwareConcurrency = some (next, event)) :
    Follows executor [] next event := by
  rw [PipelineOverDispatch.initializeDispatch] at transition
  split at transition
  · next already =>
    cases transition
    intro gives
    refine ⟨executor, ?_, rfl, rfl, .outside outside idle state⟩
    have rejected := executor.obeys.rejectsInitialize (state ▸ already)
    exact congrArg (Prod.map RuntimePipelineExecutor.Outcome.initialized id) rejected
  · next fresh =>
    have created := not_not.mp fresh
    obtain ⟨after, shown, moved, -, rfl, rfl⟩ := advance_eq_some transition
    cases moved with
    | initializeRefused => exact .initializeAnswered rfl idle (state.symm.trans created)
    | initializeFault => exact .initializing rfl rfl ⟨created, state.symm.trans created⟩
    | initializeBound => exact .initializing rfl rfl ⟨created, state.symm.trans created⟩

/-- A call of ExecutePipeline. -/
theorem Progress.executePipeline (idle : driver.jobDispatch.main = .idle)
    (state : driver.state = executor.state) (same : executor.pipeline = driver.pipeline)
    (outside : driver.point = .outside)
    (transition : driver.executePipeline = some (next, event)) :
    Follows executor [] next event := by
  rw [PipelineOverDispatch.executePipeline] at transition
  split at transition
  · next created =>
    cases transition
    intro gives
    refine ⟨executor, ?_, rfl, rfl, .outside outside idle state⟩
    have rejected := executor.obeys.rejectsEarly (state ▸ created)
    exact congrArg (Prod.map RuntimePipelineExecutor.Outcome.executed id) rejected
  · next early =>
    split at transition
    · next stopped =>
      cases transition
      intro gives
      refine ⟨executor, ?_, rfl, rfl, .outside outside idle state⟩
      have rejected := executor.obeys.rejectsLate (state ▸ stopped)
      exact congrArg (Prod.map RuntimePipelineExecutor.Outcome.executed id) rejected
    · next late =>
      rw [← same] at transition
      have all : executor.pipeline.phases.toList = [] ++ executor.pipeline.phases.toList := rfl
      refine nextPhase ?_ all ⟨state ▸ early, state ▸ late⟩ transition
      exact idle

/-- A call of Shutdown. -/
theorem Progress.shutdown (idle : driver.jobDispatch.main = .idle)
    (state : driver.state = executor.state) (outside : driver.point = .outside)
    (transition : driver.shutdown = some (next, event)) : Follows executor [] next event := by
  rw [PipelineOverDispatch.shutdown] at transition
  split at transition
  · next stopped =>
    cases transition
    intro gives
    refine ⟨executor, ?_, rfl, rfl, .outside outside idle state⟩
    exact congrArg (Prod.mk RuntimePipelineExecutor.Outcome.shutDown)
      (executor.obeys.staysDown (state ▸ stopped))
  · next live =>
    obtain ⟨after, shown, moved, -, rfl, rfl⟩ := advance_eq_some transition
    cases moved with
    | calledShutdown => exact .stopping rfl (.inl rfl) (state ▸ live)
    | ignoredShutdown => exact .shutdownReturned rfl idle (state ▸ live)

/-- Outside of a call nothing has been called in it. -/
theorem Progress.of_outside (progress : Progress driver executor calls)
    (outside : driver.point = .outside) :
    calls = [] ∧ driver.jobDispatch.main = .idle ∧ driver.state = executor.state := by
  cases progress with
  | outside _ idle state => exact ⟨rfl, idle, state⟩
  | _ point => rw [point] at outside; cases outside

/-- Every step of the two together is one of the executor's call. -/
theorem Progress.step (progress : Progress driver executor calls)
    (same : executor.pipeline = driver.pipeline)
    (transition : driver.step choice = some (next, event)) : Follows executor calls next event := by
  cases choice with
  | worker index =>
      obtain ⟨⟨after, shown⟩, taken, same⟩ := Option.map_eq_some_iff.mp transition
      cases same
      have moved : SystemStep driver.jobDispatch (.worker index) after shown := step_sound taken
      cases moved with
      | worker worked => exact progress.workerStep worked
  | threadFailure => exact progress.threadFailure transition
  | main => exact progress.mainStep transition
  | initializeDispatch hardwareConcurrency =>
      obtain ⟨outside, called⟩ := Option.ite_none_right_eq_some.mp transition
      obtain ⟨rfl, idle, state⟩ := progress.of_outside outside
      exact Progress.initializeDispatch idle state outside called
  | executePipeline =>
      obtain ⟨outside, called⟩ := Option.ite_none_right_eq_some.mp transition
      obtain ⟨rfl, idle, state⟩ := progress.of_outside outside
      exact Progress.executePipeline idle state same outside called
  | shutdown =>
      obtain ⟨outside, called⟩ := Option.ite_none_right_eq_some.mp transition
      obtain ⟨rfl, idle, state⟩ := progress.of_outside outside
      exact Progress.shutdown idle state outside called

/-! ## Every run -/

/-- The call of the dispatcher that is answered in a step. -/
def Event.answered? (event : Event) : Option DispatchCall :=
  event.dispatched?.bind Runtime.Event.answered?

/-- What has been called on the dispatcher, with its answers. -/
def answeredCalls (events : List Event) : List DispatchCall := events.filterMap Event.answered?

/-- A call of the executor that returns, with its outcome. -/
def Event.returned? :
    Event → Option (RuntimePipelineExecutor.Call × RuntimePipelineExecutor.Outcome)
  | .returned outcome => some (outcome.call, outcome)
  | .dispatched _ => none

/-- The calls of the executor that have returned. -/
def returnedCalls (events : List Event) :
    List (RuntimePipelineExecutor.Call × RuntimePipelineExecutor.Outcome) :=
  events.filterMap Event.returned?

/-- The executor before the call in progress, and what that call has called. -/
structure Behind (answers : Nat → Bool) (events : List Event) (driver : PipelineOverDispatch)
    (executor : RuntimePipelineExecutor) (before calls : List DispatchCall) : Prop where
  answered : answeredCalls events = before ++ calls
  dispatch : executor.jobDispatch = before.foldl IJobDispatch.after ⟨answers, []⟩
  pipeline : executor.pipeline = driver.pipeline
  progress : Progress driver executor calls

/-- Where the dispatcher seen from outside gives the answers of the run, the executor has
returned the same from every call. -/
theorem behind_of_runs {pipeline : RuntimePipeline} {graph : TaskGraph} {registry : TaskRegistry}
    (run : system.Runs (constructed pipeline graph registry) events driver) {answers : Nat → Bool}
    (gives : IJobDispatch.Gives ⟨answers, []⟩ (answeredCalls events)) :
    ∃ executor before calls, RuntimePipelineExecutor.system.Runs
      (.constructed pipeline answers) (returnedCalls events) executor ∧
      Behind answers events driver executor before calls := by
  revert gives
  apply run.invariant fun events driver => IJobDispatch.Gives ⟨answers, []⟩ (answeredCalls events) →
    ∃ executor before calls, RuntimePipelineExecutor.system.Runs
      (.constructed pipeline answers) (returnedCalls events) executor ∧
      Behind answers events driver executor before calls
  · exact fun _ => ⟨_, [], [], .refl, rfl, rfl, rfl, .outside rfl rfl rfl⟩
  · intro events driver choice next event _ earlier transition _ gives
    rw [answeredCalls, filterMap_concat] at gives
    obtain ⟨executor, before, calls, matched, behind⟩ :=
      earlier (IJobDispatch.gives_append.mp gives).1
    have follows := behind.progress.step behind.pipeline transition
    have kept : executor.pipeline = next.pipeline :=
      behind.pipeline.trans (step_keeps transition).1.symm
    cases event with
    | dispatched shown =>
        refine ⟨executor, before, calls ++ shown.answered?.toList, ?_, ?_, behind.dispatch, kept,
          follows⟩
        · rw [returnedCalls, filterMap_concat]
          exact (List.append_nil (returnedCalls events)).symm ▸ matched
        · rw [answeredCalls, filterMap_concat, ← List.append_assoc, ← behind.answered]
          rfl
    | returned outcome =>
        have sofar := (IJobDispatch.gives_append.mp gives).1
        rw [← answeredCalls, behind.answered] at sofar
        have given := (IJobDispatch.gives_append.mp sofar).2
        rw [← behind.dispatch] at given
        obtain ⟨later, called, dispatch, same, progress⟩ := follows given
        refine ⟨later, before ++ calls, [], ?_, ?_, ?_, same.trans kept, progress⟩
        · rw [returnedCalls, filterMap_concat]
          have step : RuntimePipelineExecutor.system.step executor outcome.call =
              some (later, outcome.call, outcome) :=
            congrArg (fun result : RuntimePipelineExecutor.Outcome × RuntimePipelineExecutor =>
              some (result.2, outcome.call, result.1)) called
          exact matched.step step trivial
        · rw [answeredCalls, filterMap_concat, List.append_nil, ← behind.answered]
          exact List.append_nil _
        · rw [dispatch, behind.dispatch, List.foldl_append]

/-- Every run over the real dispatcher is one of the executor over a dispatcher seen from
outside: every call has returned the same, and between two calls the executor is in the same
state and the same has been called on the dispatcher, with the same answers and by the
protocol. -/
theorem executor_over_dispatch (pipeline : RuntimePipeline) (graph : TaskGraph)
    (registry : TaskRegistry) (events : List Event) (driver : PipelineOverDispatch)
    (run : system.Runs (constructed pipeline graph registry) events driver) :
    ∃ answers executor, RuntimePipelineExecutor.system.Runs (.constructed pipeline answers)
      (returnedCalls events) executor ∧
      (driver.point = .outside → driver.state = executor.state ∧
        answeredCalls events = executor.jobDispatch.calls ∧
        RuntimePipelineExecutor.Protocol pipeline.ids (answeredCalls events) driver.state) := by
  obtain ⟨answers, gives⟩ := IJobDispatch.exists_gives (answeredCalls events)
  obtain ⟨executor, before, calls, matched, behind⟩ := behind_of_runs run (gives [])
  refine ⟨answers, executor, matched, fun outside => ?_⟩
  obtain ⟨rfl, -, state⟩ := behind.progress.of_outside outside
  have called : answeredCalls events = executor.jobDispatch.calls := by
    rw [behind.answered, behind.dispatch, IJobDispatch.calls_foldl, List.append_nil,
      List.nil_append]
  refine ⟨state, called, ?_⟩
  rw [state, called]
  exact (RuntimePipelineExecutor.protocol_of_runs matched).2

/-- One tick of the join between Initialize and Shutdown, with a call in each state that is
rejected: the dispatcher has been called to start, for every phase and to stop. -/
theorem join_over_dispatch : ∃ events driver answers executor,
    system.Runs (constructed {} .joinGraph .full) events driver ∧
    RuntimePipelineExecutor.system.Runs (.constructed {} answers) (returnedCalls events) executor ∧
    (returnedCalls events).map Prod.fst = [.executePipeline, .initializeDispatch, .executePipeline,
      .initializeDispatch, .shutdown, .executePipeline] ∧
    executor.state = .stopped ∧
    executor.jobDispatch.calls = .initializeWith true :: fullBlock phaseOrder ++ [.shutdown] := by
  obtain ⟨events, driver, run, returned, answered, state, point⟩ := system.runs_of_exec
    (fun _ _ _ _ => True) (constructed {} .joinGraph .full)
    (.executePipeline :: .initializeDispatch 2 :: List.replicate 6 .main ++
      joinTick (work 0 2 ++ work 1 8 ++ work 0 6) (work 1 7) ++
      [.initializeDispatch 2, .shutdown, .main] ++ work 0 3 ++ work 1 3 ++
      List.replicate 264 .main ++ [.executePipeline])
    (fun driver events =>
      (returnedCalls events).map Prod.fst = [.executePipeline, .initializeDispatch,
        .executePipeline, .initializeDispatch, .shutdown, .executePipeline] ∧
      answeredCalls events = .initializeWith true :: fullBlock phaseOrder ++ [.shutdown] ∧
      driver.state = .stopped ∧ driver.point = .outside)
    (by decide +kernel)
  obtain ⟨answers, executor, matched, between⟩ :=
    executor_over_dispatch {} .joinGraph .full events driver run
  obtain ⟨same, called, -⟩ := between point
  exact ⟨events, driver, answers, executor, run, matched, returned, same.symm.trans state,
    called.symm.trans answered⟩

end PipelineOverDispatch
end MmoServer.Runtime
