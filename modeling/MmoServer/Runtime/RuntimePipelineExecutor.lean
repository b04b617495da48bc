import MmoServer.Runtime.TaskGraph
import MmoServer.Semantics.Transition

/-!
# RuntimePipelineExecutor

The executor drives an `IJobDispatch` through its lifecycle: Initialize until the
dispatcher agrees, then a round of phases per ExecutePipeline, then Shutdown. The
dispatcher is seen from outside: it answers true or false in any order, and
`calls` is what has been called on it, with the answers.

Initialize hands the graph, the context and the registry through without looking at
them, and nothing reads the configuration, so they are left out.
-/

namespace MmoServer.Runtime

open MmoServer.Semantics

/-- One phase of the pipeline. -/
structure RuntimePhase where
  id : RuntimePhaseId := .input
deriving DecidableEq

/-- The phases that ExecutePipeline goes through, by default all four in order. -/
structure RuntimePipeline where
  phases : Vector RuntimePhase runtimePhaseCountV1 :=
    #v[⟨.input⟩, ⟨.simulation⟩, ⟨.postSimulation⟩, ⟨.output⟩]

/-- The phases in the order of the iterator. -/
def RuntimePipeline.ids (pipeline : RuntimePipeline) : List RuntimePhaseId :=
  pipeline.phases.toList.map RuntimePhase.id

/-- The lifecycle of the executor. -/
inductive RuntimePipelineExecutorState where
  | created
  | initialized
  | running
  | stopping
  | stopped
deriving DecidableEq

/-- What ExecutePipeline returns. -/
inductive RuntimeExecutionResult where
  | success
  | emptyPipeline
  | invalidPipeline
  | dispatchFailure
  | cancelled
deriving DecidableEq

/-- A call of the dispatcher, with its answer. -/
inductive DispatchCall where
  | initializeWith (answer : Bool)
  | executePhase (phase : RuntimePhaseId) (answer : Bool)
  | shutdown
deriving DecidableEq

/-- The dispatcher from outside: its answers one after the other, and its calls. -/
structure IJobDispatch where
  answers : Nat → Bool
  calls : List DispatchCall := []

namespace IJobDispatch

/-- The next answer is taken. -/
def answered (dispatch : IJobDispatch) (call : DispatchCall) : IJobDispatch where
  answers n := dispatch.answers (n + 1)
  calls := dispatch.calls ++ [call]

/-- IJobDispatch::Initialize, with the next answer. -/
def initializeWith (dispatch : IJobDispatch) : Bool × IJobDispatch :=
  (dispatch.answers 0, dispatch.answered (.initializeWith (dispatch.answers 0)))

/-- IJobDispatch::ExecutePhase, with the next answer. -/
def executePhase (dispatch : IJobDispatch) (phase : RuntimePhaseId) : Bool × IJobDispatch :=
  (dispatch.answers 0, dispatch.answered (.executePhase phase (dispatch.answers 0)))

/-- IJobDispatch::Shutdown, which answers nothing. -/
def shutdown (dispatch : IJobDispatch) : IJobDispatch :=
  { dispatch with calls := dispatch.calls ++ [.shutdown] }

end IJobDispatch

/-- The executor with its pipeline and its dispatcher. -/
structure RuntimePipelineExecutor where
  pipeline : RuntimePipeline
  jobDispatch : IJobDispatch
  state : RuntimePipelineExecutorState := .created

namespace RuntimePipelineExecutor

/-- RuntimePipelineExecutor::Initialize. -/
def initializeDispatch (executor : RuntimePipelineExecutor) :
    Except String Bool × RuntimePipelineExecutor :=
  if executor.state ≠ .created then
    (.error "RuntimePipelineExecutor already initialized", executor)
  else
    let (agreed, jobDispatch) := executor.jobDispatch.initializeWith
    if !agreed then (.ok false, { executor with jobDispatch })
    else (.ok true, { executor with jobDispatch, state := .initialized })

/-- RuntimePipelineExecutor::Shutdown. -/
def shutdown (executor : RuntimePipelineExecutor) : RuntimePipelineExecutor :=
  if executor.state = .stopped then executor
  else
    let stopping := { executor with state := .stopping }
    { stopping with jobDispatch := stopping.jobDispatch.shutdown, state := .stopped }

/-- RuntimePipelineExecutor::ExecutePhase. -/
def executePhase (jobDispatch : IJobDispatch) (phase : RuntimePhase) :
    RuntimeExecutionResult × IJobDispatch :=
  let (agreed, jobDispatch) := jobDispatch.executePhase phase.id
  if !agreed then (.dispatchFailure, jobDispatch) else (.success, jobDispatch)

/-- The loop of ExecutePipeline. -/
def executePhases : List RuntimePhase → IJobDispatch → RuntimeExecutionResult × IJobDispatch
  | [], jobDispatch => (.success, jobDispatch)
  | phase :: phases, jobDispatch =>
    let (result, jobDispatch) := executePhase jobDispatch phase
    if result ≠ .success then (result, jobDispatch) else executePhases phases jobDispatch

/-- RuntimePipelineExecutor::ExecutePipeline. Both ways out of the loop go back to
`Initialized`. -/
def executePipeline (executor : RuntimePipelineExecutor) :
    Except String RuntimeExecutionResult × RuntimePipelineExecutor :=
  if executor.state = .created then (.error "ExecutePipeline before Initialize", executor)
  else if executor.state = .stopped then (.error "ExecutePipeline after Shutdown", executor)
  else
    let running := { executor with state := .running }
    let (result, jobDispatch) := executePhases running.pipeline.phases.toList running.jobDispatch
    (.ok result, { running with jobDispatch, state := .initialized })

/-- A call of the owner. -/
inductive Call where
  | initializeDispatch
  | executePipeline
  | shutdown
deriving DecidableEq

/-- What a call gives back to its caller. -/
inductive Outcome where
  | initialized (result : Except String Bool)
  | executed (result : Except String RuntimeExecutionResult)
  | shutDown

/-- One call of the executor, and what its caller gets. -/
def call (executor : RuntimePipelineExecutor) : Call → Outcome × RuntimePipelineExecutor
  | .initializeDispatch => executor.initializeDispatch.map .initialized id
  | .executePipeline => executor.executePipeline.map .executed id
  | .shutdown => (.shutDown, executor.shutdown)

/-- The executor under any sequence of calls. -/
def system : TransitionSystem RuntimePipelineExecutor Call (Call × Outcome) where
  step executor choice :=
    let (outcome, next) := executor.call choice
    some (next, choice, outcome)

/-- RuntimePipelineExecutor::RuntimePipelineExecutor. -/
def constructed (pipeline : RuntimePipeline) (answers : Nat → Bool) : RuntimePipelineExecutor where
  pipeline
  jobDispatch := { answers }

/-! ## The protocol -/

/-- All phases, answered with true. -/
def fullBlock (phases : List RuntimePhaseId) : List DispatchCall :=
  phases.map fun phase => .executePhase phase true

/-- The phases in order, up to and including the first that is answered with false. -/
def Block (phases : List RuntimePhaseId) (block : List DispatchCall) : Prop :=
  block = fullBlock phases ∨
    ∃ before phase after, phases = before ++ phase :: after ∧
      block = fullBlock before ++ [.executePhase phase false]

/-- Initialize was refused so many times. -/
def refusals (count : Nat) : List DispatchCall := List.replicate count (.initializeWith false)

/-- Refusals, one agreement, and blocks. -/
def Active (phases : List RuntimePhaseId) (calls : List DispatchCall) : Prop :=
  ∃ count blocks, calls = refusals count ++ .initializeWith true :: List.flatten blocks ∧
    ∀ block ∈ blocks, Block phases block

/-- What has been called on the dispatcher of an executor in the state. -/
def Protocol (phases : List RuntimePhaseId) (calls : List DispatchCall) :
    RuntimePipelineExecutorState → Prop
  | .created => ∃ count, calls = refusals count
  | .initialized => Active phases calls
  | .stopped => ∃ before, calls = before ++ [.shutdown] ∧
      ((∃ count, before = refusals count) ∨ Active phases before)
  -- No call leaves the executor in these states.
  | .running | .stopping => False

/-- What each call does: the calls of the dispatcher that it makes, what it returns and
the state it leaves. -/
structure Obeys (executor : RuntimePipelineExecutor) : Prop where
  initializes : executor.state = .created → ∃ answer next,
    executor.initializeDispatch = (.ok answer, next) ∧
    next.jobDispatch.calls = executor.jobDispatch.calls ++ [.initializeWith answer] ∧
    next.state = if answer then .initialized else .created
  rejectsInitialize : executor.state ≠ .created → executor.initializeDispatch =
    (.error "RuntimePipelineExecutor already initialized", executor)
  executes : executor.state ≠ .created → executor.state ≠ .stopped → ∃ result block next,
    executor.executePipeline = (.ok result, next) ∧
    next.jobDispatch.calls = executor.jobDispatch.calls ++ block ∧
    Block executor.pipeline.ids block ∧
    (result = .success ↔ block = fullBlock executor.pipeline.ids) ∧
    (result = .success ∨ result = .dispatchFailure) ∧ next.state = .initialized
  rejectsEarly : executor.state = .created → executor.executePipeline =
    (.error "ExecutePipeline before Initialize", executor)
  rejectsLate : executor.state = .stopped → executor.executePipeline =
    (.error "ExecutePipeline after Shutdown", executor)
  shutsDown : executor.state ≠ .stopped →
    executor.shutdown.jobDispatch.calls = executor.jobDispatch.calls ++ [.shutdown] ∧
    executor.shutdown.state = .stopped
  staysDown : executor.state = .stopped → executor.shutdown = executor

variable {pipeline : RuntimePipeline} {answers : Nat → Bool}
  {executor next : RuntimePipelineExecutor} {phases : List RuntimePhaseId}
  {calls block : List DispatchCall} {events : List (Call × Outcome)} {choice : Call}
  {outcome : Outcome}

theorem fullBlock_cons (phase : RuntimePhaseId) (phases : List RuntimePhaseId) :
    fullBlock (phase :: phases) = .executePhase phase true :: fullBlock phases := rfl

/-- A phase that has been agreed to goes before a block. -/
theorem Block.cons (obeys : Block phases block) (phase : RuntimePhaseId) :
    Block (phase :: phases) (.executePhase phase true :: block) := by
  rcases obeys with rfl | ⟨before, failed, after, rfl, rfl⟩
  · exact .inl rfl
  · exact .inr ⟨phase :: before, failed, after, rfl, rfl⟩

/-- The loop makes a block, and fails exactly when the block is cut short. -/
theorem executePhases_spec (phases : List RuntimePhase) (jobDispatch : IJobDispatch) :
    ∃ result block next, executePhases phases jobDispatch = (result, next) ∧
      next.calls = jobDispatch.calls ++ block ∧ Block (phases.map RuntimePhase.id) block ∧
      (result = .success ↔ block = fullBlock (phases.map RuntimePhase.id)) ∧
      (result = .success ∨ result = .dispatchFailure) := by
  induction phases generalizing jobDispatch with
  | nil =>
      exact ⟨.success, [], jobDispatch, rfl, (List.append_nil _).symm, .inl rfl, by simp [fullBlock]⟩
  | cons phase phases ih =>
      rw [executePhases, executePhase, IJobDispatch.executePhase]
      dsimp only
      cases answer : jobDispatch.answers 0 with
      | false =>
          refine ⟨.dispatchFailure, [.executePhase phase.id false], _, rfl, rfl,
            .inr ⟨[], phase.id, _, rfl, rfl⟩, iff_of_false (by decide) ?_, .inr rfl⟩
          rw [List.map_cons, fullBlock_cons]
          simp
      | true =>
          obtain ⟨result, block, next, done, made, obeys, full, cases_⟩ :=
            ih (jobDispatch.answered (.executePhase phase.id true))
          refine ⟨result, .executePhase phase.id true :: block, next, done, ?_, obeys.cons _, ?_,
            cases_⟩
          · rw [made, IJobDispatch.answered, List.append_assoc]
            rfl
          · rw [full, List.map_cons, fullBlock_cons, List.cons_inj_right]

/-- Every call does what is expected of it. -/
theorem obeys (executor : RuntimePipelineExecutor) : Obeys executor where
  initializes := by
    intro created
    rw [initializeDispatch, if_neg (not_not.mpr created), IJobDispatch.initializeWith]
    dsimp only
    cases executor.jobDispatch.answers 0 with
    | false => exact ⟨false, _, rfl, rfl, created⟩
    | true => exact ⟨true, _, rfl, rfl, rfl⟩
  rejectsInitialize := by
    intro already
    rw [initializeDispatch, if_pos already]
  executes := by
    intro early late
    obtain ⟨result, block, next, done, made, obeys, full, outcome⟩ :=
      executePhases_spec executor.pipeline.phases.toList executor.jobDispatch
    refine ⟨result, block, { executor with jobDispatch := next, state := .initialized }, ?_, made,
      obeys, full, outcome, rfl⟩
    rw [executePipeline, if_neg early, if_neg late]
    dsimp only
    rw [done]
  rejectsEarly := by
    intro created
    rw [executePipeline, if_pos created]
  rejectsLate := by
    intro stopped
    rw [executePipeline, if_neg (by rw [stopped]; decide), if_pos stopped]
  shutsDown := by
    intro live
    rw [shutdown, if_neg live]
    exact ⟨rfl, rfl⟩
  staysDown := by
    intro stopped
    rw [shutdown, if_pos stopped]

/-! ## Every run -/

/-- One more refusal. -/
theorem refusals_concat (count : Nat) :
    refusals count ++ [.initializeWith false] = refusals (count + 1) :=
  List.replicate_succ'.symm

/-- One more block. -/
theorem Active.concat (active : Active phases calls) (obeys : Block phases block) :
    Active phases (calls ++ block) := by
  obtain ⟨count, blocks, rfl, each⟩ := active
  refine ⟨count, blocks ++ [block], ?_, ?_⟩
  · rw [List.flatten_append, List.flatten_singleton, List.append_assoc, List.cons_append]
  · intro other member
    rcases List.mem_append.mp member with earlier | last
    · exact each other earlier
    · exact List.mem_singleton.mp last ▸ obeys

/-- No call replaces the pipeline. -/
theorem pipeline_call (executor : RuntimePipelineExecutor) (choice : Call) :
    (executor.call choice).2.pipeline = executor.pipeline := by
  cases choice with
  | initializeDispatch =>
      change executor.initializeDispatch.2.pipeline = _
      rw [initializeDispatch]
      split
      · rfl
      · dsimp only
        split <;> rfl
  | executePipeline =>
      change executor.executePipeline.2.pipeline = _
      rw [executePipeline]
      split
      · rfl
      · split <;> rfl
  | shutdown =>
      change executor.shutdown.pipeline = _
      rw [shutdown]
      split <;> rfl

/-- A new executor has called nothing. -/
theorem protocol_constructed (pipeline : RuntimePipeline) (answers : Nat → Bool) :
    Protocol phases (constructed pipeline answers).jobDispatch.calls
      (constructed pipeline answers).state := ⟨0, rfl⟩

/-- Initialize adds a refusal or the agreement, and only where nothing has agreed yet. -/
theorem Protocol.initializeDispatch
    (protocol : Protocol phases executor.jobDispatch.calls executor.state) :
    Protocol phases executor.initializeDispatch.2.jobDispatch.calls
      executor.initializeDispatch.2.state := by
  by_cases created : executor.state = .created
  · obtain ⟨answer, next, done, made, state⟩ := executor.obeys.initializes created
    rw [created] at protocol
    obtain ⟨count, before⟩ := protocol
    rw [done]
    dsimp only
    rw [made, state, before]
    cases answer with
    | false => exact ⟨count + 1, refusals_concat count⟩
    | true => exact ⟨count, [], rfl, fun block member => absurd member List.not_mem_nil⟩
  · rw [executor.obeys.rejectsInitialize created]
    exact protocol

/-- ExecutePipeline adds a block, and only after the agreement. -/
theorem Protocol.executePipeline
    (protocol : Protocol executor.pipeline.ids executor.jobDispatch.calls executor.state) :
    Protocol executor.pipeline.ids executor.executePipeline.2.jobDispatch.calls
      executor.executePipeline.2.state := by
  cases state : executor.state with
  | created =>
      rw [executor.obeys.rejectsEarly state]
      exact protocol
  | stopped =>
      rw [executor.obeys.rejectsLate state]
      exact protocol
  | initialized =>
      obtain ⟨result, block, next, done, made, obeys, -, -, after⟩ :=
        executor.obeys.executes (by rw [state]; decide) (by rw [state]; decide)
      rw [state] at protocol
      rw [done]
      dsimp only
      rw [made, after]
      exact Active.concat protocol obeys
  | running | stopping =>
      rw [state] at protocol
      exact protocol.elim

/-- Shutdown adds its call, and only once. -/
theorem Protocol.shutdown
    (protocol : Protocol phases executor.jobDispatch.calls executor.state) :
    Protocol phases executor.shutdown.jobDispatch.calls executor.shutdown.state := by
  by_cases stopped : executor.state = .stopped
  · rw [executor.obeys.staysDown stopped]
    exact protocol
  · obtain ⟨made, after⟩ := executor.obeys.shutsDown stopped
    rw [made, after]
    refine ⟨_, rfl, ?_⟩
    cases state : executor.state with
    | created =>
        rw [state] at protocol
        exact .inl protocol
    | initialized =>
        rw [state] at protocol
        exact .inr protocol
    | stopped => exact absurd state stopped
    | running | stopping =>
        rw [state] at protocol
        exact protocol.elim

/-- The protocol is kept along every run. -/
theorem protocol_of_runs (run : system.Runs (constructed pipeline answers) events executor) :
    executor.pipeline = pipeline ∧
      Protocol pipeline.ids executor.jobDispatch.calls executor.state := by
  apply run.invariant fun _ (executor : RuntimePipelineExecutor) => executor.pipeline = pipeline ∧
    Protocol pipeline.ids executor.jobDispatch.calls executor.state
  · exact ⟨rfl, protocol_constructed pipeline answers⟩
  · rintro events executor choice next event - ⟨rfl, protocol⟩ transition -
    obtain ⟨rfl, -⟩ := Prod.mk.inj (Option.some.inj transition)
    refine ⟨pipeline_call executor choice, ?_⟩
    cases choice with
    | initializeDispatch => exact protocol.initializeDispatch
    | executePipeline => exact protocol.executePipeline
    | shutdown => exact protocol.shutdown

/-- Whatever is called on the executor and whatever the dispatcher answers, the calls of
the dispatcher keep to the protocol, and every call does what is expected of it. -/
theorem executor_follows_protocol (pipeline : RuntimePipeline) (answers : Nat → Bool)
    (run : system.Runs (constructed pipeline answers) events executor) :
    Protocol pipeline.ids executor.jobDispatch.calls executor.state ∧
      executor.pipeline = pipeline ∧ executor.Obeys :=
  have ⟨same, protocol⟩ := protocol_of_runs run
  ⟨protocol, same, executor.obeys⟩

/-- Refused once, then started, stopped in the second phase and shut down twice. -/
theorem failing_pipeline_follows_protocol : ∃ executor : RuntimePipelineExecutor,
    executor.jobDispatch.calls =
      [.initializeWith false, .initializeWith true, .executePhase .input true,
        .executePhase .simulation false, .shutdown] ∧
    Protocol [.input, .simulation, .postSimulation, .output] executor.jobDispatch.calls .stopped := by
  have first : system.Runs (constructed {} fun n => n = 1 ∨ n = 2) _ _ :=
    .step (.step (.step (.step (.step .refl
      (show system.step _ .initializeDispatch = some (_, _) from rfl) trivial)
      (show system.step _ .initializeDispatch = some (_, _) from rfl) trivial)
      (show system.step _ .executePipeline = some (_, _) from rfl) trivial)
      (show system.step _ .shutdown = some (_, _) from rfl) trivial)
      (show system.step _ .shutdown = some (_, _) from rfl) trivial
  exact ⟨_, rfl, (executor_follows_protocol _ _ first).1⟩

end RuntimePipelineExecutor
end MmoServer.Runtime
