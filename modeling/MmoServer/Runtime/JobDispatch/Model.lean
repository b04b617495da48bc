import MmoServer.Runtime.TaskRegistry
import MmoServer.Semantics.Transition
import MmoServer.Std.BoundedQueue

/-!
# JobDispatch and its worker pool, one atomic operation at a time

`JobDispatch` holds the fields of the dispatcher and of the pool it owns, and
for every thread the point it has reached (`MainState`, `WorkerState`). One
step of a thread is one atomic load, store, fetch_add or fetch_sub, one queue
operation, or the start or end of a task function; plain control flow is
folded into the step before it. The ready queue is an atomic bounded FIFO and
memory is sequentially consistent.

An index outside its array, and a dereference of a null graph or registry,
sends the thread to its `fault` state, where it stays.
-/

namespace MmoServer.Runtime

open MmoServer.Std MmoServer.Semantics

/-- WorkerPool::kMaxHardwareWorkers. -/
abbrev maxHardwareWorkers : Nat := 32

/-- A slot of `m_threads`. -/
abbrev WorkerIndex := Fin maxHardwareWorkers

/-- Where a worker slot is in WorkerPool::WorkerLoop and in the calls it makes. -/
inductive WorkerState where
  /-- The slot holds no joinable thread. -/
  | unstarted
  /-- At the loop test `m_running.load`. -/
  | checkRunning
  /-- At `readyQueue->Dequeue`. -/
  | dequeue
  /-- About to enter ExecuteTask. -/
  | execute (task : TaskId)
  /-- Inside the task function. -/
  | executing (task : TaskId)
  /-- ReleaseSuccessors, at `m_currentPhase.load`. -/
  | loadPhase (task : TaskId)
  /-- ReleaseSuccessors, at the head of the child loop. -/
  | release (task : TaskId) (phase : RuntimePhaseId) (position : Nat)
  /-- ReleaseSuccessors, at `m_readyQueue.Enqueue(child)`. -/
  | enqueue (task : TaskId) (phase : RuntimePhaseId) (position : Nat) (child : TaskId)
  /-- ReleaseSuccessors, at `m_activeTaskCount.fetch_add` after that Enqueue. -/
  | addActive (task : TaskId) (phase : RuntimePhaseId) (position : Nat)
  /-- OnTaskCompleted, at `m_activeTaskCount.fetch_sub`. -/
  | subActive (task : TaskId)
  /-- OnTaskCompleted, at `m_phaseEpoch.fetch_add`. -/
  | bumpEpoch
  /-- OnTaskCompleted, at `m_phaseEpoch.notify_all`. -/
  | notifyAll
  /-- Returned from WorkerLoop and not joined yet. -/
  | finished
  | fault
deriving DecidableEq

/-- Where the runtime thread is in the call it makes on the dispatcher. -/
inductive MainState where
  | idle
  /-- Initialize, entering WorkerPool::Start. -/
  | startPool (hardwareConcurrency : Nat)
  /-- WorkerPool::Start, at the thread constructor of one index. -/
  | startWorker (index : Nat)
  /-- Initialize, at `m_running.store(true)`. -/
  | storeRunning
  /-- ExecutePhase, at `m_running.load`. -/
  | loadRunning (phase : RuntimePhaseId)
  /-- ExecutePhase, at `m_currentPhase.store`. -/
  | storePhase (phase : RuntimePhaseId)
  /-- BuildRuntimeState, at one node. -/
  | build (index : Nat)
  /-- SeedReadyQueue, at `m_currentPhase.load`. -/
  | loadSeedPhase
  /-- SeedReadyQueue, at the head of its loop. -/
  | seed (phase : RuntimePhaseId) (position : Nat)
  /-- SeedReadyQueue, at `m_readyQueue.Enqueue(node.id)`. -/
  | seedEnqueue (phase : RuntimePhaseId) (position : Nat) (task : TaskId)
  /-- SeedReadyQueue, at `m_activeTaskCount.fetch_add`. -/
  | seedAdd (phase : RuntimePhaseId) (position : Nat)
  /-- WaitForPhaseCompletion, at the loop test. -/
  | waitActive
  /-- WaitForPhaseCompletion, at `m_phaseEpoch.load`. -/
  | waitEpoch
  /-- WaitForPhaseCompletion, at the second load of the active count. -/
  | waitRecheck (epoch : Nat)
  /-- WaitForPhaseCompletion, inside `m_phaseEpoch.wait(epoch)`. -/
  | waitBlocked (epoch : Nat)
  /-- Shutdown, at WorkerPool::Stop. -/
  | stopPool
  /-- Shutdown, WorkerPool::Join at one index. -/
  | join (index : Nat)
  | clearActive
  | clearEpoch
  | clearPhase
  | clearCounters (index : Nat)
  | fault
deriving DecidableEq

/-- The fields of the dispatcher and of its pool, and the place of every thread. -/
@[ext] structure JobDispatch where
  taskGraph : Option TaskGraph
  registry : Option TaskRegistry
  currentPhase : RuntimePhaseId
  readyQueue : BoundedQueue TaskId taskGraphMaxNodesV1
  remainingDependencies : FixedArray Nat taskGraphMaxNodesV1
  activeTaskCount : Nat
  phaseEpoch : Nat
  running : Bool
  poolRunning : Bool
  activeWorkerCount : Nat
  workers : WorkerIndex → WorkerState
  main : MainState

/-- A call of the runtime thread. The number `std::thread::hardware_concurrency`
answers during Initialize is part of the choice. -/
inductive Call where
  | initializeWith (graph : TaskGraph) (registry : TaskRegistry) (hardwareConcurrency : Nat)
  | executePhase (phase : RuntimePhaseId)
  | shutdown

/-- Which thread moves. -/
inductive Choice where
  /-- The idle runtime thread enters a call. -/
  | call (call : Call)
  /-- The runtime thread takes its next step. -/
  | main
  /-- The thread constructor at `startWorker` throws. -/
  | threadFailure
  | worker (index : WorkerIndex)

/-- What a step shows of itself. -/
inductive Event where
  | silent
  | initialized (accepted : Bool)
  | initializeThrew
  | calledPhase (phase : RuntimePhaseId)
  | refusedPhase (phase : RuntimePhaseId)
  | storedPhase (phase : RuntimePhaseId)
  | builtTask (task : TaskId)
  | builtRuntimeState
  /-- SeedReadyQueue loaded a task's counter. -/
  | scanned (task : TaskId) (remaining : Nat)
  | enqueued (task : TaskId) (accepted : Bool)
  | dequeued (worker : WorkerIndex) (task : TaskId)
  | beganTask (worker : WorkerIndex) (task : TaskId) (function : Option TaskFunction)
  | endedTask (worker : WorkerIndex) (task : TaskId)
  /-- ReleaseSuccessors of `task` decremented `child` and observed `old`;
  `ready` says that it goes on to enqueue the child. -/
  | decremented (worker : WorkerIndex) (task child : TaskId) (old : Nat) (ready : Bool)
  /-- OnTaskCompleted took the task off the active count. -/
  | completedTask (worker : WorkerIndex) (task : TaskId)
  | bumpedEpoch
  /-- ExecutePhase returned true. -/
  | returnedPhase (phase : RuntimePhaseId)
  /-- Shutdown found `m_running` set. -/
  | calledShutdown
  | ignoredShutdown
  | returnedShutdown
  | faulted
deriving DecidableEq

namespace JobDispatch

/-- A freshly constructed dispatcher. -/
def fresh : JobDispatch where
  taskGraph := none
  registry := none
  currentPhase := .input
  readyQueue := .empty
  remainingDependencies := fun _ => 0
  activeTaskCount := 0
  phaseEpoch := 0
  running := false
  poolRunning := false
  activeWorkerCount := 0
  workers := fun _ => .unstarted
  main := .idle

variable (dispatch : JobDispatch)

/-- JobDispatch::GetNode on the bound graph. -/
def getNode (id : TaskId) : Option TaskNode := dispatch.taskGraph.bind fun graph => graph.getNode id

/-- The worker comes to a place in its loop. -/
def setWorker (worker : WorkerIndex) (state : WorkerState) : JobDispatch :=
  { dispatch with workers := Function.update dispatch.workers worker state }

/-- The runtime thread comes to a place in its call. -/
def setMain (state : MainState) : JobDispatch := { dispatch with main := state }

/-- The runtime thread runs into undefined behaviour. -/
def mainFault : JobDispatch × Event := (dispatch.setMain .fault, .faulted)

/-- The worker runs into undefined behaviour. -/
def workerFault (worker : WorkerIndex) : JobDispatch × Event :=
  (dispatch.setWorker worker .fault, .faulted)

/-- Unsigned 32-bit increment and decrement. -/
def increment32 (value : Nat) : Nat := (value + 1) % 2 ^ 32
def decrement32 (value : Nat) : Nat := (2 ^ 32 - 1 + value) % 2 ^ 32

theorem increment32_lt (value : Nat) : increment32 value < 2 ^ 32 := Nat.mod_lt _ (by decide)

theorem decrement32_lt (value : Nat) : decrement32 value < 2 ^ 32 := Nat.mod_lt _ (by decide)

/-- The worker count WorkerPool::Start settles on: the 16-bit value of
`hardware_concurrency`, or one when that is zero or above the slot count. -/
def workerCount (hardwareConcurrency : Nat) : Nat :=
  let count := hardwareConcurrency % 2 ^ 16
  if count = 0 ∨ maxHardwareWorkers < count then 1 else count

/-! ## Initialize -/

/-- Initialize up to WorkerPool::Start. No worker thread exists in between, so
its loads and plain stores are one step. -/
def initializeWith (graph : TaskGraph) (registry : TaskRegistry) (hardwareConcurrency : Nat) :
    JobDispatch × Event :=
  if dispatch.running then (dispatch, .initialized false)
  else
    match registry.validate graph with
    | none => dispatch.mainFault
    | some false => (dispatch, .initialized false)
    | some true =>
      ({ dispatch with
          taskGraph := some graph
          registry := some registry
          main := .startPool hardwareConcurrency }, .silent)

/-- WorkerPool::Start before its loop. -/
def startPool (hardwareConcurrency : Nat) : JobDispatch × Event :=
  if dispatch.poolRunning then (dispatch.setMain .idle, .initialized false)
  else
    ({ dispatch with
        activeWorkerCount := workerCount hardwareConcurrency
        poolRunning := true
        main := .startWorker 0 }, .silent)

/-- One iteration of the loop of WorkerPool::Start. -/
def startWorker (index : Nat) : JobDispatch × Event :=
  if index < dispatch.activeWorkerCount then
    if slot : index < maxHardwareWorkers then
      ((dispatch.setWorker ⟨index, slot⟩ .checkRunning).setMain (.startWorker (index + 1)), .silent)
    else dispatch.mainFault
  else (dispatch.setMain .storeRunning, .silent)

/-! ## ExecutePhase -/

/-- One iteration of BuildRuntimeState. -/
def buildRuntimeState (index : Nat) : JobDispatch × Event :=
  match dispatch.taskGraph with
  | none => dispatch.mainFault
  | some graph =>
    if index < graph.nodeCount then
      match graph.node? index with
      | none => dispatch.mainFault
      | some node =>
        match dispatch.remainingDependencies.at? node.id with
        | none => dispatch.mainFault
        | some _ =>
          ({ dispatch with
              remainingDependencies :=
                dispatch.remainingDependencies.set node.id node.parentCount
              main := .build (index + 1) }, .builtTask node.id)
    else (dispatch.setMain .loadSeedPhase, .builtRuntimeState)

/-- One iteration of SeedReadyQueue up to the load of the node's counter. -/
def seedReadyQueue (phase : RuntimePhaseId) (position : Nat) : JobDispatch × Event :=
  match dispatch.taskGraph with
  | none => dispatch.mainFault
  | some graph =>
    if position < (graph.phaseRange phase).count then
      match graph.node? ((graph.phaseRange phase).begin + position) with
      | none => dispatch.mainFault
      | some node =>
        match dispatch.remainingDependencies.at? node.id with
        | none => dispatch.mainFault
        | some remaining =>
          (dispatch.setMain
            (if remaining = 0 then .seedEnqueue phase position node.id
              else .seed phase (position + 1)), .scanned node.id remaining)
    else (dispatch.setMain .waitActive, .silent)

/-- The step of the runtime thread inside a call. -/
def mainStep : Option (JobDispatch × Event) :=
  match dispatch.main with
  | .idle => none
  | .startPool hardwareConcurrency => some (dispatch.startPool hardwareConcurrency)
  | .startWorker index => some (dispatch.startWorker index)
  | .storeRunning =>
    some ({ dispatch with running := true, main := .idle }, .initialized true)
  | .loadRunning phase =>
    some (if dispatch.running then (dispatch.setMain (.storePhase phase), .silent)
      else (dispatch.setMain .idle, .refusedPhase phase))
  | .storePhase phase =>
    some ({ dispatch with
        currentPhase := phase
        main := if phase = .input then .build 0 else .loadSeedPhase }, .storedPhase phase)
  | .build index => some (dispatch.buildRuntimeState index)
  | .loadSeedPhase => some (dispatch.setMain (.seed dispatch.currentPhase 0), .silent)
  | .seed phase position => some (dispatch.seedReadyQueue phase position)
  | .seedEnqueue phase position task =>
    some ({ dispatch with
        readyQueue := (dispatch.readyQueue.enqueue task).1
        main := .seedAdd phase position }, .enqueued task (dispatch.readyQueue.enqueue task).2)
  | .seedAdd phase position =>
    some ({ dispatch with
        activeTaskCount := increment32 dispatch.activeTaskCount
        main := .seed phase (position + 1) }, .silent)
  -- The phase argument of ExecutePhase is still in `currentPhase`: only this
  -- thread stores it.
  | .waitActive =>
    some (if dispatch.activeTaskCount ≠ 0 then (dispatch.setMain .waitEpoch, .silent)
      else (dispatch.setMain .idle, .returnedPhase dispatch.currentPhase))
  | .waitEpoch => some (dispatch.setMain (.waitRecheck dispatch.phaseEpoch), .silent)
  | .waitRecheck epoch =>
    some (if dispatch.activeTaskCount = 0 then
        (dispatch.setMain .idle, .returnedPhase dispatch.currentPhase)
      else (dispatch.setMain (.waitBlocked epoch), .silent))
  -- `atomic::wait` may return at any time.
  | .waitBlocked _ => some (dispatch.setMain .waitActive, .silent)
  | .stopPool => some ({ dispatch with poolRunning := false, main := .join 0 }, .silent)
  | .join index =>
    if index < dispatch.activeWorkerCount then
      if slot : index < maxHardwareWorkers then
        match dispatch.workers ⟨index, slot⟩ with
        | .unstarted => some (dispatch.setMain (.join (index + 1)), .silent)
        | .finished =>
          some ((dispatch.setWorker ⟨index, slot⟩ .unstarted).setMain (.join (index + 1)), .silent)
        | _ => none
      else some dispatch.mainFault
    else some ({ dispatch with activeWorkerCount := 0, main := .clearActive }, .silent)
  | .clearActive => some ({ dispatch with activeTaskCount := 0, main := .clearEpoch }, .silent)
  | .clearEpoch => some ({ dispatch with phaseEpoch := 0, main := .clearPhase }, .silent)
  | .clearPhase =>
    some ({ dispatch with currentPhase := .input, main := .clearCounters 0 }, .silent)
  | .clearCounters index =>
    if index < taskGraphMaxNodesV1 then
      some ({ dispatch with
          remainingDependencies := dispatch.remainingDependencies.set index 0
          main := .clearCounters (index + 1) }, .silent)
    else
      some ({ dispatch with taskGraph := none, registry := none, main := .idle },
        .returnedShutdown)
  | .fault => none

/-- The idle runtime thread enters a call. -/
def callStep (call : Call) : JobDispatch × Event :=
  match call with
  | .initializeWith graph registry hardwareConcurrency =>
    dispatch.initializeWith graph registry hardwareConcurrency
  | .executePhase phase => (dispatch.setMain (.loadRunning phase), .calledPhase phase)
  | .shutdown =>
    if dispatch.running then
      ({ dispatch with running := false, main := .stopPool }, .calledShutdown)
    else (dispatch, .ignoredShutdown)

/-! ## Workers -/

/-- One iteration of ReleaseSuccessors up to the decrement of the child's
counter and the test that follows it. -/
def releaseSuccessors (worker : WorkerIndex) (task : TaskId) (phase : RuntimePhaseId)
    (position : Nat) : JobDispatch × Event :=
  match dispatch.taskGraph, dispatch.getNode task with
  | some graph, some node =>
    if position < node.childCount then
      match graph.child? node position with
      | none => dispatch.workerFault worker
      | some child =>
        match dispatch.remainingDependencies.at? child with
        | none => dispatch.workerFault worker
        | some old =>
          let decremented := { dispatch with
            remainingDependencies := dispatch.remainingDependencies.set child (decrement32 old) }
          if old = 1 then
            match dispatch.getNode child with
            | none => decremented.workerFault worker
            | some childNode =>
              if childNode.phaseId = phase then
                (decremented.setWorker worker (.enqueue task phase position child),
                  .decremented worker task child old true)
              else
                (decremented.setWorker worker (.release task phase (position + 1)),
                  .decremented worker task child old false)
          else
            (decremented.setWorker worker (.release task phase (position + 1)),
              .decremented worker task child old false)
    else (dispatch.setWorker worker (.subActive task), .silent)
  | _, _ => dispatch.workerFault worker

/-- The step of one worker thread. -/
def workerStep (worker : WorkerIndex) : Option (JobDispatch × Event) :=
  match dispatch.workers worker with
  | .unstarted => none
  | .checkRunning =>
    some (dispatch.setWorker worker (if dispatch.poolRunning then .dequeue else .finished), .silent)
  | .dequeue =>
    match dispatch.readyQueue.dequeue with
    | none => some (dispatch.setWorker worker .checkRunning, .silent)
    | some (task, rest) =>
      some ({ dispatch with readyQueue := rest }.setWorker worker (.execute task),
        .dequeued worker task)
  | .execute task =>
    match dispatch.registry with
    | none => some (dispatch.workerFault worker)
    | some registry =>
      some (dispatch.setWorker worker (.executing task),
        .beganTask worker task (registry.resolve task))
  | .executing task => some (dispatch.setWorker worker (.loadPhase task), .endedTask worker task)
  | .loadPhase task =>
    match dispatch.getNode task with
    | none => some (dispatch.workerFault worker)
    | some _ => some (dispatch.setWorker worker (.release task dispatch.currentPhase 0), .silent)
  | .release task phase position => some (dispatch.releaseSuccessors worker task phase position)
  | .enqueue task phase position child =>
    some ({ dispatch with readyQueue := (dispatch.readyQueue.enqueue child).1 }.setWorker worker
        (.addActive task phase position), .enqueued child (dispatch.readyQueue.enqueue child).2)
  | .addActive task phase position =>
    some ({ dispatch with activeTaskCount := increment32 dispatch.activeTaskCount }.setWorker worker
        (.release task phase (position + 1)), .silent)
  | .subActive task =>
    some ({ dispatch with activeTaskCount := decrement32 dispatch.activeTaskCount }.setWorker worker
        (if dispatch.activeTaskCount = 1 then .bumpEpoch else .checkRunning),
      .completedTask worker task)
  | .bumpEpoch =>
    some ({ dispatch with phaseEpoch := (dispatch.phaseEpoch + 1) % 2 ^ 64 }.setWorker worker
        .notifyAll, .bumpedEpoch)
  | .notifyAll => some (dispatch.setWorker worker .checkRunning, .silent)
  | .finished => none
  | .fault => none

/-- One step of the whole system. -/
def step : Choice → Option (JobDispatch × Event)
  | .call call => if dispatch.main = .idle then some (dispatch.callStep call) else none
  | .main => dispatch.mainStep
  | .threadFailure =>
    match dispatch.main with
    | .startWorker index =>
      if index < dispatch.activeWorkerCount then some (dispatch.setMain .idle, .initializeThrew)
      else none
    | _ => none
  | .worker index => dispatch.workerStep index

/-- The interleavings of the runtime thread and the workers. -/
abbrev system : TransitionSystem JobDispatch Choice Event := ⟨step⟩

/-! ## Schedules -/

/-- The runtime thread calls ExecutePhase and takes `count` steps in it. -/
def callThen (phase : RuntimePhaseId) (count : Nat) : List Choice :=
  .call (.executePhase phase) :: List.replicate count .main

/-- One worker takes `count` steps. -/
def work (worker : WorkerIndex) (count : Nat) : List Choice := List.replicate count (.worker worker)

end JobDispatch
end MmoServer.Runtime
