import MmoServer.LockfreeQueue.MPMCFifo
import MmoServer.Runtime.JobDispatch.Model

/-!
# JobDispatch on its own MPMCQueue

`JobDispatch` calls an atomic queue. Here a thread that is at `m_readyQueue.Enqueue` or
`readyQueue->Dequeue` takes the steps of that call, one atomic operation at a time, and the
other threads move in between; it goes on where the call returns. Its steps outside of these
calls are those of `JobDispatch`, whose field `readyQueue` they do not touch: `m_readyQueue`
stands in its place.
-/

namespace MmoServer.Runtime

open MmoServer.LockfreeQueue MmoServer.Semantics

/-- The Capacity of `m_readyQueue`. -/
def readyQueueCapacity : QueueCapacity where
  value := taskGraphMaxNodesV1
  fitsSize := by decide
  atLeastTwo := by decide
  powerOfTwo := by decide

/-- A dispatcher whose threads use the queue beside it, and not its own. -/
structure QueuedDispatch where
  dispatch : JobDispatch
  readyQueue : MPMCQueue TaskId readyQueueCapacity

/-- The thread of the queue that calls ExecutePhase. -/
def runtimeThread : ThreadIndex := 0

/-- The thread of the queue that is a worker. -/
def workerThread (worker : WorkerIndex) : ThreadIndex := worker + 1

/-- The call of the queue that the runtime thread is at. -/
def MainState.queueCall? : MainState → Option (MPMCQueue.Call TaskId)
  | .seedEnqueue _ _ task => some (.enqueue task)
  | _ => none

/-- The call of the queue that a worker is at. -/
def WorkerState.queueCall? : WorkerState → Option (MPMCQueue.Call TaskId)
  | .dequeue => some .dequeue
  | .enqueue _ _ _ child => some (.enqueue child)
  | _ => none

/-- Where the runtime thread is after a step of its call. -/
def MainState.afterQueue (state : MainState) : MPMCQueue.Event TaskId → MainState
  | .enqueue _ (.published _ _) | .enqueue _ .refused =>
    match state with
    | .seedEnqueue phase position _ => .seedAdd phase position
    | _ => state
  | _ => state

/-- Where a worker is after a step of its call. -/
def WorkerState.afterQueue (state : WorkerState) : MPMCQueue.Event TaskId → WorkerState
  | .enqueue _ (.published _ _) | .enqueue _ .refused =>
    match state with
    | .enqueue task phase position _ => .addActive task phase position
    | _ => state
  | .dequeue _ (.released _ task) => .execute task
  | .dequeue _ .refused => .checkRunning
  | _ => state

namespace QueuedDispatch

/-- Which thread moves, on the dispatcher or inside the queue. -/
inductive Choice where
  /-- A step outside of the calls of the queue. -/
  | dispatch (choice : Runtime.Choice)
  /-- The runtime thread takes its next step in Enqueue. -/
  | main (spurious : Bool) (left : TaskId)
  /-- A worker takes its next step in Enqueue or Dequeue. -/
  | worker (index : WorkerIndex) (spurious : Bool) (left : TaskId)

/-- A step of the dispatcher, or one of the queue. -/
inductive Event where
  | dispatch (event : Runtime.Event)
  | queue (event : MPMCQueue.Event TaskId)
deriving DecidableEq

/-- The thread that is chosen is at a call of the queue. -/
def atQueue (dispatch : JobDispatch) : Runtime.Choice → Bool
  | .main => dispatch.main.queueCall?.isSome
  | .worker index => (dispatch.workers index).queueCall?.isSome
  | _ => false

/-- The next step of a thread in a call. -/
def queueStep (queue : MPMCQueue TaskId readyQueueCapacity) (thread : ThreadIndex)
    (call : MPMCQueue.Call TaskId) (spurious : Bool) (left : TaskId) :
    Option (MPMCQueue TaskId readyQueueCapacity × MPMCQueue.Event TaskId) :=
  match queue.threads thread with
  | .idle => queue.step (.call thread call)
  | _ => queue.step (.step thread spurious left)

/-- A thread that is at a call of the queue moves only inside it. -/
def step (queued : QueuedDispatch) : Choice → Option (QueuedDispatch × Event)
  | .dispatch choice =>
    if atQueue queued.dispatch choice then none
    else (queued.dispatch.step choice).map fun (dispatch, event) =>
      ({ queued with dispatch }, .dispatch event)
  | .main spurious left =>
    queued.dispatch.main.queueCall?.bind fun call =>
      (queueStep queued.readyQueue runtimeThread call spurious left).map fun (readyQueue, event) =>
        ({ dispatch := queued.dispatch.setMain (queued.dispatch.main.afterQueue event)
           readyQueue }, .queue event)
  | .worker index spurious left =>
    (queued.dispatch.workers index).queueCall?.bind fun call =>
      (queueStep queued.readyQueue (workerThread index) call spurious left).map
        fun (readyQueue, event) =>
          ({ dispatch := queued.dispatch.setWorker index
               ((queued.dispatch.workers index).afterQueue event)
             readyQueue }, .queue event)

/-- The dispatcher on its real queue, under any interleaving. -/
def system : TransitionSystem QueuedDispatch Choice Event where
  step := step

/-- The dispatcher of a session, with a new queue. -/
def started (dispatch : JobDispatch) (storage : Fin readyQueueCapacity.value → TaskId) :
    QueuedDispatch where
  dispatch
  readyQueue := .constructed storage

/-- The runtime thread calls ExecutePhase and takes `count` steps outside of the queue. -/
def callThen (phase : RuntimePhaseId) (count : Nat) : List Choice :=
  (JobDispatch.callThen phase count).map .dispatch

/-- One worker takes `count` steps outside of the queue. -/
def work (worker : WorkerIndex) (count : Nat) : List Choice :=
  (JobDispatch.work worker count).map .dispatch

/-- The runtime thread calls Enqueue and takes its steps, none of which has to be repeated. -/
def enqueue : List Choice := List.replicate 6 (.main false 0)

/-- One worker takes `count` steps in Dequeue. -/
def dequeue (worker : WorkerIndex) (count : Nat) : List Choice :=
  List.replicate count (.worker worker false 0)

end QueuedDispatch
end MmoServer.Runtime
