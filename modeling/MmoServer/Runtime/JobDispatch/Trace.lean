import MmoServer.Runtime.JobDispatch.Steps
import MmoServer.Semantics.Tally

/-!
# What a tick leaves in its trace

The bookkeeping of one tick compares where tasks are with what has happened to
them. The first half reads a worker's state: the task it holds, the child it is
about to enqueue, how far its ReleaseSuccessors has got. The second half counts
the events of a trace by task.
-/

namespace MmoServer.Runtime

open MmoServer.Std MmoServer.Semantics

namespace WorkerState

/-- The task a worker has dequeued and not completed. -/
def task? : WorkerState → Option TaskId
  | .execute task | .executing task | .loadPhase task | .release task _ _ => some task
  | .enqueue task _ _ _ | .addActive task _ _ | .subActive task => some task
  | .unstarted | .checkRunning | .dequeue | .bumpEpoch | .notifyAll | .finished | .fault => none

/-- The held task, once ExecuteTask has been entered. -/
def begun? : WorkerState → Option TaskId
  | .execute _ => none
  | state => state.task?

/-- The held task, once ExecuteTask has returned. -/
def ended? : WorkerState → Option TaskId
  | .execute _ | .executing _ => none
  | state => state.task?

/-- The child a worker is about to enqueue. -/
def offer? : WorkerState → Option TaskId
  | .enqueue _ _ _ child => some child
  | _ => none

/-- The worker has decremented the child at `position` of the task it holds. -/
def passed (parent : TaskId) (position : Nat) : WorkerState → Bool
  | .release task _ reached => task = parent ∧ position < reached
  | .enqueue task _ reached _ | .addActive task _ reached => task = parent ∧ position ≤ reached
  | .subActive task => task = parent
  | _ => false

/-- The phase ReleaseSuccessors has loaded. -/
def loaded? : WorkerState → Option RuntimePhaseId
  | .release _ phase _ | .enqueue _ phase _ _ | .addActive _ phase _ => some phase
  | _ => none

/-- One if the worker holds the task. -/
def holds (task : TaskId) (state : WorkerState) : Nat := if state.task? = some task then 1 else 0
/-- One if the worker has begun the task and not ended it. -/
def begun (task : TaskId) (state : WorkerState) : Nat := if state.begun? = some task then 1 else 0
/-- One if the worker has ended the task and not completed it. -/
def ended (task : TaskId) (state : WorkerState) : Nat := if state.ended? = some task then 1 else 0
/-- One if the worker is about to enqueue the task. -/
def offers (task : TaskId) (state : WorkerState) : Nat := if state.offer? = some task then 1 else 0

/-- One for a worker that has passed a position of the task it holds. -/
def passes (parent : TaskId) (position : Nat) (state : WorkerState) : Nat :=
  if state.passed parent position then 1 else 0

end WorkerState

/-- The task the runtime thread is about to enqueue. -/
def MainState.offer? : MainState → Option TaskId
  | .seedEnqueue _ _ task => some task
  | _ => none

/-- The runtime thread is between two calls or inside ExecutePhase. -/
def MainState.inTick : MainState → Bool
  | .idle | .loadRunning _ | .storePhase _ | .build _ | .loadSeedPhase | .seed _ _ => true
  | .seedEnqueue _ _ _ | .seedAdd _ _ | .waitActive | .waitEpoch | .waitRecheck _ => true
  | .waitBlocked _ => true
  | _ => false

/-- One if SeedReadyQueue is about to enqueue the task. -/
def MainState.offers (task : TaskId) (state : MainState) : Nat :=
  if state.offer? = some task then 1 else 0

namespace Event

/-- SeedReadyQueue has loaded the counter of the task. -/
@[simp] def scans (task : TaskId) : Event → Bool
  | .scanned other _ => other = task
  | _ => false

/-- SeedReadyQueue found the task's counter at zero. -/
@[simp] def zeroScans (task : TaskId) : Event → Bool
  | .scanned other remaining => other = task ∧ remaining = 0
  | _ => false

/-- ReleaseSuccessors brought the counter of a task of its phase to zero. -/
@[simp] def releases (task : TaskId) : Event → Bool
  | .decremented _ _ target _ ready => target = task ∧ ready = true
  | _ => false

/-- The task has been given to Enqueue. -/
@[simp] def enqueues (task : TaskId) : Event → Bool
  | .enqueued other _ => other = task
  | _ => false

/-- Enqueue has refused the task. -/
@[simp] def refuses (task : TaskId) : Event → Bool
  | .enqueued other accepted => other = task ∧ accepted = false
  | _ => false

/-- A worker has taken the task. -/
@[simp] def dequeues (task : TaskId) : Event → Bool
  | .dequeued _ other => other = task
  | _ => false

/-- The task function has been entered. -/
@[simp] def begins (task : TaskId) : Event → Bool
  | .beganTask _ other _ => other = task
  | _ => false

/-- The task function has returned. -/
@[simp] def ends (task : TaskId) : Event → Bool
  | .endedTask _ other => other = task
  | _ => false

/-- The parent has decremented the counter of the child. -/
@[simp] def decrements (parent child : TaskId) : Event → Bool
  | .decremented _ other target _ _ => other = parent ∧ target = child
  | _ => false

/-- The task has been taken off the active count. -/
@[simp] def completes (task : TaskId) : Event → Bool
  | .completedTask _ other => other = task
  | _ => false

/-- Nothing is scanned, queued, executed, released or completed. -/
@[simp] def quiet : Event → Bool
  | .scanned _ _ | .enqueued _ _ | .beganTask _ _ _ | .endedTask _ _ => false
  | .decremented _ _ _ _ _ | .completedTask _ _ => false
  | _ => true

/-- The phase that ExecutePhase has stored. -/
def storedPhase? : Event → Option RuntimePhaseId
  | .storedPhase phase => some phase
  | _ => none

/-- The phase that ExecutePhase is called for. -/
def calledPhase? : Event → Option RuntimePhaseId
  | .calledPhase phase => some phase
  | _ => none

end Event

namespace JobDispatch

/-- The loads of a task's counter by SeedReadyQueue. -/
def scanCount (events : List Event) (task : TaskId) : Nat := tally (Event.scans task) events

/-- The loads among them that read zero. -/
def zeroScans (events : List Event) (task : TaskId) : Nat := tally (Event.zeroScans task) events

/-- The decrements that made ReleaseSuccessors enqueue a task. -/
def releases (events : List Event) (task : TaskId) : Nat := tally (Event.releases task) events

/-- The decisions to enqueue a task, of either thread. -/
def created (events : List Event) (task : TaskId) : Nat :=
  zeroScans events task + releases events task

/-- The Enqueue calls for a task. -/
def enqueues (events : List Event) (task : TaskId) : Nat := tally (Event.enqueues task) events

/-- The Enqueue calls for a task that found the queue full. -/
def refusals (events : List Event) (task : TaskId) : Nat := tally (Event.refuses task) events

/-- How often a worker has dequeued a task. -/
def dequeues (events : List Event) (task : TaskId) : Nat := tally (Event.dequeues task) events

/-- How often ExecuteTask has been entered for a task. -/
def begins (events : List Event) (task : TaskId) : Nat := tally (Event.begins task) events

/-- How often ExecuteTask has returned for a task. -/
def ends (events : List Event) (task : TaskId) : Nat := tally (Event.ends task) events

/-- How often a parent has decremented a child. -/
def decrements (events : List Event) (parent child : TaskId) : Nat :=
  tally (Event.decrements parent child) events

/-- How often OnTaskCompleted has taken a task off the active count. -/
def completions (events : List Event) (task : TaskId) : Nat := tally (Event.completes task) events

/-- The phases of the ExecutePhase calls, in call order. -/
def calledPhases (events : List Event) : List RuntimePhaseId :=
  events.filterMap Event.calledPhase?

/-- The number of ExecutePhase calls. -/
def calls (events : List Event) : Nat := (calledPhases events).length

/-- The decrements of a task by all parents. -/
def load (graph : TaskGraph) (events : List Event) (child : TaskId) : Nat :=
  ∑ parent ∈ graph.tasks, decrements events parent child

variable {events : List Event} {event : Event} {task parent child : TaskId}
  {dispatch next : JobDispatch} {worker : WorkerIndex}

/-- A quiet event moves no tally. -/
theorem tally_concat_quiet {shown : Event → Bool} (quiet : event.quiet = true)
    (loud : ∀ event, event.quiet = true → shown event = false) :
    tally shown (events ++ [event]) = tally shown events := by
  simp [loud event quiet]

@[simp] theorem calledPhases_concat (events : List Event) (event : Event) :
    calledPhases (events ++ [event]) = calledPhases events ++ event.calledPhase?.toList := by
  cases called : event.calledPhase? <;> simp [calledPhases, called]

theorem calls_concat (events : List Event) (event : Event) :
    calls (events ++ [event]) = calls events + if event.calledPhase?.isSome then 1 else 0 := by
  cases called : event.calledPhase? <;> simp [calls, called]

/-- A decrement of one parent adds one to the load of its child. -/
theorem load_concat {graph : TaskGraph} {worker : WorkerIndex} {old : Nat} {ready : Bool}
    (member : parent ∈ graph.tasks) :
    load graph (events ++ [.decremented worker parent child old ready]) task =
      load graph events task + if child = task then 1 else 0 := by
  have each : ∀ other, decrements (events ++ [.decremented worker parent child old ready])
      other task = decrements events other task +
        if other = parent then (if child = task then 1 else 0) else 0 := by
    intro other
    by_cases same : parent = other
    · simp [decrements, same]
    · simp [decrements, same, Ne.symm same]
  simp only [load, each, Finset.sum_add_distrib, Finset.sum_ite_eq', member, if_true]

/-- Only decrements move the load. -/
theorem load_concat_of_not {graph : TaskGraph}
    (other : ∀ parent child, event.decrements parent child = false) :
    load graph (events ++ [event]) task = load graph events task := by
  simp only [load, decrements, tally_concat, other, Bool.false_eq_true, if_false, Nat.add_zero]

/-! ## Offers -/

/-- A worker is about to enqueue a child from the decrement that makes it ready to the
Enqueue. -/
theorem WorkerStep.offers (moved : WorkerStep dispatch worker next event) (child : TaskId) :
    (if event.enqueues child then 1 else 0) + (next.workers worker).offers child =
      (dispatch.workers worker).offers child + if event.releases child then 1 else 0 := by
  cases moved with
  | checkRunning here =>
      rw [here, workers_setWorker]
      cases dispatch.poolRunning <;> rfl
  | subActive here =>
      rw [here, workers_setWorker]
      by_cases last : dispatch.activeTaskCount = 1 <;>
        simp [last, WorkerState.offers, WorkerState.offer?]
  | releaseReady here =>
      rw [here, workers_setWorker]
      simp [WorkerState.offers, WorkerState.offer?]
  | enqueue here =>
      rw [here, workers_setWorker]
      simp [WorkerState.offers, WorkerState.offer?]
  | releaseHeld here =>
      rw [here, workers_setWorker]
      simp [WorkerState.offers, WorkerState.offer?]
  | fault task counters cause =>
      rw [workers_setWorker]
      rcases cause with ⟨here, -⟩ | ⟨here, -⟩ | ⟨phase, position, here, -⟩ <;> rw [here] <;> rfl
  | _ here =>
      rw [here, workers_setWorker]
      rfl

theorem WorkerStep.offers_trade (moved : WorkerStep dispatch worker next event) (child : TaskId) :
    (if event.enqueues child then 1 else 0) +
        threadSum (WorkerState.offers child) next.workers =
      threadSum (WorkerState.offers child) dispatch.workers +
        if event.releases child then 1 else 0 := by
  have trade := moved.frame.trade (WorkerState.offers child)
  have share := moved.offers child
  omega

end JobDispatch
end MmoServer.Runtime
