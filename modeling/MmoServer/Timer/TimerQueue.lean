import MmoServer.Semantics.Transition
import MmoServer.Std.PriorityQueue
import Mathlib.Data.Finset.Basic
import Mathlib.Data.Prod.Lex

/-!
# TimerQueue

Any thread calls Schedule and Cancel; the runtime thread also calls Tick, and runs
the callbacks, which may themselves call Schedule and Cancel. A step is one atomic
operation, one locked section, one clock reading, or the entry into or the return
from a callback; returning from a call is folded into its last step.

The order of `tasks_` is that of its heap and is not modelled: it is a list, from
which `TimerTask.priority` takes a task.
-/

namespace MmoServer.Timer

open MmoServer.Semantics MmoServer.Std

/-- Nanoseconds of the steady clock. -/
abbrev TimePoint := Int64

/-- Milliseconds. -/
abbrev Duration := Int64

/-- A counter of 64 bits, which does not wrap around. -/
abbrev TimerId := Nat

/-- The order of the Schedules; the counter is taken not to wrap. -/
abbrev TimerSequence := Nat

abbrev ThreadIndex := Nat

/-- What Schedule returns for an empty callback. -/
def InvalidTimerId : TimerId := 0

/-- The thread that calls Tick. -/
def runtime : ThreadIndex := 0

/-- `m_clock.Now() + delay`: the delay in nanoseconds is added. -/
def deadlineOf (reading : TimePoint) (delay : Duration) : TimePoint := reading + delay * 1000000

/-- The state field of a task, which nothing reads. -/
inductive TimerState where
  | created
  | scheduled
  | cancelled
  | executing
  | completed
deriving DecidableEq

/-- A task; an empty `std::function` is `none`. -/
structure TimerTask (Callback : Type) where
  id : TimerId
  deadline : TimePoint
  sequence : TimerSequence
  callback : Option Callback
  state : TimerState
deriving DecidableEq

/-- TimerTask::operator>. -/
def TimerTask.greater {Callback : Type} (task other : TimerTask Callback) : Bool :=
  if task.deadline ≠ other.deadline then decide (task.deadline > other.deadline)
  else decide (task.sequence > other.sequence)

/-- The order of (deadline, sequence). -/
def TimerTask.Before {Callback : Type} (task other : TimerTask Callback) : Prop :=
  task.deadline < other.deadline ∨
    (task.deadline = other.deadline ∧ task.sequence < other.sequence)

/-- What tasks are compared by. -/
def TimerTask.key {Callback : Type} (task : TimerTask Callback) : Int ×ₗ Nat :=
  toLex (task.deadline.toInt, task.sequence)

theorem TimerTask.before_iff_key {Callback : Type} {task other : TimerTask Callback} :
    task.Before other ↔ task.key < other.key := by
  rw [key, key, Prod.Lex.toLex_lt_toLex, Before, Int64.lt_iff_toInt_lt, ← Int64.toInt_inj]

theorem TimerTask.greater_iff {Callback : Type} {task other : TimerTask Callback} :
    task.greater other = true ↔ other.Before task := by
  unfold greater Before
  split
  · next differ =>
    rw [decide_eq_true_iff]
    constructor
    · exact .inl
    · rintro (less | ⟨same, _⟩)
      · exact less
      · exact absurd same.symm differ
  · next same =>
    rw [not_not] at same
    rw [decide_eq_true_iff, same]
    constructor
    · exact fun less => .inr ⟨rfl, less⟩
    · rintro (less | ⟨_, less⟩)
      · exact absurd less Int64.lt_irrefl
      · exact less

theorem TimerTask.greater_eq_false_iff {Callback : Type} {task other : TimerTask Callback} :
    task.greater other = false ↔ task.key ≤ other.key := by
  rw [← Bool.not_eq_true, greater_iff, before_iff_key, not_lt]

/-- The comparator of `tasks_`, `std::greater<>`. -/
def TimerTask.priority (Callback : Type) : Priority (TimerTask Callback) where
  greater := TimerTask.greater
  total first second := by
    simp only [greater_eq_false_iff]
    exact le_total _ _
  trans first second third below above := by
    rw [greater_eq_false_iff] at below above ⊢
    exact below.trans above

/-- Where a thread is in Schedule. -/
inductive ScheduleState (Callback : Type) where
  /-- At `nextId_.fetch_add`. -/
  | takeId (delay : Duration) (callback : Callback)
  /-- At `m_clock.Now()`. -/
  | readClock (id : TimerId) (delay : Duration) (callback : Callback)
  /-- At `nextSequence_.fetch_add`. -/
  | takeSequence (id : TimerId) (deadline : TimePoint) (callback : Callback)
  /-- At the locked `tasks_.push`. -/
  | push (task : TimerTask Callback)

/-- Where the runtime thread is in Tick. -/
inductive DispatchState (Callback : Type) where
  /-- At the locked pop. -/
  | pop (now : TimePoint)
  /-- At the locked look into `cancelledTimers_`. -/
  | check (now : TimePoint) (task : TimerTask Callback)
  /-- At `task.callback()`. -/
  | enter (now : TimePoint) (task : TimerTask Callback)
  /-- Inside the callback. -/
  | execute (now : TimePoint) (task : TimerTask Callback)

/-- Which thread moves, and how. -/
inductive Choice (Callback : Type) where
  /-- A thread calls Schedule. -/
  | schedule (thread : ThreadIndex) (delay : Duration) (callback : Option Callback)
  /-- A thread takes its next step in Schedule; `reading` is what the clock says. -/
  | advance (thread : ThreadIndex) (reading : TimePoint)
  /-- A thread calls Cancel. -/
  | cancel (thread : ThreadIndex) (id : TimerId)
  /-- The runtime thread calls Tick. -/
  | tick (now : TimePoint)
  /-- The runtime thread takes its next step in Tick. -/
  | dispatch

/-- What a step shows of itself. -/
inductive Event (Callback : Type) where
  /-- Schedule was called without a callback and returned `InvalidTimerId`. -/
  | refused (thread : ThreadIndex)
  | called (thread : ThreadIndex) (delay : Duration)
  | issued (thread : ThreadIndex) (id : TimerId)
  | readClock (thread : ThreadIndex) (reading : TimePoint)
  | sequenced (thread : ThreadIndex) (id : TimerId) (sequence : TimerSequence)
  /-- The task is pushed, and Schedule returns its id. -/
  | pushed (thread : ThreadIndex) (task : TimerTask Callback)
  | cancelled (thread : ThreadIndex) (id : TimerId) (result : Bool)
  | ticked (now : TimePoint)
  | popped (task : TimerTask Callback)
  /-- The task was found cancelled. -/
  | dropped (task : TimerTask Callback)
  /-- The task was not found cancelled. -/
  | passed (task : TimerTask Callback)
  | entered (task : TimerTask Callback)
  | left (task : TimerTask Callback)
  /-- Tick returns. -/
  | returned
deriving DecidableEq

/-- The queue: its two counters, its heap, the cancelled ids, and the place of every thread. -/
structure TimerQueue (Callback : Type) where
  tasks : List (TimerTask Callback)
  cancelledTimers : Finset TimerId
  nextId : TimerId
  nextSequence : TimerSequence
  calls : ThreadIndex → Option (ScheduleState Callback)
  tick : Option (DispatchState Callback)

namespace TimerQueue

variable {Callback : Type}

/-- TimerQueue::TimerQueue. -/
def constructed : TimerQueue Callback where
  tasks := []
  cancelledTimers := ∅
  nextId := 1
  nextSequence := 0
  calls _ := none
  tick := none

/-- The runtime thread is in no Tick, or in one of its callbacks. -/
def runsUserCode (queue : TimerQueue Callback) : Bool :=
  match queue.tick with
  | none | some (.execute _ _) => true
  | _ => false

/-- A thread may call Schedule or Cancel. -/
def mayCall (queue : TimerQueue Callback) (thread : ThreadIndex) : Bool :=
  (queue.calls thread).isNone && (thread != runtime || queue.runsUserCode)

/-- The thread comes to a place in Schedule. -/
def setCall (queue : TimerQueue Callback) (thread : ThreadIndex)
    (state : Option (ScheduleState Callback)) : TimerQueue Callback :=
  { queue with calls := Function.update queue.calls thread state }

/-- TimerQueue::Schedule, its next step. -/
def scheduleStep (queue : TimerQueue Callback) (thread : ThreadIndex) (reading : TimePoint) :
    ScheduleState Callback → TimerQueue Callback × Event Callback
  | .takeId delay callback =>
    let timerId := queue.nextId
    ({ queue with nextId := queue.nextId + 1 }.setCall thread (some (.readClock timerId delay callback)),
      .issued thread timerId)
  | .readClock id delay callback =>
    (queue.setCall thread (some (.takeSequence id (deadlineOf reading delay) callback)),
      .readClock thread reading)
  | .takeSequence id deadline callback =>
    let sequence := queue.nextSequence
    let task := { id, deadline, sequence, callback := some callback, state := .scheduled }
    ({ queue with nextSequence := queue.nextSequence + 1 }.setCall thread (some (.push task)),
      .sequenced thread id sequence)
  | .push task =>
    ({ queue with tasks := task :: queue.tasks }.setCall thread none, .pushed thread task)

/-- TimerQueue::Cancel, one locked section: `cancelledTimers_.insert(timerId).second`. -/
def cancel (queue : TimerQueue Callback) (id : TimerId) : TimerQueue Callback × Bool :=
  ({ queue with cancelledTimers := insert id queue.cancelledTimers }, id ∉ queue.cancelledTimers)

/-- TimerQueue::DispatchExpired, its next step. -/
def dispatchStep (queue : TimerQueue Callback) :
    DispatchState Callback → TimerQueue Callback × Event Callback
  | .pop now =>
    match (TimerTask.priority Callback).extract queue.tasks with
    | none => ({ queue with tick := none }, .returned)
    | some (task, rest) =>
      if task.deadline > now then ({ queue with tick := none }, .returned)
      else ({ queue with tasks := rest, tick := some (.check now task) }, .popped task)
  | .check now task =>
    if task.id ∈ queue.cancelledTimers then
      ({ queue with
          cancelledTimers := queue.cancelledTimers.erase task.id
          tick := some (.pop now) },
        .dropped task)
    else ({ queue with tick := some (.enter now task) }, .passed task)
  | .enter now task =>
    match task.callback with
    | none => ({ queue with tick := some (.pop now) }, .left { task with state := .completed })
    | some _ =>
      ({ queue with tick := some (.execute now { task with state := .executing }) }, .entered task)
  | .execute now task =>
    ({ queue with tick := some (.pop now) }, .left { task with state := .completed })

/-- A thread enters a call or takes its next step. -/
def step (queue : TimerQueue Callback) :
    Choice Callback → Option (TimerQueue Callback × Event Callback)
  | .schedule thread delay callback =>
    if queue.mayCall thread then
      match callback with
      | none => some (queue, .refused thread)
      | some callback =>
        some (queue.setCall thread (some (.takeId delay callback)), .called thread delay)
    else none
  | .advance thread reading =>
    (queue.calls thread).map (queue.scheduleStep thread reading)
  | .cancel thread id =>
    if queue.mayCall thread then
      let (next, result) := queue.cancel id
      some (next, .cancelled thread id result)
    else none
  | .tick now =>
    if (queue.calls runtime).isNone && queue.tick.isNone then
      some ({ queue with tick := some (.pop now) }, .ticked now)
    else none
  | .dispatch =>
    if (queue.calls runtime).isNone then queue.tick.map queue.dispatchStep else none

/-- The queue under any interleaving of its threads. -/
def system (Callback : Type) :
    TransitionSystem (TimerQueue Callback) (Choice Callback) (Event Callback) where
  step := step

end TimerQueue
end MmoServer.Timer
