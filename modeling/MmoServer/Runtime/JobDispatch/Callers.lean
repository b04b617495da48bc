import MmoServer.Runtime.JobDispatch.Accounting
import MmoServer.Runtime.JobDispatch.Trace
import MmoServer.Std.AtomicCounter

/-!
# OnTaskCompleted from any thread

OnTaskCompleted is public. Besides the workers of the pool any number of threads may call
it, at any time and for any task, and their ReleaseSuccessors decrement the same counters.
`Callers` is the dispatcher with such threads. A caller takes the steps that a worker takes
in OnTaskCompleted.

What a step does to one counter is `CounterMove`, whoever takes it.
-/

namespace MmoServer.Runtime

open MmoServer.Std MmoServer.Semantics

/-- The value that a decrement of a task's counter has observed. -/
def Event.observed? (child : TaskId) : Event → Option Nat
  | .decremented _ _ target old _ => if target = child then some old else none
  | _ => none

/-- The task whose ReleaseSuccessors has decremented a child's counter. -/
def Event.parent? (child : TaskId) : Event → Option TaskId
  | .decremented _ task target _ _ => if target = child then some task else none
  | _ => none

namespace JobDispatch

variable {dispatch next : JobDispatch} {worker : WorkerIndex} {choice : Choice} {event : Event}

/-- The counter of a task. -/
def counter (dispatch : JobDispatch) (child : TaskId) : Nat :=
  dispatch.remainingDependencies.peek child

/-- What a step does to the counter of a task, stores of BuildRuntimeState apart. -/
inductive CounterMove (child : TaskId) (dispatch next : JobDispatch) (event : Event) : Prop where
  | kept (unseen : event.observed? child = none)
      (same : next.counter child = dispatch.counter child)
  | lowered (seen : event.observed? child = some (dispatch.counter child))
      (lower : next.counter child = decrement32 (dispatch.counter child))
  | cleared (unseen : event.observed? child = none) (zero : next.counter child = 0)
      (inside : dispatch.main.inShutdown = true)

/-- Setting a counter sets no other. -/
theorem counter_set {index value : Nat} {child : TaskId} (inside : index < taskGraphMaxNodesV1)
    (next : JobDispatch)
    (set : next.remainingDependencies = dispatch.remainingDependencies.set index value) :
    next.counter child = if child = index then value else dispatch.counter child := by
  rw [counter, set, FixedArray.peek_set inside]
  rfl

/-- A fetch_sub of one child's counter, as another task's counter sees it. -/
theorem CounterMove.decrement {task target : TaskId} {old : Nat} {ready : Bool}
    (loaded : dispatch.remainingDependencies.at? target = some old)
    (set : next.remainingDependencies =
      dispatch.remainingDependencies.set target (decrement32 old)) (child : TaskId) :
    CounterMove child dispatch next (.decremented worker task target old ready) := by
  obtain ⟨inside, value⟩ := FixedArray.at?_eq_some_iff.mp loaded
  by_cases same : target = child
  · subst same
    refine .lowered ?_ ?_
    · rw [Event.observed?, if_pos rfl]
      exact congrArg some value.symm
    · rw [counter_set inside next set, if_pos rfl]
      exact congrArg decrement32 value.symm
  · refine .kept (if_neg same) ?_
    rw [counter_set inside next set, if_neg (Ne.symm same)]

/-- A worker decrements the counter or leaves it. -/
theorem WorkerStep.counterMove (moved : WorkerStep dispatch worker next event)
    (defined : event ≠ .faulted) (child : TaskId) : CounterMove child dispatch next event := by
  cases moved with
  | releaseHeld here bound found more named loaded => exact .decrement loaded rfl child
  | releaseReady here bound found more named loaded => exact .decrement loaded rfl child
  | fault => exact absurd rfl defined
  | _ => exact .kept rfl rfl

/-- The runtime thread leaves the counter until it builds it anew. -/
theorem MainStep.counterMove (moved : MainStep dispatch next event) {child : TaskId}
    (unbuilt : event ≠ .builtTask child) : CounterMove child dispatch next event := by
  cases moved with
  | @build index graph node here bound more found slot =>
      refine .kept rfl ?_
      rw [counter_set slot _ rfl, if_neg fun same : child = node.id => unbuilt (same ▸ rfl)]
  | @clearCounters index here more =>
      by_cases same : child = index
      · refine .cleared rfl ?_ (by rw [here]; rfl)
        rw [counter_set more _ rfl, if_pos same]
      · refine .kept rfl ?_
        rw [counter_set more _ rfl, if_neg same]
  | _ => exact .kept rfl rfl

/-- A step decrements the counter or leaves it. -/
theorem SystemStep.counterMove (moved : SystemStep dispatch choice next event) {child : TaskId}
    (unbuilt : event ≠ .builtTask child) (defined : event ≠ .faulted) :
    CounterMove child dispatch next event := by
  cases moved with
  | main moved => exact moved.counterMove unbuilt
  | worker moved => exact moved.counterMove defined child
  | _ => exact .kept rfl rfl

/-- Nothing but Shutdown leads into Shutdown. -/
theorem MainStep.inShutdown (moved : MainStep dispatch next event)
    (inside : next.main.inShutdown = true) : dispatch.main.inShutdown = true := by
  cases moved with
  | stopPool here | joinSkip here | join here | joined here | clearActive here | clearEpoch here
  | clearPhase here | clearCounters here =>
      rw [here]
      rfl
  | storePhase | seed =>
      dsimp only [setMain] at inside
      split at inside <;> cases inside
  | _ => cases inside

/-- Only a call of Shutdown leads into Shutdown. -/
theorem SystemStep.inShutdown (moved : SystemStep dispatch choice next event)
    (inside : next.main.inShutdown = true) :
    dispatch.main.inShutdown = true ∨ event = .calledShutdown := by
  cases moved with
  | calledShutdown => exact .inr rfl
  | worker moved => exact .inl (moved.frame.main ▸ inside)
  | main moved => exact .inl (moved.inShutdown inside)
  | initializeRefused | ignoredShutdown => exact .inl inside
  | initializeFault | initializeBound | calledPhase | threadFailure => cases inside

/-! ## Who enqueues -/

/-- Only the decrement that observes one makes a child ready. -/
theorem WorkerStep.ready (moved : WorkerStep dispatch worker next event) {child : TaskId}
    (ready : event.releases child = true) : event.observed? child = some 1 := by
  cases moved with
  | releaseReady => exact if_pos (of_decide_eq_true ready).1
  | releaseHeld => exact absurd (of_decide_eq_true ready).2 (by decide)
  | _ => cases ready

/-- A thread that offers nothing adds no offer. -/
theorem offers_update_le {count : Nat} {threads : Fin count → WorkerState} {child : TaskId}
    {state : WorkerState} (idle : state.offers child = 0) (thread : Fin count) :
    threadSum (WorkerState.offers child) (Function.update threads thread state) ≤
      threadSum (WorkerState.offers child) threads := by
  have trade := threadSum_update (WorkerState.offers child) threads thread state
  omega

/-- The runtime thread adds no offer of a worker. -/
theorem MainStep.offers (moved : MainStep dispatch next event) (child : TaskId) :
    threadSum (WorkerState.offers child) next.workers ≤
      threadSum (WorkerState.offers child) dispatch.workers := by
  cases moved with
  | startWorker | join => exact offers_update_le rfl _
  | _ => exact Nat.le_refl _

/-- What makes a child ready is a decrement that observes one. -/
theorem SystemStep.ready (moved : SystemStep dispatch choice next event) {child : TaskId}
    (ready : event.releases child = true) : event.observed? child = some 1 := by
  cases moved with
  | worker moved => exact moved.ready ready
  | main moved => cases moved <;> cases ready
  | _ => cases ready

end JobDispatch

/-! ## Callers beside the pool -/

/-- Who takes a step. -/
inductive Mover (count : Nat) where
  | main
  | worker (index : WorkerIndex)
  | caller (index : Fin count)
deriving DecidableEq

/-- The dispatcher and the threads beside its pool. A thread outside of OnTaskCompleted is
`unstarted`. -/
structure Callers (count : Nat) where
  dispatch : JobDispatch
  callers : Fin count → WorkerState

namespace Callers

/-- The dispatcher moves, or one of the callers. -/
inductive Choice (count : Nat) where
  | dispatch (choice : Runtime.Choice)
  | onTaskCompleted (caller : Fin count) (task : TaskId)
  | caller (caller : Fin count)

variable {count : Nat}

/-- The thread that a choice of the dispatcher moves. -/
def moverOf : Runtime.Choice → Mover count
  | .call _ | .main | .threadFailure => .main
  | .worker index => .worker index

/-- A caller is outside again where a worker would go on with its loop. -/
def afterStep : WorkerState → WorkerState
  | .checkRunning => .unstarted
  | state => state

/-- A dispatcher that has just been constructed, and nobody inside a call. -/
def fresh (count : Nat) : Callers count where
  dispatch := .fresh
  callers := fun _ => .unstarted

/-- A caller takes the step of a worker that is where the caller is. Its events name worker 0,
in whose place it stands. -/
def callerStep (callers : Callers count) (caller : Fin count) : Option (Callers count × Event) :=
  ((callers.dispatch.setWorker 0 (callers.callers caller)).workerStep 0).map fun (next, event) =>
    ({ dispatch := { next with workers := callers.dispatch.workers }
       callers := Function.update callers.callers caller (afterStep (next.workers 0)) }, event)

/-- A caller moves on the same counters and the same queue as the workers. -/
def step (callers : Callers count) : Choice count → Option (Callers count × Mover count × Event)
  | .dispatch choice =>
    (callers.dispatch.step choice).map fun (next, event) =>
      ({ callers with dispatch := next }, moverOf choice, event)
  | .onTaskCompleted caller task =>
    if callers.callers caller = .unstarted then
      some ({ callers with callers := Function.update callers.callers caller (.loadPhase task) },
        .caller caller, .silent)
    else none
  | .caller caller =>
    (callers.callerStep caller).map fun (next, event) => (next, .caller caller, event)

/-- The interleavings of the dispatcher's own threads and `count` callers. -/
abbrev system (count : Nat) : TransitionSystem (Callers count) (Choice count) (Mover count × Event) where
  step := Callers.step

/-- The threads that are about to enqueue a child. -/
def offers (callers : Callers count) (child : TaskId) : Nat :=
  threadSum (WorkerState.offers child) callers.dispatch.workers +
    threadSum (WorkerState.offers child) callers.callers

/-- ReleaseSuccessors has enqueued a child: it is the runtime thread that seeds. -/
def enqueues (child : TaskId) (shown : Mover count × Event) : Bool :=
  shown.1 ≠ .main ∧ shown.2.enqueues child

variable {callers next : Callers count} {choice : Choice count} {mover : Mover count}
  {event : Event} {child : TaskId}

/-- The outcomes of one step, by who takes it. -/
inductive CallersStep (callers : Callers count) : Callers count → Mover count → Event → Prop
  | own {choice after event}
      (moved : JobDispatch.SystemStep callers.dispatch choice after event) :
      CallersStep callers { callers with dispatch := after } (moverOf choice) event
  | onTaskCompleted {caller task} (outside : callers.callers caller = .unstarted) :
      CallersStep callers
        { callers with callers := Function.update callers.callers caller (.loadPhase task) }
        (.caller caller) .silent
  | caller {caller after event}
      (moved : JobDispatch.WorkerStep
        (callers.dispatch.setWorker 0 (callers.callers caller)) 0 after event) :
      CallersStep callers
        { dispatch := { after with workers := callers.dispatch.workers }
          callers := Function.update callers.callers caller (afterStep (after.workers 0)) }
        (.caller caller) event

/-- Every step is one of the listed outcomes. -/
theorem step_sound (moved : (system count).step callers choice = some (next, mover, event)) :
    CallersStep callers next mover event := by
  change callers.step choice = _ at moved
  cases choice with
  | dispatch choice =>
      obtain ⟨⟨after, shown⟩, stepped, same⟩ := Option.map_eq_some_iff.mp moved
      cases same
      exact .own (JobDispatch.step_sound stepped)
  | onTaskCompleted caller task =>
      simp only [step] at moved
      split at moved
      · next outside =>
        cases moved
        exact .onTaskCompleted outside
      · cases moved
  | caller caller =>
      obtain ⟨⟨after, shown⟩, stepped, same⟩ := Option.map_eq_some_iff.mp moved
      cases same
      obtain ⟨⟨placed, shown⟩, worked, same⟩ := Option.map_eq_some_iff.mp stepped
      cases same
      exact .caller (JobDispatch.workerStep_sound worked)

/-- What a step of any thread does to the counter of a task. -/
theorem CallersStep.counterMove (moved : CallersStep callers next mover event)
    (unbuilt : event ≠ .builtTask child) (defined : event ≠ .faulted) :
    JobDispatch.CounterMove child callers.dispatch next.dispatch event := by
  cases moved with
  | own moved => exact moved.counterMove unbuilt defined
  | onTaskCompleted outside => exact .kept rfl rfl
  | caller moved =>
      cases moved.counterMove defined child with
      | kept unseen same => exact .kept unseen same
      | lowered seen lower => exact .lowered seen lower
      | cleared unseen zero inside => exact .cleared unseen zero inside

/-- Nothing but a call of Shutdown leads into it. -/
theorem CallersStep.inShutdown (moved : CallersStep callers next mover event)
    (inside : next.dispatch.main.inShutdown = true) :
    callers.dispatch.main.inShutdown = true ∨ event = .calledShutdown := by
  cases moved with
  | own moved => exact moved.inShutdown inside
  | onTaskCompleted outside => exact .inl inside
  | caller moved => exact .inl (moved.frame.main ▸ inside)

/-- Only the decrement that observes one makes a child ready. -/
theorem CallersStep.ready (moved : CallersStep callers next mover event)
    (ready : event.releases child = true) : event.observed? child = some 1 := by
  cases moved with
  | own moved => exact moved.ready ready
  | onTaskCompleted outside => cases ready
  | caller moved => exact moved.ready ready

/-- A store of BuildRuntimeState: the counter is set to what the child's node says. -/
theorem CallersStep.built {graph : TaskGraph}
    (moved : CallersStep callers next mover (.builtTask child))
    (bound : callers.dispatch.taskGraph = some graph) :
    next.dispatch.main.inShutdown = false ∧ ∃ index < graph.nodeCount,
      (graph.node index).id = child ∧
        next.dispatch.counter child = (graph.node index).parentCount := by
  cases moved with
  | own moved =>
      cases moved with
      | worker moved => cases moved
      | main moved =>
          cases moved with
          | @build index other node here there more found slot =>
              obtain rfl : other = graph := Option.some.inj (there.symm.trans bound)
              have same : other.node index = node := (FixedArray.at?_eq_some_iff.mp found).2
              refine ⟨rfl, index, more, congrArg TaskNode.id same, ?_⟩
              rw [JobDispatch.counter_set slot _ rfl, if_pos rfl, same]
  | caller moved => cases moved

theorem offers_afterStep (state : WorkerState) :
    (afterStep state).offers child = state.offers child := by
  cases state <;> rfl

theorem enqueues_main : enqueues child ((.main, event) : Mover count × Event) = false := by
  simp [enqueues]

theorem enqueues_of_ne (other : mover ≠ .main) :
    enqueues child (mover, event) = event.enqueues child := by
  simp [enqueues, other]

/-- An Enqueue of ReleaseSuccessors uses up an offer, and only a decrement that makes the
child ready is one more. -/
theorem CallersStep.offers_le (moved : CallersStep callers next mover event) :
    (if enqueues child (mover, event) then 1 else 0) + next.offers child ≤
      callers.offers child + if event.releases child then 1 else 0 := by
  cases moved with
  | own moved =>
      simp only [offers]
      cases moved with
      | worker moved =>
          have traded := moved.offers_trade child
          rw [moverOf, enqueues_of_ne (by rintro ⟨⟩)]
          omega
      | main moved =>
          have fewer := moved.offers child
          rw [moverOf, enqueues_main, if_neg Bool.false_ne_true]
          omega
      | _ =>
          rw [moverOf, enqueues_main, if_neg Bool.false_ne_true, Nat.zero_add]
          exact Nat.le_add_right _ _
  | @onTaskCompleted caller task outside =>
      have fewer : threadSum (WorkerState.offers child)
          (Function.update callers.callers caller (.loadPhase task)) ≤ _ :=
        JobDispatch.offers_update_le rfl caller
      rw [enqueues_of_ne (by rintro ⟨⟩)]
      simp only [offers, Event.enqueues, Event.releases, Bool.false_eq_true, if_false]
      omega
  | @caller caller after event moved =>
      have share := moved.offers child
      have trade := threadSum_update (WorkerState.offers child) callers.callers caller
        (afterStep (after.workers 0))
      rw [offers_afterStep] at trade
      rw [JobDispatch.workers_setWorker] at share
      rw [enqueues_of_ne (by rintro ⟨⟩)]
      simp only [offers]
      omega

end Callers
end MmoServer.Runtime
