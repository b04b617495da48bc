import MmoServer.LockfreeQueue.SingleProducer
import MmoServer.Runtime.JobDispatch.QueuedModel
import MmoServer.Runtime.JobDispatch.TickEffect

/-!
# The ready queue is as good as an atomic one

A dispatcher on its own `MPMCQueue` stands for a dispatcher on an atomic queue: the one that
holds what is published and not claimed, in which a worker that has claimed a position already
executes the task of that position (`Represents`). Only the runtime thread enqueues while a
graph is layered. A tick begins with an empty queue, and it enqueues each of its tasks once, so
no position is a whole lap ahead of one that is still read (`Lap`).
-/

namespace MmoServer.Runtime

open MmoServer.LockfreeQueue MmoServer.Semantics MmoServer.Std

namespace JobDispatch

/-- The dispatcher with another queue and other workers. -/
def overlay (dispatch : JobDispatch) (readyQueue : BoundedQueue TaskId taskGraphMaxNodesV1)
    (workers : WorkerIndex → WorkerState) : JobDispatch :=
  { dispatch with readyQueue, workers }

variable {dispatch : JobDispatch} {queue : BoundedQueue TaskId taskGraphMaxNodesV1}
  {workers : WorkerIndex → WorkerState} {worker : WorkerIndex}

/-! ## Steps outside of the calls of the queue -/

/-- A call does not look at the queue or at the workers. -/
theorem callStep_overlay (call : Call) : (dispatch.overlay queue workers).callStep call =
    ((dispatch.callStep call).1.overlay queue workers, (dispatch.callStep call).2) := by
  cases call with
  | initializeWith graph registry hardwareConcurrency =>
      cases running : dispatch.running with
      | true => simp only [callStep, initializeWith, overlay, running, if_true]
      | false =>
          cases valid : registry.validate graph with
          | none => simp [callStep, initializeWith, overlay, running, valid, mainFault, setMain]
          | some accepted =>
              cases accepted <;> simp [callStep, initializeWith, overlay, running, valid]
  | executePhase phase => rfl
  | shutdown => cases running : dispatch.running <;> simp [callStep, overlay, running]

/-- Nor does it move a worker. -/
theorem callStep_workers (dispatch : JobDispatch) (call : Call) :
    (dispatch.callStep call).1.workers = dispatch.workers := by
  cases call with
  | initializeWith graph registry hardwareConcurrency =>
      rw [callStep, initializeWith]
      split
      · rfl
      · split <;> rfl
  | executePhase phase => rfl
  | shutdown =>
      rw [callStep]
      split <;> rfl

/-- Off the queue, the runtime thread looks at neither of them inside a session. -/
theorem mainStep_overlay (inTick : dispatch.main.inTick = true)
    (off : dispatch.main.queueCall? = none) : (dispatch.overlay queue workers).mainStep =
      dispatch.mainStep.map fun moved => (moved.1.overlay queue workers, moved.2) := by
  cases here : dispatch.main with
  | seedEnqueue =>
      rw [here] at off
      cases off
  | build index =>
      simp only [mainStep, overlay, here, buildRuntimeState, mainFault, setMain, Option.map_some]
      split
      · rfl
      · split
        · split
          · rfl
          · split <;> rfl
        · rfl
  | seed phase position =>
      simp only [mainStep, overlay, here, seedReadyQueue, mainFault, setMain, Option.map_some]
      split
      · rfl
      · split
        · split
          · rfl
          · split <;> rfl
        · rfl
  | loadRunning phase | waitActive | waitRecheck epoch =>
      simp only [mainStep, overlay, here, setMain, Option.map_some]
      split <;> rfl
  | idle | storePhase | loadSeedPhase | seedAdd | waitEpoch | waitBlocked =>
      simp only [mainStep, overlay, here, setMain, Option.map_some, Option.map_none]
  | _ =>
      rw [here] at inTick
      cases inTick

/-- ReleaseSuccessors looks at neither of them up to its Enqueue. -/
theorem releaseSuccessors_overlay (task : TaskId) (phase : RuntimePhaseId) (position : Nat) :
    (dispatch.overlay queue workers).releaseSuccessors worker task phase position =
      ((dispatch.releaseSuccessors worker task phase position).1.overlay queue
        (Function.update workers worker
          ((dispatch.releaseSuccessors worker task phase position).1.workers worker)),
        (dispatch.releaseSuccessors worker task phase position).2) := by
  have bound : (dispatch.overlay queue workers).taskGraph = dispatch.taskGraph := rfl
  have found : ∀ id, (dispatch.overlay queue workers).getNode id = dispatch.getNode id :=
    fun _ => rfl
  have counters : (dispatch.overlay queue workers).remainingDependencies =
    dispatch.remainingDependencies := rfl
  rw [releaseSuccessors, releaseSuccessors, bound, found task, counters]
  split
  · split
    · split
      · simp [workerFault, setWorker, overlay]
      · split
        · simp [workerFault, setWorker, overlay]
        · simp only [found]
          split
          · split
            · simp [workerFault, setWorker, overlay]
            · split <;> simp [setWorker, overlay]
          · simp [setWorker, overlay]
    · simp [setWorker, overlay]
  · simp [workerFault, setWorker, overlay]

/-- Off the queue, a worker looks only at its own place. -/
theorem workerStep_overlay (same : workers worker = dispatch.workers worker)
    (off : (dispatch.workers worker).queueCall? = none) :
    (dispatch.overlay queue workers).workerStep worker =
      (dispatch.workerStep worker).map fun moved =>
        (moved.1.overlay queue (Function.update workers worker (moved.1.workers worker)),
          moved.2) := by
  have here : (dispatch.overlay queue workers).workers worker = dispatch.workers worker := same
  rw [workerStep, workerStep, here]
  cases state : dispatch.workers worker with
  | dequeue | enqueue =>
      rw [state] at off
      cases off
  | unstarted | finished | fault => rfl
  | execute task =>
      have bound : (dispatch.overlay queue workers).registry = dispatch.registry := rfl
      simp only [bound]
      split <;> simp [overlay, workerFault, setWorker]
  | loadPhase task =>
      have found : (dispatch.overlay queue workers).getNode task = dispatch.getNode task := rfl
      simp only [found]
      split <;> simp [overlay, workerFault, setWorker]
  | release task phase position =>
      simp only [releaseSuccessors_overlay, Option.map_some]
  | checkRunning | subActive =>
      simp only [overlay, setWorker, Option.map_some, Function.update_self]
      rfl
  | _ => simp only [overlay, setWorker, Option.map_some, Function.update_self]

end JobDispatch

/-! ## The dispatcher that a dispatcher on its own queue stands for -/

/-- The event is one of a call of the queue, or shows nothing. -/
def Event.ofQueue : Event → Bool
  | .silent | .enqueued _ _ | .dequeued _ _ => true
  | _ => false

/-- An Enqueue has returned. -/
def Event.isEnqueued : Event → Bool
  | .enqueued _ _ => true
  | _ => false

/-- The events outside of the calls of the queue. -/
def observed (events : List Event) : List Event := events.filter fun event => !event.ofQueue

namespace QueuedDispatch

/-- The events of the dispatcher. -/
def dispatchEvents (events : List Event) : List Runtime.Event :=
  events.filterMap fun
    | .dispatch event => some event
    | .queue _ => none

/-- The events of the queue. -/
def queueEvents (events : List Event) : List (MPMCQueue.Event TaskId) :=
  events.filterMap fun
    | .queue event => some event
    | .dispatch _ => none

/-- Where a worker is, if Dequeue takes effect when it claims a position. -/
def workerOf (queued : QueuedDispatch) (worker : WorkerIndex) : WorkerState :=
  match queued.readyQueue.due (workerThread worker) with
  | some task => .execute task
  | none => queued.dispatch.workers worker

/-- A dispatcher on an atomic queue that holds what is published and not claimed. -/
structure Represents (queued : QueuedDispatch) (dispatch : JobDispatch) : Prop where
  items : dispatch.readyQueue.items = queued.readyQueue.waiting runtimeThread
  same : dispatch = queued.dispatch.overlay dispatch.readyQueue queued.workerOf

/-- The threads are in calls of the queue where the dispatcher makes them, and no worker is in
Enqueue. -/
structure Placed (queued : QueuedDispatch) : Prop where
  main : queued.readyQueue.threads runtimeThread = .idle ∨
    ∃ state, queued.readyQueue.threads runtimeThread = .enqueue state ∧
      queued.dispatch.main.queueCall? = some (.enqueue (MPSCQueue.offering state))
  worker : ∀ worker, queued.readyQueue.threads (workerThread worker) = .idle ∨
    ∃ state, queued.readyQueue.threads (workerThread worker) = .dequeue state ∧
      queued.dispatch.workers worker = .dequeue
  others : ∀ thread, queued.readyQueue.threads thread ≠ .idle →
    thread = runtimeThread ∨ ∃ worker, thread = workerThread worker

/-- All that is claimed was published in this tick, after the queue had been empty. -/
def Lap (events : List Runtime.Event) (queue : MPMCQueue TaskId readyQueueCapacity) : Prop :=
  ∃ first, first ≤ queue.head.toNat ∧
    (∀ thread pos, (queue.threads thread).reads? = some pos → first ≤ pos.toNat) ∧
    queue.head.toNat + (queue.waiting runtimeThread).length =
      first + tally Event.isEnqueued (JobDispatch.currentTick events)

variable {queued next : QueuedDispatch} {dispatch after : JobDispatch} {worker : WorkerIndex}

/-- Nobody but the runtime thread is in Enqueue. -/
theorem Placed.oneProducer (placed : Placed queued) :
    queued.readyQueue.OneProducer runtimeThread := by
  intro thread state here
  rcases placed.others thread (by rw [here]; rintro ⟨⟩) with rfl | ⟨worker, rfl⟩
  · rfl
  · rcases placed.worker worker with idle | ⟨inside, there, -⟩
    · cases idle.symm.trans here
    · cases there.symm.trans here

/-- A thread outside of the queue has no item due. -/
theorem due_of_idle {queue : MPMCQueue TaskId readyQueueCapacity} {thread : ThreadIndex}
    (idle : queue.threads thread = .idle) : queue.due thread = none := by
  change (queue.protocolOf 0).due thread = none
  have nothing : (queue.protocolOf 0).holds thread = .none := by
    change (queue.threads thread).hold 0 = .none
    rw [idle]
    rfl
  rw [RingProtocol.due, nothing]

/-- Every worker is a thread of its own on the queue. -/
theorem workerThread_injective {worker other : WorkerIndex} :
    workerThread worker = workerThread other ↔ worker = other := by
  rw [workerThread, workerThread, Nat.add_right_cancel_iff, Fin.val_inj]

/-- A reader has claimed an item. -/
theorem due_of_reads {queue : MPMCQueue TaskId readyQueueCapacity} {thread : ThreadIndex}
    {pos : QueueSequence} (reads : (queue.threads thread).reads? = some pos) :
    ∃ task, queue.due thread = some task := by
  cases here : queue.threads thread with
  | idle =>
      rw [here] at reads
      cases reads
  | enqueue state =>
      rw [here] at reads
      cases state <;> cases reads
  | dequeue state =>
      have holds : (queue.protocolOf 0).holds thread = state.hold 0 := by
        change (queue.threads thread).hold 0 = _
        rw [here]
        rfl
      change ∃ task, (queue.protocolOf 0).due thread = some task
      rw [RingProtocol.due, holds]
      rw [here] at reads
      cases state with
      | moveOut => exact ⟨_, rfl⟩
      | storeSequence pos item => exact ⟨item, rfl⟩
      | _ => cases reads

/-- A worker with no item due is where the dispatcher has it. -/
theorem workerOf_of_none (free : queued.readyQueue.due (workerThread worker) = none) :
    queued.workerOf worker = queued.dispatch.workers worker := by
  rw [workerOf, free]

/-- A worker that has claimed an item is about to execute it. -/
theorem workerOf_of_some {task : TaskId}
    (claimed : queued.readyQueue.due (workerThread worker) = some task) :
    queued.workerOf worker = .execute task := by
  rw [workerOf, claimed]

/-- Nobody reads while no worker has a task. -/
theorem Placed.unread (placed : Placed queued)
    (empty : ∀ worker, (queued.workerOf worker).task? = none) (thread : ThreadIndex) :
    (queued.readyQueue.threads thread).reads? = none := by
  cases reads : (queued.readyQueue.threads thread).reads? with
  | none => rfl
  | some pos =>
      obtain ⟨task, claimed⟩ := due_of_reads reads
      rcases placed.others thread (fun idle => by rw [idle] at reads; cases reads) with
        rfl | ⟨worker, rfl⟩
      · rcases placed.main with idle | ⟨state, here, -⟩
        · rw [idle] at reads
          cases reads
        · rw [here] at reads
          cases state <;> cases reads
      · have holds := empty worker
        rw [workerOf_of_some claimed] at holds
        cases holds

/-! ## Steps outside of the calls of the queue -/

/-- Nobody is in a call of the queue that the dispatcher has not made. -/
theorem Placed.main_idle (placed : Placed queued)
    (off : queued.dispatch.main.queueCall? = none) :
    queued.readyQueue.threads runtimeThread = .idle := by
  rcases placed.main with idle | ⟨state, -, inside⟩
  · exact idle
  · cases off.symm.trans inside

/-- A worker that is at no call of the queue is outside of it. -/
theorem Placed.worker_idle (placed : Placed queued)
    (off : (queued.dispatch.workers worker).queueCall? = none) :
    queued.readyQueue.threads (workerThread worker) = .idle := by
  rcases placed.worker worker with idle | ⟨state, -, inside⟩
  · exact idle
  · rw [inside] at off
    cases off

/-- The runtime thread moves outside of its calls. -/
theorem Placed.mainMove (placed : Placed queued) (off : queued.dispatch.main.queueCall? = none)
    (workers : after.workers = queued.dispatch.workers) :
    Placed { queued with dispatch := after } where
  main := .inl (placed.main_idle off)
  worker other := by
    show _ ∨ ∃ state, _ ∧ after.workers other = _
    rw [workers]
    exact placed.worker other
  others := placed.others

/-- A worker moves outside of its calls. -/
theorem Placed.workerMove (placed : Placed queued)
    (off : (queued.dispatch.workers worker).queueCall? = none)
    (main : after.main = queued.dispatch.main)
    (others : ∀ other, other ≠ worker → after.workers other = queued.dispatch.workers other) :
    Placed { queued with dispatch := after } where
  main := by
    show _ ∨ ∃ state, _ ∧ after.main.queueCall? = _
    rw [main]
    exact placed.main
  worker other := by
    by_cases mine : other = worker
    · exact .inl (mine ▸ placed.worker_idle off)
    · show _ ∨ ∃ state, _ ∧ after.workers other = _
      rw [others other mine]
      exact placed.worker other
  others := placed.others

/-- The workers' places do not depend on the rest of the dispatcher. -/
theorem workerOf_of_workers (workers : after.workers = queued.dispatch.workers) :
    workerOf { queued with dispatch := after } = queued.workerOf := by
  funext worker
  rw [workerOf, workerOf, workers]

/-- A step that moves no worker keeps the representation. -/
theorem represents_of_workers {queue : BoundedQueue TaskId taskGraphMaxNodesV1}
    (items : queue.items = queued.readyQueue.waiting runtimeThread)
    (workers : after.workers = queued.dispatch.workers) :
    Represents { queued with dispatch := after } (after.overlay queue queued.workerOf) where
  items := items
  same := by
    rw [workerOf_of_workers workers]
    rfl

/-- Only one worker moves, or is served. -/
theorem workerOf_update
    (others : ∀ other, other ≠ worker →
      next.dispatch.workers other = queued.dispatch.workers other)
    (due : ∀ other, other ≠ worker →
      next.readyQueue.due (workerThread other) = queued.readyQueue.due (workerThread other)) :
    next.workerOf = Function.update queued.workerOf worker (next.workerOf worker) := by
  funext other
  by_cases mine : other = worker
  · rw [mine, Function.update_self]
  · rw [Function.update_of_ne mine, workerOf, workerOf, others other mine, due other mine]

/-- The dispatcher on the atomic queue takes every step outside of the calls as well. -/
theorem Represents.dispatchStep (represents : Represents queued dispatch) (placed : Placed queued)
    (inTick : queued.dispatch.main.inTick = true) {choice : Runtime.Choice} {event : Runtime.Event}
    (off : atQueue queued.dispatch choice = false)
    (moved : queued.dispatch.step choice = some (after, event)) :
    ∃ later, dispatch.step choice = some (later, event) ∧
      Represents { queued with dispatch := after } later ∧
      Placed { queued with dispatch := after } := by
  obtain ⟨items, same⟩ := represents
  generalize dispatch.readyQueue = queue at items same
  subst same
  cases choice with
  | call call =>
      simp only [JobDispatch.step] at moved
      split at moved
      · next idle =>
        have called := Option.some.inj moved
        obtain rfl : (queued.dispatch.callStep call).1 = after := congrArg Prod.fst called
        obtain rfl : (queued.dispatch.callStep call).2 = event := congrArg Prod.snd called
        have workers := JobDispatch.callStep_workers queued.dispatch call
        refine ⟨_, (if_pos idle).trans (congrArg some (JobDispatch.callStep_overlay call)),
          represents_of_workers items workers, placed.mainMove ?_ workers⟩
        rw [idle]
        rfl
      · cases moved
  | main =>
      have free : queued.dispatch.main.queueCall? = none := Option.not_isSome_iff_eq_none.mp (by
        rw [show queued.dispatch.main.queueCall?.isSome = false from off]
        exact Bool.false_ne_true)
      have workers := ((JobDispatch.mainStep_sound moved).frame_of_inTick inTick).2.2.2.2
      refine ⟨_, (JobDispatch.mainStep_overlay inTick free).trans (congrArg _ moved),
        represents_of_workers items workers, placed.mainMove free workers⟩
  | threadFailure =>
      simp only [JobDispatch.step] at moved
      split at moved
      · next here =>
        rw [here] at inTick
        cases inTick
      · cases moved
  | worker index =>
      have free : (queued.dispatch.workers index).queueCall? = none :=
        Option.not_isSome_iff_eq_none.mp (by
          rw [show (queued.dispatch.workers index).queueCall?.isSome = false from off]
          exact Bool.false_ne_true)
      have idle := due_of_idle (placed.worker_idle free)
      have here := workerOf_of_none idle
      have frame := (JobDispatch.workerStep_sound moved).frame
      refine ⟨_, (JobDispatch.workerStep_overlay here free).trans (congrArg _ moved), ⟨items, ?_⟩,
        placed.workerMove free frame.main frame.others⟩
      have workers : workerOf { queued with dispatch := after } =
          Function.update queued.workerOf index (after.workers index) := by
        have served : workerOf { queued with dispatch := after } index = after.workers index :=
          workerOf_of_none idle
        rw [← served]
        exact workerOf_update frame.others fun _ _ => rfl
      rw [workers]
      rfl

/-- Outside of the calls nothing is enqueued. -/
theorem isEnqueued_eq_false {choice : Runtime.Choice} {event : Runtime.Event}
    (off : atQueue dispatch choice = false)
    (moved : JobDispatch.SystemStep dispatch choice after event) : event.isEnqueued = false := by
  cases moved with
  | main moved =>
      cases moved with
      | seedEnqueue here =>
          simp only [atQueue, here] at off
          cases off
      | _ => rfl
  | worker moved =>
      cases moved with
      | enqueue here =>
          simp only [atQueue, here] at off
          cases off
      | _ => rfl
  | _ => rfl

/-- A new tick begins with an empty queue, and a new lap. -/
theorem Lap.dispatchStep {graph : TaskGraph} {events : List Runtime.Event} {event : Runtime.Event}
    {choice : Runtime.Choice} (lap : Lap events queued.readyQueue)
    (represents : Represents queued dispatch) (placed : Placed queued)
    (session : JobDispatch.Session graph events dispatch)
    (moved : JobDispatch.SystemStep dispatch choice after event)
    (quiet : event.isEnqueued = false) : Lap (events ++ [event]) queued.readyQueue := by
  rw [Lap, JobDispatch.currentTick_concat]
  split
  · next first =>
    subst first
    have between : dispatch.main.between = true := by
      cases moved with
      | calledPhase idle =>
          rw [idle]
          rfl
      | main moved => cases moved
      | worker moved => cases moved
    obtain ⟨empty, -, holds⟩ := session.settled between
    have unread := placed.unread fun worker => by
      have here := holds worker
      rw [represents.same] at here
      exact here
    refine ⟨queued.readyQueue.head.toNat, Nat.le_refl _, fun thread pos reads => ?_, ?_⟩
    · cases (unread thread).symm.trans reads
    · rw [← represents.items, empty]
      rfl
  · obtain ⟨first, low, readers, count⟩ := lap
    refine ⟨first, low, readers, ?_⟩
    rw [tally_concat, quiet]
    exact count

/-! ## Steps of the queue -/

variable {queue nextQueue : MPMCQueue TaskId readyQueueCapacity}
  {storage : Fin readyQueueCapacity.value → TaskId} {thread : ThreadIndex}
  {call : MPMCQueue.Call TaskId} {spurious : Bool} {left : TaskId}
  {shown : MPMCQueue.Event TaskId} {history : List (MPMCQueue.Event TaskId)}
  {abstract more : List Runtime.Event}

/-- While the runtime thread is about to enqueue, fewer tasks have been enqueued in the tick
than the queue has slots. -/
theorem enqueued_lt {graph : TaskGraph} {events : List Runtime.Event}
    {phase : RuntimePhaseId} {position : Nat} {task : TaskId}
    (kept : JobDispatch.LayeredSession graph events dispatch) (wellFormed : graph.WellFormed)
    (here : dispatch.main = .seedEnqueue phase position task) :
    tally Event.isEnqueued (JobDispatch.currentTick events) < taskGraphMaxNodesV1 := by
  have placement := kept.session.tick.placement
  have split : tally Event.isEnqueued (JobDispatch.currentTick events) =
      ∑ each ∈ graph.tasks, JobDispatch.enqueues (JobDispatch.currentTick events) each := by
    apply tally_eq_sum
    intro event member
    cases event with
    | enqueued other accepted =>
        have counted : 0 < JobDispatch.enqueues (JobDispatch.currentTick events) other :=
          tally_pos_iff.mpr ⟨_, member, decide_eq_true rfl⟩
        have among := placement.tasks other (by
          have := placement.enqueued other
          omega)
        simp [Event.isEnqueued, among]
    | _ => simp [Event.isEnqueued]
  have among : task ∈ graph.tasks := placement.tasks task (by
    have := placement.enqueued task
    rw [here] at this
    simp only [MainState.offers, MainState.offer?, if_true] at this
    omega)
  have fewer : ∑ each ∈ graph.tasks, JobDispatch.enqueues (JobDispatch.currentTick events) each <
      ∑ each ∈ graph.tasks, JobDispatch.created (JobDispatch.currentTick events) each := by
    refine Finset.sum_lt_sum (fun each _ => ?_) ⟨task, among, ?_⟩
    · have := placement.enqueued each
      omega
    · have := placement.enqueued task
      rw [here] at this
      simp only [MainState.offers, MainState.offer?, if_true] at this
      omega
  rw [split]
  exact Nat.lt_of_lt_of_le fewer (kept.fits wellFormed).sum_created_le

/-- A step inside the queue is one of the queue's own. -/
theorem queueStep_choice
    (moved : queueStep queue thread call spurious left = some (nextQueue, shown)) :
    ∃ choice, queue.step choice = some (nextQueue, shown) := by
  rw [queueStep] at moved
  split at moved <;> exact ⟨_, moved⟩

/-- A thread enters its call, or takes a step of it. -/
theorem queueStep_cases
    (moved : queueStep queue thread call spurious left = some (nextQueue, shown)) :
    (queue.threads thread = .idle ∧ shown = .called thread call ∧
      nextQueue.threads = Function.update queue.threads thread call.enter) ∨
    (∃ state, queue.threads thread = .enqueue state ∧
      shown = .enqueue thread (state.step queue.slots queue.tail spurious).event ∧
      nextQueue.threads = Function.update queue.threads thread
        (.ofEnqueue (state.step queue.slots queue.tail spurious).state)) ∨
    ∃ state, queue.threads thread = .dequeue state ∧
      shown = .dequeue thread (state.step queue.slots queue.head spurious left).event ∧
      nextQueue.threads = Function.update queue.threads thread
        (.ofDequeue (state.step queue.slots queue.head spurious left).state) := by
  rw [queueStep] at moved
  cases here : queue.threads thread with
  | idle =>
      simp only [here, MPMCQueue.step] at moved
      cases moved
      exact .inl ⟨rfl, rfl, rfl⟩
  | enqueue state =>
      simp only [here, MPMCQueue.step] at moved
      cases moved
      exact .inr (.inl ⟨state, rfl, rfl, rfl⟩)
  | dequeue state =>
      simp only [here, MPMCQueue.step] at moved
      cases moved
      exact .inr (.inr ⟨state, rfl, rfl, rfl⟩)

/-- No worker is the runtime thread. -/
theorem workerThread_ne (worker : WorkerIndex) : workerThread worker ≠ runtimeThread :=
  Nat.succ_ne_zero _

/-- The runtime thread takes a step of its call. -/
theorem Placed.mainQueue (placed : Placed queued) {held : MPMCQueue.ThreadState TaskId}
    (threads : nextQueue.threads = Function.update queued.readyQueue.threads runtimeThread held)
    {state : MainState} (inside : held = .idle ∨ ∃ enqueuing, held = .enqueue enqueuing ∧
      state.queueCall? = some (.enqueue (MPSCQueue.offering enqueuing))) :
    Placed { dispatch := queued.dispatch.setMain state, readyQueue := nextQueue } where
  main := by
    show nextQueue.threads runtimeThread = _ ∨ ∃ enqueuing, nextQueue.threads runtimeThread = _ ∧ _
    rw [threads, Function.update_self]
    exact inside
  worker other := by
    show nextQueue.threads (workerThread other) = _ ∨
      ∃ dequeuing, nextQueue.threads (workerThread other) = _ ∧ _
    rw [threads, Function.update_of_ne (workerThread_ne other)]
    exact placed.worker other
  others other busy := by
    by_cases mine : other = runtimeThread
    · exact .inl mine
    · refine placed.others other ?_
      have same : nextQueue.threads other = queued.readyQueue.threads other := by
        rw [threads, Function.update_of_ne mine]
      rwa [same] at busy

/-- A worker takes a step of Dequeue. -/
theorem Placed.workerQueue (placed : Placed queued) {held : MPMCQueue.ThreadState TaskId}
    (threads : nextQueue.threads =
      Function.update queued.readyQueue.threads (workerThread worker) held)
    {state : WorkerState} (inside : held = .idle ∨ ∃ dequeuing, held = .dequeue dequeuing ∧
      state = .dequeue) :
    Placed { dispatch := queued.dispatch.setWorker worker state, readyQueue := nextQueue } where
  main := by
    show nextQueue.threads runtimeThread = _ ∨ ∃ enqueuing, nextQueue.threads runtimeThread = _ ∧ _
    rw [threads, Function.update_of_ne (workerThread_ne worker).symm]
    exact placed.main
  worker other := by
    show nextQueue.threads (workerThread other) = _ ∨
      ∃ dequeuing, nextQueue.threads (workerThread other) = _ ∧
        (queued.dispatch.setWorker worker state).workers other = _
    by_cases mine : other = worker
    · subst mine
      rw [threads, Function.update_self, JobDispatch.workers_setWorker]
      exact inside
    · have apart := mt workerThread_injective.mp mine
      have same : (queued.dispatch.setWorker worker state).workers other =
          queued.dispatch.workers other := Function.update_of_ne mine _ _
      rw [threads, Function.update_of_ne apart, same]
      exact placed.worker other
  others other busy := by
    by_cases mine : other = workerThread worker
    · exact .inr ⟨worker, mine⟩
    · refine placed.others other ?_
      have same : nextQueue.threads other = queued.readyQueue.threads other := by
        rw [threads, Function.update_of_ne mine]
      rwa [same] at busy

/-- One if an item is published. -/
def publishes : MPMCQueue.Event TaskId → Nat
  | .enqueue _ (.published _ _) => 1
  | _ => 0

/-- What waits grows with every publication and shrinks with every claim. -/
theorem length_of_serves (serves : queue.Serves runtimeThread nextQueue shown) :
    (if shown.claimsHead then 1 else 0) + (nextQueue.waiting runtimeThread).length =
      (queue.waiting runtimeThread).length + publishes shown := by
  cases shown with
  | called => exact (Nat.zero_add _).trans (congrArg List.length serves.1)
  | enqueue thread event =>
      cases event with
      | published pos item =>
          have longer := congrArg List.length serves.1
          rw [List.length_append] at longer
          exact (Nat.zero_add _).trans longer
      | _ => exact (Nat.zero_add _).trans (congrArg List.length serves.1)
  | dequeue thread event =>
      cases event with
      | claimed pos =>
          obtain ⟨-, item, taken, -⟩ := serves
          have longer := congrArg List.length taken
          rw [List.length_cons] at longer
          exact (Nat.add_comm _ _).trans longer.symm
      | released pos item => exact (Nat.zero_add _).trans (congrArg List.length serves.2.1)
      | _ => exact (Nat.zero_add _).trans (congrArg List.length serves.1)

/-- A step of the queue keeps within the lap. -/
theorem Lap.queueStep (lap : Lap abstract queue)
    (before : queue.Fifo runtimeThread storage history)
    (fifo : nextQueue.Fifo runtimeThread storage (history ++ [shown]))
    (transition : ∃ choice, queue.step choice = some (nextQueue, shown))
    (serves : queue.Serves runtimeThread nextQueue shown)
    (counted : tally Event.isEnqueued (JobDispatch.currentTick more) =
      tally Event.isEnqueued (JobDispatch.currentTick abstract) + publishes shown) :
    Lap more nextQueue := by
  obtain ⟨first, low, readers, count⟩ := lap
  obtain ⟨choice, transition⟩ := transition
  have head := before.refines.head_of_step fifo.refines
  have length := length_of_serves serves
  refine ⟨first, by omega, fun thread pos reads => ?_, by omega⟩
  rcases MPMCQueue.reads_of_step transition reads with earlier | rfl
  · exact readers thread pos earlier
  · exact low

/-- A step of the queue that leaves the dispatcher where it is. -/
theorem Represents.keep (represents : Represents queued dispatch)
    (same : next.dispatch = queued.dispatch)
    (serves : next.readyQueue.waiting runtimeThread = queued.readyQueue.waiting runtimeThread ∧
      next.readyQueue.due = queued.readyQueue.due) : Represents next dispatch where
  items := represents.items.trans serves.1.symm
  same := by
    have workers : next.workerOf = queued.workerOf := by
      funext worker
      rw [workerOf, workerOf, serves.2, same]
    rw [same, workers]
    exact represents.same

/-- The item of an Enqueue becomes the newest one of the atomic queue. -/
theorem Represents.enqueue (represents : Represents queued dispatch) {phase : RuntimePhaseId}
    {position : Nat} {task : TaskId}
    (here : queued.dispatch.main = .seedEnqueue phase position task)
    (moved : next.dispatch = queued.dispatch.setMain (.seedAdd phase position))
    (waiting : next.readyQueue.waiting runtimeThread =
      queued.readyQueue.waiting runtimeThread ++ [task])
    (due : next.readyQueue.due = queued.readyQueue.due)
    (room : (next.readyQueue.waiting runtimeThread).length ≤ taskGraphMaxNodesV1) :
    ∃ later, dispatch.step .main = some (later, .enqueued task true) ∧ Represents next later := by
  obtain ⟨items, same⟩ := represents
  generalize dispatch.readyQueue = queue at items same
  subst same
  rw [waiting, ← items, List.length_append] at room
  rcases queue.enqueue_cases task with ⟨-, accepted, longer⟩ | ⟨full, -, -⟩
  · refine ⟨{ queued.dispatch.overlay (queue.enqueue task).1 queued.workerOf with
      main := .seedAdd phase position }, ?_, ?_, ?_⟩
    · have at_ : (queued.dispatch.overlay queue queued.workerOf).main =
          .seedEnqueue phase position task := here
      rw [JobDispatch.step, JobDispatch.mainStep, at_, ← accepted]
      rfl
    · exact longer.trans (by rw [waiting, items])
    · have workers : next.workerOf = queued.workerOf := by
        funext worker
        rw [workerOf, workerOf, due, moved]
        rfl
      rw [workers, moved]
      rfl
  · have one : [task].length = 1 := rfl
    omega

theorem setWorker_self (dispatch : JobDispatch) (worker : WorkerIndex) :
    dispatch.setWorker worker (dispatch.workers worker) = dispatch := by
  rw [JobDispatch.setWorker, Function.update_eq_self]

/-- A worker is served, and the others wait for what they have waited for. -/
theorem due_of_update {task? : Option TaskId} (due : next.readyQueue.due =
      Function.update queued.readyQueue.due (workerThread worker) task?)
    (other : WorkerIndex) (apart : other ≠ worker) :
    next.readyQueue.due (workerThread other) = queued.readyQueue.due (workerThread other) := by
  rw [due, Function.update_of_ne (mt workerThread_injective.mp apart)]

/-- The other workers stay where they are. -/
theorem workers_of_moved {state : WorkerState}
    (moved : next.dispatch = queued.dispatch.setWorker worker state)
    (other : WorkerIndex) (apart : other ≠ worker) :
    next.dispatch.workers other = queued.dispatch.workers other := by
  rw [moved]
  exact Function.update_of_ne apart _ _

/-- The worker that claims a position takes the oldest item of the atomic queue. -/
theorem Represents.claim (represents : Represents queued dispatch) {task : TaskId}
    (here : queued.dispatch.workers worker = .dequeue) (same : next.dispatch = queued.dispatch)
    (free : queued.readyQueue.due (workerThread worker) = none)
    (taken : queued.readyQueue.waiting runtimeThread =
      task :: next.readyQueue.waiting runtimeThread)
    (due : next.readyQueue.due =
      Function.update queued.readyQueue.due (workerThread worker) (some task)) :
    ∃ later, dispatch.step (.worker worker) = some (later, .dequeued worker task) ∧
      Represents next later := by
  have workers : next.workerOf = Function.update queued.workerOf worker (.execute task) := by
    rw [workerOf_update (fun _ _ => by rw [same]) (due_of_update due),
      workerOf_of_some (by rw [due, Function.update_self])]
  have idle := workerOf_of_none free
  obtain ⟨items, overlaid⟩ := represents
  generalize dispatch.readyQueue = queue at items overlaid
  subst overlaid
  obtain ⟨_ | ⟨oldest, rest⟩, bounded⟩ := queue
  · cases items.trans taken
  · obtain ⟨rfl, rest_⟩ := List.cons.inj (items.trans taken)
    refine ⟨queued.dispatch.overlay ⟨rest, Nat.le_of_succ_le bounded⟩
      (Function.update queued.workerOf worker (.execute oldest)), ?_, rest_, ?_⟩
    · have at_ : (queued.dispatch.overlay ⟨oldest :: rest, bounded⟩ queued.workerOf).workers
          worker = .dequeue := idle.trans here
      rw [JobDispatch.step, JobDispatch.workerStep, at_]
      rfl
    · rw [workers, same]
      rfl

/-- The worker goes on with the task that it has claimed. -/
theorem Represents.release (represents : Represents queued dispatch) {task : TaskId}
    (claimed : queued.readyQueue.due (workerThread worker) = some task)
    (moved : next.dispatch = queued.dispatch.setWorker worker (.execute task))
    (waiting : next.readyQueue.waiting runtimeThread = queued.readyQueue.waiting runtimeThread)
    (due : next.readyQueue.due =
      Function.update queued.readyQueue.due (workerThread worker) none) :
    Represents next dispatch where
  items := represents.items.trans waiting.symm
  same := by
    have free : next.readyQueue.due (workerThread worker) = none := by
      rw [due, Function.update_self]
    have workers : next.workerOf = queued.workerOf := by
      rw [workerOf_update (workers_of_moved moved) (due_of_update due), workerOf_of_none free,
        moved, JobDispatch.workers_setWorker, ← workerOf_of_some claimed, Function.update_eq_self]
    rw [workers, moved]
    exact represents.same

/-- The worker that is refused finds the atomic queue empty. -/
theorem Represents.empty (represents : Represents queued dispatch)
    (here : queued.dispatch.workers worker = .dequeue)
    (free : queued.readyQueue.due (workerThread worker) = none)
    (nothing : queued.readyQueue.waiting runtimeThread = [])
    (moved : next.dispatch = queued.dispatch.setWorker worker .checkRunning)
    (waiting : next.readyQueue.waiting runtimeThread = queued.readyQueue.waiting runtimeThread)
    (due : next.readyQueue.due = queued.readyQueue.due) :
    ∃ later, dispatch.step (.worker worker) = some (later, .silent) ∧ Represents next later := by
  have idle := workerOf_of_none free
  obtain ⟨items, overlaid⟩ := represents
  generalize dispatch.readyQueue = queue at items overlaid
  subst overlaid
  obtain ⟨_ | ⟨oldest, rest⟩, bounded⟩ := queue
  · refine ⟨queued.dispatch.overlay ⟨[], bounded⟩
      (Function.update queued.workerOf worker .checkRunning), ?_, items.trans waiting.symm, ?_⟩
    · have at_ : (queued.dispatch.overlay ⟨[], bounded⟩ queued.workerOf).workers worker =
          .dequeue := idle.trans here
      rw [JobDispatch.step, JobDispatch.workerStep, at_]
      rfl
    · have workers : next.workerOf = Function.update queued.workerOf worker .checkRunning := by
        rw [workerOf_update (workers_of_moved moved) (fun _ _ => by rw [due]),
          workerOf_of_none (by rw [due, free]), moved, JobDispatch.workers_setWorker]
      rw [workers, moved]
      rfl
  · cases items.trans nothing

/-- The runtime thread calls Enqueue while it seeds the queue. -/
theorem main_call {state : MainState} (called : state.queueCall? = some call) :
    ∃ phase position task, state = .seedEnqueue phase position task ∧ call = .enqueue task := by
  cases state with
  | seedEnqueue phase position task =>
      cases called
      exact ⟨phase, position, task, rfl, rfl⟩
  | _ => cases called

/-- No worker of a layered graph is about to enqueue. -/
theorem Represents.worker_call (represents : Represents queued dispatch) (placed : Placed queued)
    {graph : TaskGraph} (kept : JobDispatch.LayeredSession graph abstract dispatch)
    (layered : graph.Layered) (called : (queued.dispatch.workers worker).queueCall? = some call) :
    queued.dispatch.workers worker = .dequeue ∧ call = .dequeue := by
  cases here : queued.dispatch.workers worker with
  | dequeue =>
      rw [here] at called
      cases called
      exact ⟨rfl, rfl⟩
  | enqueue task phase position child =>
      have offered := (kept.inPhase.workers worker).offer?_eq_none
        (kept.session.tick.sound worker) layered
      have seen : dispatch.workers worker = queued.workerOf worker :=
        congrFun (congrArg JobDispatch.workers represents.same) worker
      rcases placed.worker worker with idle | ⟨state, -, inside⟩
      · rw [seen, workerOf_of_none (due_of_idle idle), here] at offered
        cases offered
      · cases here.symm.trans inside
  | _ =>
      rw [here] at called
      cases called

end QueuedDispatch
end MmoServer.Runtime
