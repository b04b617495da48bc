import MmoServer.Runtime.JobDispatch.Trace

/-!
# Where the tasks of a tick are

Over a well-formed graph every decision to enqueue a task can be followed: the
task is about to be enqueued, queued, held by a worker, completed, or was
refused by a full queue. The same bookkeeping relates the begins and ends of
task functions and the decrements of every edge to the completions of its
parent and to the workers that are in the middle of its release loop.

Nothing here depends on the order in which the runtime thread and the workers
move; what depends on it is how often a task is created.
-/

namespace MmoServer.Runtime

open MmoServer.Std MmoServer.Semantics

/-- What a worker's state promises about the graph it runs. -/
def WorkerState.Local (graph : TaskGraph) : WorkerState → Prop
  | .execute task | .executing task | .loadPhase task | .subActive task => task ∈ graph.tasks
  | .release task _ position => task ∈ graph.tasks ∧ position ≤ (graph.nodeOf task).childCount
  | .enqueue task _ position child =>
    task ∈ graph.tasks ∧ (graph.children task)[position]? = some child
  | .addActive task _ position => task ∈ graph.tasks ∧ position < (graph.nodeOf task).childCount
  | .fault => False
  | .unstarted | .checkRunning | .dequeue | .bumpEpoch | .notifyAll | .finished => True

namespace JobDispatch

/-- Every worker holds tasks and children of the graph, and none has faulted. -/
def Local (graph : TaskGraph) (dispatch : JobDispatch) : Prop :=
  ∀ worker, (dispatch.workers worker).Local graph

/-- Every task created is somewhere: about to be enqueued, queued, held,
completed or refused. -/
structure Placement (graph : TaskGraph) (events : List Event) (dispatch : JobDispatch) : Prop where
  tasks : ∀ task, 0 < created events task → task ∈ graph.tasks
  balance : ∀ task, dispatch.main.offers task + dispatch.readyQueue.items.count task +
    threadSum (WorkerState.offers task) dispatch.workers +
    threadSum (WorkerState.holds task) dispatch.workers + completions events task +
    refusals events task = created events task
  enqueued : ∀ task, dispatch.main.offers task +
    threadSum (WorkerState.offers task) dispatch.workers + enqueues events task =
    created events task

/-- Every execution begun is in progress, past its end, or completed. -/
structure Execution (events : List Event) (dispatch : JobDispatch) : Prop where
  begun : ∀ task, begins events task =
    threadSum (WorkerState.begun task) dispatch.workers + completions events task
  ended : ∀ task, ends events task =
    threadSum (WorkerState.ended task) dispatch.workers + completions events task

/-- Every completion of a task, and every release loop past a position, has
decremented the child there once; nothing else has been decremented. -/
structure Release (graph : TaskGraph) (events : List Event) (dispatch : JobDispatch) : Prop where
  passed : ∀ parent ∈ graph.tasks, ∀ position child,
    (graph.children parent)[position]? = some child → decrements events parent child =
      threadSum (WorkerState.passes parent position) dispatch.workers + completions events parent
  edges : ∀ parent child, 0 < decrements events parent child → graph.Edge parent child

variable {graph : TaskGraph} {dispatch next : JobDispatch} {events : List Event} {event : Event}
  {worker : WorkerIndex} {task parent child : TaskId}

/-- A weight that the moving worker keeps keeps its sum. -/
theorem WorkerFrame.keep (frame : WorkerFrame dispatch worker next) {weight : WorkerState → Nat}
    (same : weight (next.workers worker) = weight (dispatch.workers worker)) :
    threadSum weight next.workers = threadSum weight dispatch.workers := by
  have trade := frame.trade weight
  omega

/-- The moved worker is fine and the others have not moved. -/
theorem WorkerFrame.local (frame : WorkerFrame dispatch worker next)
    (workers : ∀ worker, (dispatch.workers worker).Local graph)
    (here : (next.workers worker).Local graph) : ∀ other, (next.workers other).Local graph := by
  intro other
  by_cases same : other = worker
  · exact same ▸ here
  · rw [frame.others other same]
    exact workers other

/-- Positions of the child list are positions below the child count. -/
theorem position_lt {position : Nat} (named : (graph.children parent)[position]? = some child) :
    position < (graph.nodeOf parent).childCount := by
  have inside := (List.getElem?_eq_some_iff.mp named).1
  rwa [TaskGraph.length_children] at inside

/-- What ReleaseSuccessors reads of a task of a well-formed graph is that task's
child list. -/
theorem Local.child_eq (sound : Local graph dispatch) (wellFormed : graph.WellFormed)
    (bound : dispatch.taskGraph = some graph) {phase : RuntimePhaseId} {position : Nat}
    (here : dispatch.workers worker = .release task phase position) {graph' : TaskGraph}
    {node : TaskNode} (bound' : dispatch.taskGraph = some graph')
    (found : dispatch.getNode task = some node) (more : position < node.childCount)
    (named : graph'.child? node position = some child) :
    task ∈ graph.tasks ∧ (graph.children task)[position]? = some child ∧ child ∈ graph.tasks := by
  cases bound.symm.trans bound'
  have state := sound worker
  rw [here] at state
  have node_eq : graph.nodeOf task = node := by
    rw [getNode, bound, Option.bind_some, wellFormed.getNode_eq state.1] at found
    exact Option.some.inj found
  subst node_eq
  rw [wellFormed.child?_eq state.1 more] at named
  exact ⟨state.1, named, wellFormed.child_mem_tasks state.1 (List.mem_of_getElem? named)⟩

/-- A quiet event moves none of the tallies. -/
theorem quiet_tallies (events : List Event) (quiet : event.quiet = true) :
    (∀ task, created (events ++ [event]) task = created events task) ∧
    (∀ task, enqueues (events ++ [event]) task = enqueues events task) ∧
    (∀ task, refusals (events ++ [event]) task = refusals events task) ∧
    (∀ task, begins (events ++ [event]) task = begins events task) ∧
    (∀ task, ends (events ++ [event]) task = ends events task) ∧
    (∀ task, completions (events ++ [event]) task = completions events task) ∧
    ∀ parent child, decrements (events ++ [event]) parent child =
      decrements events parent child := by
  cases event <;> simp_all [created, zeroScans, releases, enqueues, refusals, begins, ends,
    completions, decrements]

/-! ## Placement -/

/-- Nothing is created, moved, completed or refused. -/
theorem Placement.keep (placement : Placement graph events dispatch)
    (creates : ∀ task, created (events ++ [event]) task = created events task)
    (others : ∀ task, enqueues (events ++ [event]) task = enqueues events task ∧
      refusals (events ++ [event]) task = refusals events task ∧
      completions (events ++ [event]) task = completions events task)
    (main : ∀ task, next.main.offers task = dispatch.main.offers task)
    (queue : next.readyQueue = dispatch.readyQueue)
    (threads : ∀ task, threadSum (WorkerState.offers task) next.workers =
        threadSum (WorkerState.offers task) dispatch.workers ∧
      threadSum (WorkerState.holds task) next.workers =
        threadSum (WorkerState.holds task) dispatch.workers) :
    Placement graph (events ++ [event]) next := by
  refine ⟨fun task positive => ?_, fun task => ?_, fun task => ?_⟩
  · exact placement.tasks task (creates task ▸ positive)
  · rw [main, queue, (threads task).1, (threads task).2, (others task).2.2, (others task).2.1,
      creates]
    exact placement.balance task
  · rw [main, (threads task).1, (others task).1, creates]
    exact placement.enqueued task

/-- A worker step that neither takes, releases, enqueues nor completes a task. -/
theorem Placement.keepWorker (placement : Placement graph events dispatch)
    (frame : WorkerFrame dispatch worker next)
    (creates : ∀ task, created (events ++ [event]) task = created events task)
    (others : ∀ task, enqueues (events ++ [event]) task = enqueues events task ∧
      refusals (events ++ [event]) task = refusals events task ∧
      completions (events ++ [event]) task = completions events task)
    (queue : next.readyQueue = dispatch.readyQueue)
    (held : (next.workers worker).task? = (dispatch.workers worker).task?)
    (offered : (next.workers worker).offer? = (dispatch.workers worker).offer?) :
    Placement graph (events ++ [event]) next := by
  refine placement.keep creates others (fun task => by rw [frame.main]) queue fun task => ⟨?_, ?_⟩
  · exact frame.keep (by simp only [WorkerState.offers, offered])
  · exact frame.keep (by simp only [WorkerState.holds, held])

/-- A task taken off the active count moves from the worker to the completions. -/
theorem Placement.subActive (placement : Placement graph events dispatch)
    (frame : WorkerFrame dispatch worker next) (here : dispatch.workers worker = .subActive task)
    (held : (next.workers worker).task? = none) (offered : (next.workers worker).offer? = none)
    (queue : next.readyQueue = dispatch.readyQueue) :
    Placement graph (events ++ [.completedTask worker task]) next := by
  have offers : ∀ other, threadSum (WorkerState.offers other) next.workers =
      threadSum (WorkerState.offers other) dispatch.workers := by
    refine fun other => frame.keep ?_
    rw [WorkerState.offers, offered, here]
    rfl
  refine ⟨fun other positive => placement.tasks other ?_, fun other => ?_, fun other => ?_⟩
  · simpa [created, zeroScans, releases] using positive
  · have balance := placement.balance other
    have trade := frame.trade (WorkerState.holds other)
    have before : WorkerState.holds other (.subActive task) = if task = other then 1 else 0 := by
      simp only [WorkerState.holds, WorkerState.task?, Option.some.injEq]
    have after : WorkerState.holds other (next.workers worker) = 0 := by
      rw [WorkerState.holds, held]
      rfl
    rw [here, before, after] at trade
    rw [frame.main, queue, offers other]
    simp [created, zeroScans, releases, refusals, completions] at balance ⊢
    omega
  · rw [frame.main, offers other]
    simpa [created, zeroScans, releases, enqueues] using placement.enqueued other

/-- A worker enqueues what it has released. -/
theorem Placement.enqueued_worker (placement : Placement graph events dispatch)
    (moved : WorkerStep dispatch worker next event) (task : TaskId) :
    next.main.offers task + threadSum (WorkerState.offers task) next.workers +
      enqueues (events ++ [event]) task = created (events ++ [event]) task := by
  have enqueued := placement.enqueued task
  have trade := moved.offers_trade task
  have unscanned : event.zeroScans task = false := by cases moved <;> rfl
  simp only [moved.frame.main, created, JobDispatch.zeroScans, releases, enqueues, tally_concat,
    unscanned] at enqueued ⊢
  simp only [Bool.false_eq_true, if_false]
  omega

theorem Placement.workerStep (placement : Placement graph events dispatch)
    (wellFormed : graph.WellFormed) (bound : dispatch.taskGraph = some graph)
    (sound : Local graph dispatch) (moved : WorkerStep dispatch worker next event)
    (calm : event ≠ .faulted) : Placement graph (events ++ [event]) next := by
  have frame := moved.frame
  have main := frame.main
  have holds := fun task => frame.trade (WorkerState.holds task)
  have offers := fun task => frame.trade (WorkerState.offers task)
  have enqueued := placement.enqueued_worker moved
  cases moved with
  | checkRunning here =>
      refine placement.keepWorker frame (fun _ => ?_) (fun _ => ?_) rfl ?_ ?_
      all_goals simp [here, setWorker, created, zeroScans, releases, enqueues, refusals, completions]
      all_goals split <;> rfl
  | dequeueEmpty here | execute here | executing here | loadPhase here | releaseDone here
  | releaseHeld here | addActive here | bumpEpoch here | notifyAll here =>
      refine placement.keepWorker frame (fun _ => ?_) (fun _ => ?_) rfl ?_ ?_
      all_goals simp [here, setWorker, created, zeroScans, releases, enqueues, refusals,
        completions, WorkerState.task?, WorkerState.offer?]
  | @dequeue task rest here taken =>
      have items := BoundedQueue.dequeue_eq_some taken
      have counts := fun other => congrArg (List.count other) items
      simp only [here, setWorker, Function.update_self, WorkerState.holds, WorkerState.offers,
        WorkerState.task?, WorkerState.offer?, Option.some.injEq, reduceCtorEq, if_false,
        List.count_cons, beq_iff_eq] at holds offers counts
      refine ⟨fun other positive => placement.tasks other ?_, fun other => ?_, enqueued⟩
      · simpa [created, zeroScans, releases] using positive
      · have balance := placement.balance other
        have counted := counts other
        have trade := holds other
        have offered := offers other
        simp [created, zeroScans, releases, refusals, completions, setWorker] at balance ⊢
        omega
  | @releaseReady task phase position graph' node child childNode here bound' found more named =>
      have member : child ∈ graph.tasks := (sound.child_eq wellFormed bound here bound' found more
        named).2.2
      simp only [here, setWorker, Function.update_self, WorkerState.holds, WorkerState.offers,
        WorkerState.task?, WorkerState.offer?, Option.some.injEq, reduceCtorEq, if_false]
        at holds offers
      refine ⟨fun other positive => ?_, fun other => ?_, enqueued⟩
      · by_cases same : child = other
        · exact same ▸ member
        · exact placement.tasks other (by simpa [created, zeroScans, releases, same] using positive)
      · have balance := placement.balance other
        have trade := holds other
        have offered := offers other
        simp [created, zeroScans, releases, refusals, completions, setWorker] at balance ⊢
        omega
  | @enqueue task phase position child here =>
      simp only [here, setWorker, Function.update_self, WorkerState.holds, WorkerState.offers,
        WorkerState.task?, WorkerState.offer?, Option.some.injEq, reduceCtorEq, if_false]
        at holds offers
      refine ⟨fun other positive => placement.tasks other ?_, fun other => ?_, enqueued⟩
      · simpa [created, zeroScans, releases] using positive
      · have balance := placement.balance other
        have trade := holds other
        have offered := offers other
        rcases BoundedQueue.enqueue_cases dispatch.readyQueue child with
          ⟨_, accepted, items⟩ | ⟨_, refused, same⟩
        · simp [created, zeroScans, releases, refusals, completions, setWorker, accepted, items,
            List.count_singleton] at balance ⊢
          omega
        · simp [created, zeroScans, releases, refusals, completions, setWorker, refused, same]
            at balance ⊢
          omega
  | subActive here =>
      refine placement.subActive frame here ?_ ?_ rfl
      all_goals simp only [setWorker, Function.update_self]
      all_goals split <;> rfl
  | fault => exact absurd rfl calm

/-- A step of the runtime thread that neither scans nor enqueues. -/
theorem Placement.keepMain (placement : Placement graph events dispatch)
    (quiet : event.quiet = true) (before : dispatch.main.offer? = none)
    (after : next.main.offer? = none) (queue : next.readyQueue = dispatch.readyQueue)
    (workers : next.workers = dispatch.workers) : Placement graph (events ++ [event]) next := by
  obtain ⟨creates, enqueues, refusals, _, _, completions, _⟩ := quiet_tallies events quiet
  refine placement.keep creates (fun task => ⟨enqueues task, refusals task, completions task⟩)
    (fun task => ?_) queue fun task => by rw [workers]; exact ⟨rfl, rfl⟩
  rw [MainState.offers, MainState.offers, before, after]

/-- The node SeedReadyQueue scans is a task of the graph. -/
theorem scanned_mem (wellFormed : graph.WellFormed) {phase : RuntimePhaseId} {position : Nat}
    {node : TaskNode} (more : position < (graph.phaseRange phase).count)
    (found : graph.node? ((graph.phaseRange phase).begin + position) = some node) :
    graph.node ((graph.phaseRange phase).begin + position) = node ∧ node.id ∈ graph.tasks := by
  have inside := (wellFormed.node_of_range more).1
  have same := Option.some.inj ((wellFormed.node?_eq inside).symm.trans found)
  exact ⟨same, TaskGraph.mem_tasks_iff.mpr ⟨_, inside, congrArg TaskNode.id same⟩⟩

theorem Placement.mainStep (placement : Placement graph events dispatch)
    (wellFormed : graph.WellFormed) (bound : dispatch.taskGraph = some graph)
    (inTick : dispatch.main.inTick = true) (moved : MainStep dispatch next event) :
    Placement graph (events ++ [event]) next := by
  cases moved with
  | loadRunning here | loadRunningRefused here | build here | buildDone here | buildFault here
  | loadSeedPhase here | seedDone here | seedFault here | seedAdd here | waitBusy here
  | waitEpoch here | waitRecheck here | waitReturned here =>
      exact placement.keepMain rfl (by rw [here]; rfl) rfl rfl rfl
  | storePhase here =>
      refine placement.keepMain rfl (by rw [here]; rfl) ?_ rfl rfl
      dsimp only
      split <;> rfl
  | waitDone here =>
      refine placement.keepMain rfl ?_ rfl rfl rfl
      rcases here with here | ⟨epoch, here⟩ <;> rw [here] <;> rfl
  | @seed phase position graph' node remaining here bound' more found =>
      cases bound.symm.trans bound'
      have member := (scanned_mem wellFormed more found).2
      have offers : ∀ task, dispatch.main.offers task = 0 := fun task => by
        rw [here]
        rfl
      by_cases zero : remaining = 0
      · subst zero
        refine ⟨fun task positive => ?_, fun task => ?_, fun task => ?_⟩
        · by_cases same : node.id = task
          · exact same ▸ member
          · exact placement.tasks task (by simpa [created, zeroScans, releases, same] using positive)
        · have balance := placement.balance task
          rw [offers task] at balance
          simp [created, zeroScans, releases, refusals, completions, setMain, MainState.offers,
            MainState.offer?] at balance ⊢
          omega
        · have enqueued := placement.enqueued task
          rw [offers task] at enqueued
          simp [created, zeroScans, releases, enqueues, setMain, MainState.offers,
            MainState.offer?] at enqueued ⊢
          omega
      · refine placement.keep (fun task => ?_) (fun task => ?_) (fun task => ?_) rfl
          fun task => ⟨rfl, rfl⟩
        · simp [created, zeroScans, releases, zero]
        · simp [enqueues, refusals, completions]
        · rw [offers task]
          simp [setMain, zero, MainState.offers, MainState.offer?]
  | @seedEnqueue phase position task here =>
      have offers : ∀ other, dispatch.main.offers other = if task = other then 1 else 0 :=
        fun other => by simp [here, MainState.offers, MainState.offer?]
      refine ⟨fun other positive => placement.tasks other ?_, fun other => ?_, fun other => ?_⟩
      · simpa [created, zeroScans, releases] using positive
      · have balance := placement.balance other
        rw [offers other] at balance
        rcases BoundedQueue.enqueue_cases dispatch.readyQueue task with
          ⟨_, accepted, items⟩ | ⟨_, refused, same⟩
        · simp [created, zeroScans, releases, refusals, completions, accepted, items,
            List.count_singleton, MainState.offers, MainState.offer?] at balance ⊢
          omega
        · simp [created, zeroScans, releases, refusals, completions, refused, same,
            MainState.offers, MainState.offer?] at balance ⊢
          omega
      · have enqueued := placement.enqueued other
        rw [offers other] at enqueued
        simp [created, zeroScans, releases, enqueues, MainState.offers, MainState.offer?]
          at enqueued ⊢
        omega
  | startPoolRefused here | startPool here | startWorker here | startWorkerFault here
  | startedWorkers here | storeRunning here | stopPool here | joinSkip here | join here
  | joinFault here | joined here | clearActive here | clearEpoch here | clearPhase here
  | clearCounters here | cleared here =>
      rw [here] at inTick
      cases inTick

/-! ## Execution -/

/-- No execution begins, ends or completes. -/
theorem Execution.keep (execution : Execution events dispatch)
    (others : ∀ task, begins (events ++ [event]) task = begins events task ∧
      ends (events ++ [event]) task = ends events task ∧
      completions (events ++ [event]) task = completions events task)
    (threads : ∀ task, threadSum (WorkerState.begun task) next.workers =
        threadSum (WorkerState.begun task) dispatch.workers ∧
      threadSum (WorkerState.ended task) next.workers =
        threadSum (WorkerState.ended task) dispatch.workers) :
    Execution (events ++ [event]) next := by
  refine ⟨fun task => ?_, fun task => ?_⟩
  · rw [(others task).1, (others task).2.2, (threads task).1]
    exact execution.begun task
  · rw [(others task).2.1, (others task).2.2, (threads task).2]
    exact execution.ended task

theorem Execution.workerStep (execution : Execution events dispatch)
    (moved : WorkerStep dispatch worker next event) (calm : event ≠ .faulted) :
    Execution (events ++ [event]) next := by
  have frame := moved.frame
  have begun := fun task => frame.trade (WorkerState.begun task)
  have ended := fun task => frame.trade (WorkerState.ended task)
  cases moved with
  | checkRunning here =>
      refine execution.keep (fun _ => ?_) fun task => ⟨frame.keep ?_, frame.keep ?_⟩
      · simp [begins, ends, completions]
      all_goals simp only [here, setWorker, Function.update_self]
      all_goals split <;> rfl
  | dequeueEmpty here | dequeue here | loadPhase here | releaseDone here | releaseHeld here
  | releaseReady here | enqueue here | addActive here | bumpEpoch here | notifyAll here =>
      refine execution.keep (fun _ => ?_) fun task => ⟨frame.keep ?_, frame.keep ?_⟩
      · simp [begins, ends, completions]
      all_goals simp [here, setWorker, WorkerState.begun, WorkerState.begun?, WorkerState.ended,
        WorkerState.ended?, WorkerState.task?]
  | @execute task registry here bound =>
      simp only [here, setWorker, Function.update_self, WorkerState.begun, WorkerState.begun?,
        WorkerState.ended, WorkerState.ended?, WorkerState.task?, Option.some.injEq,
        reduceCtorEq, if_false] at begun ended
      refine ⟨fun other => ?_, fun other => ?_⟩
      · have before := execution.begun other
        have trade := begun other
        simp [begins, completions, setWorker] at before ⊢
        omega
      · have before := execution.ended other
        have trade := ended other
        simp [ends, completions, setWorker] at before ⊢
        omega
  | @executing task here =>
      simp only [here, setWorker, Function.update_self, WorkerState.begun, WorkerState.begun?,
        WorkerState.ended, WorkerState.ended?, WorkerState.task?, Option.some.injEq,
        reduceCtorEq, if_false] at begun ended
      refine ⟨fun other => ?_, fun other => ?_⟩
      · have before := execution.begun other
        have trade := begun other
        simp [begins, completions, setWorker] at before ⊢
        omega
      · have before := execution.ended other
        have trade := ended other
        simp [ends, completions, setWorker] at before ⊢
        omega
  | @subActive task here =>
      have after : ∀ other, WorkerState.begun other
            (if dispatch.activeTaskCount = 1 then .bumpEpoch else .checkRunning) = 0 ∧
          WorkerState.ended other
            (if dispatch.activeTaskCount = 1 then .bumpEpoch else .checkRunning) = 0 := by
        intro other
        split <;> exact ⟨rfl, rfl⟩
      simp only [here, setWorker, Function.update_self, (after _).1, (after _).2] at begun ended
      simp only [WorkerState.begun, WorkerState.begun?, WorkerState.ended, WorkerState.ended?,
        WorkerState.task?, Option.some.injEq] at begun ended
      refine ⟨fun other => ?_, fun other => ?_⟩
      · have before := execution.begun other
        have trade := begun other
        simp [begins, completions, setWorker] at before ⊢
        omega
      · have before := execution.ended other
        have trade := ended other
        simp [ends, completions, setWorker] at before ⊢
        omega
  | fault => exact absurd rfl calm

theorem Execution.keepMain (execution : Execution events dispatch)
    (inTick : dispatch.main.inTick = true) (moved : MainStep dispatch next event) :
    Execution (events ++ [event]) next := by
  have kept : next.workers = dispatch.workers ∧ ∀ task,
      begins (events ++ [event]) task = begins events task ∧
      ends (events ++ [event]) task = ends events task ∧
      completions (events ++ [event]) task = completions events task := by
    cases moved with
    | startWorker here | join here =>
        rw [here] at inTick
        cases inTick
    | _ => exact ⟨rfl, fun task => by simp [begins, ends, completions]⟩
  exact execution.keep kept.2 fun task => by rw [kept.1]; exact ⟨rfl, rfl⟩

/-! ## Release -/

/-- No child is decremented and no release loop advances. -/
theorem Release.keep (release : Release graph events dispatch)
    (others : ∀ parent, completions (events ++ [event]) parent = completions events parent ∧
      ∀ child, decrements (events ++ [event]) parent child = decrements events parent child)
    (threads : ∀ parent ∈ graph.tasks, ∀ position < (graph.nodeOf parent).childCount,
      threadSum (WorkerState.passes parent position) next.workers =
        threadSum (WorkerState.passes parent position) dispatch.workers) :
    Release graph (events ++ [event]) next := by
  refine ⟨fun parent member position child named => ?_, fun parent child positive => ?_⟩
  · rw [(others parent).1, (others parent).2, threads parent member position (position_lt named)]
    exact release.passed parent member position child named
  · exact release.edges parent child ((others parent).2 child ▸ positive)

/-- The decrement at one position of one parent, and of no other. -/
theorem Release.decrement (release : Release graph events dispatch)
    (wellFormed : graph.WellFormed) (frame : WorkerFrame dispatch worker next)
    {phase : RuntimePhaseId} {position old : Nat} {ready : Bool}
    (here : dispatch.workers worker = .release parent phase position)
    (member : parent ∈ graph.tasks) (named : (graph.children parent)[position]? = some child)
    (there : ∀ task reached, (next.workers worker).passed task reached =
      decide (parent = task ∧ reached ≤ position)) :
    Release graph (events ++ [.decremented worker parent child old ready]) next := by
  refine ⟨fun task memberTask reached other namedOther => ?_, fun task other positive => ?_⟩
  · have earlier := release.passed task memberTask reached other namedOther
    have trade := frame.trade (WorkerState.passes task reached)
    have passed : WorkerState.passes task reached (next.workers worker) =
        if parent = task ∧ reached ≤ position then 1 else 0 := by
      rw [WorkerState.passes, there]
      simp only [decide_eq_true_eq]
    have before : WorkerState.passes task reached (.release parent phase position) =
        if parent = task ∧ reached < position then 1 else 0 := by
      simp only [WorkerState.passes, WorkerState.passed, decide_eq_true_eq]
    rw [here, passed, before] at trade
    by_cases same : parent = task
    · subst same
      -- The positions of a child list name distinct children.
      have distinct : child = other ↔ position = reached := by
        refine ⟨fun equal => ?_, fun equal => ?_⟩
        · subst equal
          have inside := (List.getElem?_eq_some_iff.mp named).1
          exact (List.getElem?_inj inside (wellFormed.children_nodup member)).mp
            (named.trans namedOther.symm)
        · subst equal
          exact Option.some.inj (named.symm.trans namedOther)
      simp only [true_and] at trade
      simp [decrements, completions, distinct] at earlier ⊢
      split_ifs at trade ⊢ <;> omega
    · simp only [same, false_and, if_false] at trade
      simp [decrements, completions, same] at earlier ⊢
      omega
  · by_cases same : parent = task ∧ child = other
    · obtain ⟨rfl, rfl⟩ := same
      exact ⟨member, List.mem_of_getElem? named⟩
    · refine release.edges task other ?_
      simpa [decrements, same] using positive

/-- A completed release loop has passed every position. -/
theorem Release.subActive (release : Release graph events dispatch)
    (frame : WorkerFrame dispatch worker next) (here : dispatch.workers worker = .subActive task)
    (there : ∀ other reached, (next.workers worker).passed other reached = false) :
    Release graph (events ++ [.completedTask worker task]) next := by
  refine ⟨fun parent member position child named => ?_, fun parent child positive => ?_⟩
  · have earlier := release.passed parent member position child named
    have trade := frame.trade (WorkerState.passes parent position)
    have before : WorkerState.passes parent position (.subActive task) =
        if task = parent then 1 else 0 := by
      simp only [WorkerState.passes, WorkerState.passed, decide_eq_true_eq]
    have after : WorkerState.passes parent position (next.workers worker) = 0 := by
      rw [WorkerState.passes, there]
      rfl
    rw [here, before, after] at trade
    simp [decrements, completions] at earlier ⊢
    omega
  · refine release.edges parent child ?_
    simpa [decrements] using positive

theorem Release.workerStep (release : Release graph events dispatch)
    (wellFormed : graph.WellFormed) (bound : dispatch.taskGraph = some graph)
    (sound : Local graph dispatch) (moved : WorkerStep dispatch worker next event)
    (calm : event ≠ .faulted) : Release graph (events ++ [event]) next := by
  have frame := moved.frame
  cases moved with
  | checkRunning here =>
      refine release.keep (fun _ => ?_) fun parent _ position _ => frame.keep ?_
      · simp [decrements, completions]
      · simp only [here, setWorker, Function.update_self]
        split <;> rfl
  | dequeueEmpty here | dequeue here | execute here | executing here | loadPhase here
  | bumpEpoch here | notifyAll here | enqueue here =>
      refine release.keep (fun _ => ?_) fun parent _ position _ => frame.keep ?_
      · simp [decrements, completions]
      · simp [here, setWorker, WorkerState.passes, WorkerState.passed]
  | addActive here =>
      refine release.keep (fun _ => ?_) fun parent _ position _ => frame.keep ?_
      · simp [decrements, completions]
      · simp only [here, setWorker, Function.update_self, WorkerState.passes, WorkerState.passed,
          Nat.lt_succ_iff]
  | @releaseDone task phase position node here found done =>
      refine release.keep (fun _ => ?_) fun parent _ reached inside => frame.keep ?_
      · simp [decrements, completions]
      · have state := sound worker
        rw [here] at state
        rw [getNode, bound, Option.bind_some, wellFormed.getNode_eq state.1] at found
        cases found
        simp only [here, setWorker, Function.update_self, WorkerState.passes, WorkerState.passed]
        by_cases same : task = parent
        · subst same
          have covered : reached < position := by omega
          simp only [covered, and_self, decide_true]
        · simp only [same, false_and]
  | releaseHeld here bound' found more named =>
      have reads := sound.child_eq wellFormed bound here bound' found more named
      refine release.decrement wellFormed frame here reads.1 reads.2.1 fun task reached => ?_
      simp only [setWorker, Function.update_self, WorkerState.passed, Nat.lt_succ_iff]
  | releaseReady here bound' found more named =>
      have reads := sound.child_eq wellFormed bound here bound' found more named
      refine release.decrement wellFormed frame here reads.1 reads.2.1 fun task reached => ?_
      simp only [setWorker, Function.update_self, WorkerState.passed]
  | subActive here =>
      refine release.subActive frame here fun task reached => ?_
      simp only [setWorker, Function.update_self]
      split <;> rfl
  | fault => exact absurd rfl calm

theorem Release.keepMain (release : Release graph events dispatch)
    (inTick : dispatch.main.inTick = true) (moved : MainStep dispatch next event) :
    Release graph (events ++ [event]) next := by
  have kept : next.workers = dispatch.workers ∧ ∀ parent,
      completions (events ++ [event]) parent = completions events parent ∧
      ∀ child, decrements (events ++ [event]) parent child = decrements events parent child := by
    cases moved with
    | startWorker here | join here =>
        rw [here] at inTick
        cases inTick
    | _ => exact ⟨rfl, fun parent => by simp [decrements, completions]⟩
  exact release.keep kept.2 fun parent _ position _ => by rw [kept.1]

/-! ## Workers -/

/-- A worker over a well-formed graph never leaves an array, and keeps to the
tasks of the graph. -/
theorem Local.workerStep (sound : Local graph dispatch) (wellFormed : graph.WellFormed)
    (bound : dispatch.taskGraph = some graph) (registered : dispatch.registry ≠ none)
    (queued : ∀ task ∈ dispatch.readyQueue.items, task ∈ graph.tasks)
    (moved : WorkerStep dispatch worker next event) :
    Local graph next ∧ event ≠ .faulted := by
  have frame := moved.frame
  have state := sound worker
  cases moved with
  | checkRunning here =>
      refine ⟨frame.local sound ?_, nofun⟩
      simp only [setWorker, Function.update_self]
      split <;> trivial
  | dequeueEmpty here | bumpEpoch here | notifyAll here =>
      refine ⟨frame.local sound ?_, nofun⟩
      simp only [setWorker, Function.update_self]
      trivial
  | dequeue here taken =>
      refine ⟨frame.local sound ?_, nofun⟩
      simp only [setWorker, Function.update_self]
      exact queued _ (by simp [BoundedQueue.dequeue_eq_some taken])
  | execute here | executing here =>
      rw [here] at state
      refine ⟨frame.local sound ?_, nofun⟩
      simp only [setWorker, Function.update_self]
      exact state
  | loadPhase here found =>
      rw [here] at state
      refine ⟨frame.local sound ?_, nofun⟩
      simp only [setWorker, Function.update_self]
      exact ⟨state, Nat.zero_le _⟩
  | releaseDone here found done =>
      rw [here] at state
      refine ⟨frame.local sound ?_, nofun⟩
      simp only [setWorker, Function.update_self]
      exact state.1
  | releaseHeld here bound' found more named =>
      have reads := sound.child_eq wellFormed bound here bound' found more named
      refine ⟨frame.local sound ?_, nofun⟩
      simp only [setWorker, Function.update_self]
      exact ⟨reads.1, position_lt reads.2.1⟩
  | releaseReady here bound' found more named =>
      have reads := sound.child_eq wellFormed bound here bound' found more named
      refine ⟨frame.local sound ?_, nofun⟩
      simp only [setWorker, Function.update_self]
      exact ⟨reads.1, reads.2.1⟩
  | enqueue here =>
      rw [here] at state
      refine ⟨frame.local sound ?_, nofun⟩
      simp only [setWorker, Function.update_self]
      exact ⟨state.1, position_lt state.2⟩
  | addActive here =>
      rw [here] at state
      refine ⟨frame.local sound ?_, nofun⟩
      simp only [setWorker, Function.update_self]
      exact ⟨state.1, state.2⟩
  | subActive here =>
      refine ⟨frame.local sound ?_, nofun⟩
      simp only [setWorker, Function.update_self]
      split <;> trivial
  | fault task counters cause =>
      exfalso
      rcases cause with ⟨_, unbound⟩ | ⟨here, missing⟩ | ⟨phase, position, here, outside⟩
      · exact registered unbound
      · rw [here] at state
        rw [getNode, bound, Option.bind_some, wellFormed.getNode_eq state] at missing
        cases missing
      · rw [here] at state
        have found : dispatch.getNode task = some (graph.nodeOf task) := by
          rw [getNode, bound, Option.bind_some, wellFormed.getNode_eq state.1]
        obtain ⟨more, inside⟩ := outside graph _ bound found
        have named := wellFormed.child?_eq state.1 more
        obtain ⟨child, reads⟩ : ∃ child, (graph.children task)[position]? = some child :=
          ⟨_, List.getElem?_eq_getElem (by rwa [TaskGraph.length_children])⟩
        have member := wellFormed.child_mem_tasks state.1 (List.mem_of_getElem? reads)
        have missing := (inside child (named.trans reads) (wellFormed.task_lt member)).2
        rw [getNode, bound, Option.bind_some, wellFormed.getNode_eq member] at missing
        cases missing

end JobDispatch
end MmoServer.Runtime
