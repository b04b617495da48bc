import MmoServer.Runtime.JobDispatch.Accounting

/-!
# What Validate does not check

Initialize accepts a graph as soon as every counted node carries a registered
id. Nothing looks at the node count itself, at the phase ranges, at the child
slices or at the index table, although the dispatcher indexes its arrays with
all of them. `RangeSafe` and `ReleaseSafe` say what a graph has to promise for
the phases that are called and for the tasks that are completed;
`accepted_graph_faults` is an accepted graph that does not.
-/

namespace MmoServer.Runtime

open MmoServer.Std MmoServer.Semantics

namespace TaskGraph

/-- The node count is in range, or the scan stops before it leaves the node array. -/
def CountSafe (graph : TaskGraph) (registry : TaskRegistry) : Prop :=
  graph.nodeCount ≤ taskGraphMaxNodesV1 ∨
    ∃ index < taskGraphMaxNodesV1, registry.isRegistered (graph.node index).id = false

/-- The range of a phase covers nodes of the node array, with registered ids. -/
def RangeSafe (graph : TaskGraph) (registry : TaskRegistry) (phase : RuntimePhaseId) : Prop :=
  ∀ position < (graph.phaseRange phase).count,
    (graph.phaseRange phase).begin + position < taskGraphMaxNodesV1 ∧
      registry.isRegistered (graph.node ((graph.phaseRange phase).begin + position)).id = true

/-- A child that a release may look up, and enqueue if it is in the same phase. -/
def ChildSafe (graph : TaskGraph) (registry : TaskRegistry) (phase : RuntimePhaseId)
    (child : TaskId) : Prop :=
  child < taskGraphMaxNodesV1 ∧ graph.taskIdToNodeIndex.peek child < taskGraphMaxNodesV1 ∧
    ((graph.nodeOf child).phaseId = phase → registry.isRegistered child = true)

/-- The node of a task is in the node array, and its children are in the child
array and safe themselves. -/
def ReleaseSafe (graph : TaskGraph) (registry : TaskRegistry) (phase : RuntimePhaseId)
    (task : TaskId) : Prop :=
  graph.taskIdToNodeIndex.peek task < taskGraphMaxNodesV1 ∧
    ∀ position < (graph.nodeOf task).childCount,
      childSlot (graph.nodeOf task) position < taskGraphMaxDependenciesV1 ∧
        graph.ChildSafe registry phase
          (graph.childTaskIds.peek (childSlot (graph.nodeOf task) position))

variable {graph : TaskGraph} {registry : TaskRegistry} {task : TaskId} {node : TaskNode}

instance : Decidable (graph.CountSafe registry) :=
  inferInstanceAs (Decidable (_ ∨ ∃ index < taskGraphMaxNodesV1, _))

instance (phase : RuntimePhaseId) : Decidable (graph.RangeSafe registry phase) :=
  inferInstanceAs (Decidable (∀ position < (graph.phaseRange phase).count, _ ∧ _))

instance (phase : RuntimePhaseId) (child : TaskId) :
    Decidable (graph.ChildSafe registry phase child) :=
  inferInstanceAs (Decidable (_ ∧ _ ∧ (_ → _)))

instance (phase : RuntimePhaseId) (task : TaskId) :
    Decidable (graph.ReleaseSafe registry phase task) :=
  inferInstanceAs (Decidable (_ ∧ ∀ position < (graph.nodeOf task).childCount, _ ∧ _))

/-- GetNode stays inside both tables exactly when the id and its entry do. -/
theorem getNode_eq_some_iff : graph.getNode task = some node ↔
    task < taskGraphMaxNodesV1 ∧ graph.taskIdToNodeIndex.peek task < taskGraphMaxNodesV1 ∧
      graph.nodeOf task = node := by
  rw [getNode, Option.bind_eq_some_iff]
  constructor
  · rintro ⟨index, entry, found⟩
    obtain ⟨inside, rfl⟩ := FixedArray.at?_eq_some_iff.mp entry
    exact ⟨inside, FixedArray.at?_eq_some_iff.mp found⟩
  · rintro ⟨inside, found⟩
    exact ⟨_, FixedArray.at?_eq_some_peek inside, FixedArray.at?_eq_some_iff.mpr found⟩

/-- The child that a release reads is safe. -/
theorem ReleaseSafe.child {phase : RuntimePhaseId} {position : Nat} {child : TaskId}
    (safe : graph.ReleaseSafe registry phase task) (found : graph.getNode task = some node)
    (more : position < node.childCount) (named : graph.child? node position = some child) :
    graph.ChildSafe registry phase child := by
  obtain ⟨_, _, rfl⟩ := getNode_eq_some_iff.mp found
  obtain ⟨_, rfl⟩ := FixedArray.at?_eq_some_iff.mp named
  exact (safe.2 position more).2

theorem CountSafe.validate_ne_none (safe : graph.CountSafe registry) :
    registry.validate graph ≠ none := by
  intro outside
  obtain ⟨large, every⟩ := TaskRegistry.validate_eq_none_iff.mp outside
  rcases safe with small | ⟨index, inside, unregistered⟩
  · exact absurd small (Nat.not_le.mpr large)
  · exact absurd ((every index inside).symm.trans unregistered) nofun

end TaskGraph

/-- Initialize is given this graph and this registry. -/
def Choice.Gives (graph : TaskGraph) (registry : TaskRegistry) : Choice → Prop
  | .call (.initializeWith given functions _) => given = graph ∧ functions = registry
  | _ => True

/-- The runtime thread is where the guard has admitted it. -/
def MainState.Admitted (graph : TaskGraph) (registry : TaskRegistry) (dispatch : JobDispatch) :
    MainState → Prop
  | .loadRunning phase => dispatch.running = true → graph.RangeSafe registry phase
  | .storePhase phase | .seed phase _ | .seedAdd phase _ => graph.RangeSafe registry phase
  | .build _ | .loadSeedPhase => graph.RangeSafe registry dispatch.currentPhase
  | .seedEnqueue phase _ task => graph.RangeSafe registry phase ∧ registry.isRegistered task = true
  | .fault => False
  | state => state.inShutdown = false

/-- A worker holds a registered task, and its graph data once it releases. -/
def WorkerState.Admitted (graph : TaskGraph) (registry : TaskRegistry) : WorkerState → Prop
  | .execute task | .executing task | .loadPhase task | .subActive task =>
    registry.isRegistered task = true
  | .release task phase _ | .addActive task phase _ =>
    registry.isRegistered task = true ∧ graph.ReleaseSafe registry phase task
  | .enqueue task phase _ child => registry.isRegistered task = true ∧
    graph.ReleaseSafe registry phase task ∧ registry.isRegistered child = true
  | .fault => False
  | _ => True

/-- No fault, and no unregistered task in the queue. -/
def Event.Safe (registry : TaskRegistry) : Event → Prop
  | .faulted => False
  | .enqueued task true => registry.isRegistered task = true
  | _ => True

/-- The Enqueue of a registered task is safe, accepted or not. -/
theorem Event.Safe.of_registered {registry : TaskRegistry} {task : TaskId}
    (registered : registry.isRegistered task = true) (accepted : Bool) :
    Event.Safe registry (.enqueued task accepted) := by
  cases accepted with
  | false => trivial
  | true => exact registered

namespace JobDispatch

/-- The graph keeps its promises for the scan, for the phases that are called
and for the tasks whose successors are released. -/
def AddressGuard (graph : TaskGraph) (registry : TaskRegistry) :
    TransitionSystem.StepCondition JobDispatch Choice Event :=
  fun _ dispatch choice _ =>
    match choice with
    | .call (.initializeWith _ _ _) => graph.CountSafe registry
    | .call (.executePhase phase) => dispatch.running = true → graph.RangeSafe registry phase
    | .worker worker =>
      match dispatch.workers worker with
      | .loadPhase task => graph.ReleaseSafe registry dispatch.currentPhase task
      | _ => True
    | _ => True

instance (graph : TaskGraph) (registry : TaskRegistry) (events : List Event)
    (dispatch : JobDispatch) (choice : Choice) (event : Event) :
    Decidable (AddressGuard graph registry events dispatch choice event) := by
  unfold AddressGuard
  split
  · infer_instance
  · infer_instance
  · split <;> infer_instance
  · infer_instance

/-- A dispatcher that runs a validated graph inside its arrays. -/
structure Addressed (graph : TaskGraph) (registry : TaskRegistry) (dispatch : JobDispatch) :
    Prop where
  bound : dispatch.taskGraph = some graph
  registered : dispatch.registry = some registry
  valid : registry.validate graph = some true
  few : dispatch.activeWorkerCount ≤ maxHardwareWorkers
  queued : ∀ task ∈ dispatch.readyQueue.items, registry.isRegistered task = true
  workers : ∀ worker, (dispatch.workers worker).Admitted graph registry
  main : dispatch.main.Admitted graph registry dispatch

variable {graph : TaskGraph} {registry : TaskRegistry} {dispatch next start finish : JobDispatch}
  {events : List Event} {event : Event} {worker : WorkerIndex} {choice : Choice} {task : TaskId}

/-- One worker moves to an admitted place and leaves only registered tasks in the queue. -/
theorem Addressed.workerMove (addressed : Addressed graph registry dispatch)
    (frame : WorkerFrame dispatch worker next) {state : WorkerState}
    (there : next.workers worker = state) (admitted : state.Admitted graph registry)
    (queued : ∀ task ∈ next.readyQueue.items, registry.isRegistered task = true) :
    Addressed graph registry next := by
  constructor
  · exact frame.taskGraph.trans addressed.bound
  · exact frame.registry.trans addressed.registered
  · exact addressed.valid
  · rw [frame.activeWorkerCount]
    exact addressed.few
  · exact queued
  · intro other
    by_cases same : other = worker
    · rw [same, there]
      exact admitted
    · rw [frame.others other same]
      exact addressed.workers other
  · have before := addressed.main
    unfold MainState.Admitted at before ⊢
    rw [frame.main, frame.running, frame.currentPhase]
    exact before

/-- What an Enqueue leaves in the queue. -/
theorem Addressed.queued_enqueue (addressed : Addressed graph registry dispatch)
    (registered : registry.isRegistered task = true) :
    ∀ item ∈ (dispatch.readyQueue.enqueue task).1.items, registry.isRegistered item = true := by
  intro item member
  rcases BoundedQueue.enqueue_cases dispatch.readyQueue task with ⟨_, _, items⟩ | ⟨_, _, same⟩
  · rw [items, List.mem_append, List.mem_singleton] at member
    rcases member with earlier | rfl
    · exact addressed.queued item earlier
    · exact registered
  · rw [same] at member
    exact addressed.queued item member

/-- A worker does not leave the arrays. -/
theorem Addressed.no_fault (addressed : Addressed graph registry dispatch)
    (guard : ∀ task, dispatch.workers worker = .loadPhase task →
      graph.ReleaseSafe registry dispatch.currentPhase task)
    (cause : (dispatch.workers worker = .execute task ∧ dispatch.registry = none) ∨
      (dispatch.workers worker = .loadPhase task ∧ dispatch.getNode task = none) ∨
      (∃ phase position, dispatch.workers worker = .release task phase position ∧
        ∀ graph node, dispatch.taskGraph = some graph → dispatch.getNode task = some node →
          position < node.childCount ∧
          ∀ child, graph.child? node position = some child → child < taskGraphMaxNodesV1 →
            dispatch.remainingDependencies.at? child = some 1 ∧
              dispatch.getNode child = none)) : False := by
  have admitted := addressed.workers worker
  have entry : ∀ {task node}, task < taskGraphMaxNodesV1 →
      graph.taskIdToNodeIndex.peek task < taskGraphMaxNodesV1 → graph.nodeOf task = node →
      dispatch.getNode task = some node := by
    intro task node inside index same
    rw [JobDispatch.getNode, addressed.bound]
    exact TaskGraph.getNode_eq_some_iff.mpr ⟨inside, index, same⟩
  rcases cause with ⟨here, unbound⟩ | ⟨here, missing⟩ | ⟨phase, position, here, outside⟩
  · exact absurd (unbound.symm.trans addressed.registered) nofun
  · rw [here] at admitted
    have found := entry (TaskRegistry.lt_of_isRegistered admitted) (guard task here).1 rfl
    exact absurd (missing.symm.trans found) nofun
  · rw [here] at admitted
    obtain ⟨registered, index, children⟩ := admitted
    have found := entry (TaskRegistry.lt_of_isRegistered registered) index rfl
    obtain ⟨more, reads⟩ := outside graph _ addressed.bound found
    obtain ⟨slot, inside, childIndex, _⟩ := children position more
    have missing := (reads _ (FixedArray.at?_eq_some_peek slot) inside).2
    exact absurd (missing.symm.trans (entry inside childIndex rfl)) nofun

/-- A worker moves inside the arrays. -/
theorem Addressed.workerStep (addressed : Addressed graph registry dispatch)
    (moved : WorkerStep dispatch worker next event)
    (guard : ∀ task, dispatch.workers worker = .loadPhase task →
      graph.ReleaseSafe registry dispatch.currentPhase task) :
    Addressed graph registry next ∧ Event.Safe registry event := by
  have frame := moved.frame
  have admitted := addressed.workers worker
  have queued := addressed.queued
  have move : ∀ {state : WorkerState}, next.workers worker = state →
      state.Admitted graph registry → next.readyQueue = dispatch.readyQueue →
      Addressed graph registry next :=
    fun there after same => addressed.workerMove frame there after (same ▸ queued)
  cases moved with
  | checkRunning here =>
      refine ⟨move (Function.update_self ..) ?_ rfl, trivial⟩
      split <;> trivial
  | dequeueEmpty | bumpEpoch | notifyAll =>
      exact ⟨move (Function.update_self ..) trivial rfl, trivial⟩
  | @dequeue task rest here taken =>
      have items := BoundedQueue.dequeue_eq_some taken
      refine ⟨addressed.workerMove frame (Function.update_self ..) ?_ fun item member => ?_, trivial⟩
      · exact queued task (items ▸ List.mem_cons_self)
      · exact queued item (items ▸ List.mem_cons_of_mem _ member)
  | execute here | executing here =>
      rw [here] at admitted
      exact ⟨move (Function.update_self ..) admitted rfl, trivial⟩
  | releaseDone here | addActive here =>
      rw [here] at admitted
      refine ⟨move (Function.update_self ..) ?_ rfl, trivial⟩
      first | exact admitted | exact admitted.1
  | loadPhase here found =>
      rw [here] at admitted
      exact ⟨move (Function.update_self ..) ⟨admitted, guard _ here⟩ rfl, trivial⟩
  | releaseHeld here =>
      rw [here] at admitted
      exact ⟨move (Function.update_self ..) admitted rfl, trivial⟩
  | @releaseReady task phase position bound node child childNode here same found more named loaded
      foundChild current =>
      rw [here] at admitted
      obtain rfl := Option.some.inj (same.symm.trans addressed.bound)
      rw [JobDispatch.getNode, same] at found foundChild
      obtain ⟨_, _, rfl⟩ := TaskGraph.getNode_eq_some_iff.mp foundChild
      have safe := admitted.2.child found more named
      exact ⟨move (Function.update_self ..) ⟨admitted.1, admitted.2, safe.2.2 current⟩ rfl, trivial⟩
  | enqueue here =>
      rw [here] at admitted
      exact ⟨addressed.workerMove frame (Function.update_self ..) ⟨admitted.1, admitted.2.1⟩
        (addressed.queued_enqueue admitted.2.2), .of_registered admitted.2.2 _⟩
  | subActive here =>
      refine ⟨move (Function.update_self ..) ?_ rfl, trivial⟩
      split <;> trivial
  | fault task counters cause => exact (addressed.no_fault guard cause).elim

/-- The runtime thread moves to an admitted place. -/
theorem Addressed.mainMove (addressed : Addressed graph registry dispatch)
    (graphs : next.taskGraph = dispatch.taskGraph) (registries : next.registry = dispatch.registry)
    (few : next.activeWorkerCount ≤ maxHardwareWorkers)
    (workers : ∀ worker, next.workers worker = dispatch.workers worker ∨
      next.workers worker = .checkRunning)
    (queued : ∀ task ∈ next.readyQueue.items, registry.isRegistered task = true)
    (main : next.main.Admitted graph registry next) : Addressed graph registry next := by
  constructor
  · exact graphs.trans addressed.bound
  · exact registries.trans addressed.registered
  · exact addressed.valid
  · exact few
  · exact queued
  · intro worker
    rcases workers worker with same | started
    · rw [same]
      exact addressed.workers worker
    · rw [started]
      trivial
  · exact main

/-- The runtime thread moves inside the arrays. -/
theorem Addressed.mainStep (addressed : Addressed graph registry dispatch)
    (moved : MainStep dispatch next event) :
    Addressed graph registry next ∧ Event.Safe registry event := by
  have main := addressed.main
  have bound := addressed.bound
  have queued := addressed.queued
  have unmoved : ∀ worker, dispatch.workers worker = dispatch.workers worker ∨
      dispatch.workers worker = .checkRunning := fun _ => .inl rfl
  have reads : ∀ {index node}, graph.node? index = some node → graph.node index = node :=
    fun found => (FixedArray.at?_eq_some_iff.mp found).2
  cases moved with
  | startPoolRefused | startedWorkers | storeRunning | loadRunningRefused | seedDone | waitBusy
  | waitDone | waitEpoch | waitRecheck | waitReturned =>
      exact ⟨addressed.mainMove rfl rfl addressed.few unmoved queued rfl, trivial⟩
  | startPool =>
      exact ⟨addressed.mainMove rfl rfl (workerCount_le _) unmoved queued rfl, trivial⟩
  | @startWorker index here more slot =>
      refine ⟨addressed.mainMove rfl rfl addressed.few (fun worker => ?_) queued rfl, trivial⟩
      by_cases same : worker = ⟨index, slot⟩
      · exact .inr (same ▸ Function.update_self ..)
      · exact .inl (Function.update_of_ne same ..)
  | startWorkerFault here more outside =>
      exact absurd (Nat.lt_of_lt_of_le more addressed.few) outside
  | loadRunning here running =>
      rw [here] at main
      exact ⟨addressed.mainMove rfl rfl addressed.few unmoved queued (main running), trivial⟩
  | storePhase here =>
      rw [here] at main
      refine ⟨addressed.mainMove rfl rfl addressed.few unmoved queued ?_, trivial⟩
      dsimp only
      split <;> exact main
  | build here | buildDone here | loadSeedPhase here | seedAdd here =>
      rw [here] at main
      exact ⟨addressed.mainMove rfl rfl addressed.few unmoved queued main, trivial⟩
  | @buildFault index here inside cause =>
      obtain ⟨small, counted⟩ := TaskRegistry.validate_eq_true_iff.mp addressed.valid
      have more := inside graph bound
      have found : graph.node? index = some (graph.node index) :=
        FixedArray.at?_eq_some_peek (Nat.lt_of_lt_of_le more small)
      exact absurd (TaskRegistry.lt_of_isRegistered (counted index more)) (cause graph _ bound found)
  | @seed phase position given node remaining here same more found loaded =>
      rw [here] at main
      obtain rfl := Option.some.inj (same.symm.trans bound)
      have registered := (main position more).2
      rw [reads found] at registered
      refine ⟨addressed.mainMove rfl rfl addressed.few unmoved queued ?_, trivial⟩
      dsimp only [setMain]
      split
      · exact ⟨main, registered⟩
      · exact main
  | @seedFault phase position here inside cause =>
      rw [here] at main
      obtain ⟨slot, registered⟩ := main position (inside graph bound)
      exact absurd (TaskRegistry.lt_of_isRegistered registered)
        (cause graph _ bound (FixedArray.at?_eq_some_peek slot))
  | seedEnqueue here =>
      rw [here] at main
      exact ⟨addressed.mainMove rfl rfl addressed.few unmoved (addressed.queued_enqueue main.2)
        main.1, .of_registered main.2 _⟩
  | stopPool here | joinSkip here | join here | joinFault here | joined here | clearActive here
  | clearEpoch here | clearPhase here | clearCounters here | cleared here =>
      rw [here] at main
      cases main

/-- Every step under the guard stays inside the arrays. -/
theorem Addressed.step (addressed : Addressed graph registry dispatch)
    (moved : SystemStep dispatch choice next event) (given : choice.Gives graph registry)
    (guard : AddressGuard graph registry events dispatch choice event)
    (notShutdown : event ≠ .calledShutdown) :
    Addressed graph registry next ∧ Event.Safe registry event := by
  have unmoved : ∀ worker, dispatch.workers worker = dispatch.workers worker ∨
      dispatch.workers worker = .checkRunning := fun _ => .inl rfl
  cases moved with
  | initializeRefused | ignoredShutdown => exact ⟨addressed, trivial⟩
  | initializeFault idle stopped outside =>
      obtain ⟨rfl, rfl⟩ := given
      exact absurd (addressed.valid.symm.trans outside) nofun
  | initializeBound idle stopped valid =>
      obtain ⟨rfl, rfl⟩ := given
      exact ⟨⟨rfl, rfl, valid, addressed.few, addressed.queued, addressed.workers, rfl⟩, trivial⟩
  | calledPhase idle =>
      exact ⟨addressed.mainMove rfl rfl addressed.few unmoved addressed.queued guard, trivial⟩
  | calledShutdown => exact absurd rfl notShutdown
  | threadFailure here =>
      exact ⟨addressed.mainMove rfl rfl addressed.few unmoved addressed.queued rfl, trivial⟩
  | main moved => exact addressed.mainStep moved
  | worker moved =>
      refine addressed.workerStep moved fun task here => ?_
      simp only [AddressGuard, here] at guard
      exact guard

/-- A dispatcher that Initialize has just bound to a graph it has validated. -/
theorem Addressed.initial (valid : registry.validate graph = some true)
    (hardwareConcurrency : Nat) : Addressed graph registry { fresh with
      taskGraph := some graph
      registry := some registry
      main := .startPool hardwareConcurrency } := by
  constructor
  · rfl
  · rfl
  · exact valid
  · exact Nat.zero_le _
  · nofun
  · exact fun _ => trivial
  · rfl

/-- A dispatcher that is given one graph: not bound to it yet, or inside its arrays. -/
theorem addressed_step
    (reached : dispatch = fresh ∨ (∃ phase, dispatch = fresh.setMain (.loadRunning phase)) ∨
      Addressed graph registry dispatch)
    (moved : SystemStep dispatch choice next event) (given : choice.Gives graph registry)
    (guard : AddressGuard graph registry events dispatch choice event)
    (notShutdown : event ≠ .calledShutdown) :
    (next = fresh ∨ (∃ phase, next = fresh.setMain (.loadRunning phase)) ∨
      Addressed graph registry next) ∧ Event.Safe registry event := by
  rcases reached with rfl | ⟨phase, rfl⟩ | addressed
  · rcases moved.of_fresh with ⟨rfl, rfl | rfl⟩ | ⟨phase, rfl, rfl⟩ |
      ⟨graph, registry, hardwareConcurrency, rfl, outcome⟩
    · exact ⟨.inl rfl, trivial⟩
    · exact ⟨.inl rfl, trivial⟩
    · exact ⟨.inr (.inl ⟨phase, rfl⟩), trivial⟩
    · obtain ⟨rfl, rfl⟩ := given
      rcases outcome with ⟨outside, _⟩ | ⟨valid, rfl, rfl⟩
      · exact absurd outside (TaskGraph.CountSafe.validate_ne_none guard)
      · exact ⟨.inr (.inr (.initial valid _)), trivial⟩
  · obtain ⟨rfl, rfl⟩ := moved.of_refused
    exact ⟨.inl rfl, trivial⟩
  · obtain ⟨after, safe⟩ := addressed.step moved given guard notShutdown
    exact ⟨.inr (.inr after), safe⟩

/-- In every run of a dispatcher that is given one graph and keeps the guard, no
index leaves its array, and every task that enters the ready queue resolves to a
registered function. -/
theorem accepted_graph_safe (graph : TaskGraph) (registry : TaskRegistry)
    (run : system.RunsUnder (fun events dispatch choice event =>
      AddressGuard graph registry events dispatch choice event ∧ choice.Gives graph registry)
      fresh events finish) (notShutdown : .calledShutdown ∉ events) :
    .faulted ∉ events ∧ ∀ task, .enqueued task true ∈ events →
      registry.isRegistered task = true := by
  have every : ∀ event ∈ events, event ≠ .calledShutdown :=
    fun event member same => notShutdown (same ▸ member)
  have safe := (run.restrict _ every).invariant (fun events dispatch =>
    (dispatch = fresh ∨ (∃ phase, dispatch = fresh.setMain (.loadRunning phase)) ∨
      Addressed graph registry dispatch) ∧ ∀ event ∈ events, Event.Safe registry event)
    ⟨.inl rfl, nofun⟩ ?_
  · exact ⟨fun member => safe.2 _ member, fun task member => safe.2 _ member⟩
  · rintro events dispatch choice next event _ ⟨reached, safe⟩ transition ⟨⟨guard, given⟩, kept⟩
    obtain ⟨after, shown⟩ := addressed_step reached (step_sound transition) given guard kept
    refine ⟨after, fun earlier member => ?_⟩
    rcases List.mem_append.mp member with before | last
    · exact safe earlier before
    · exact List.mem_singleton.mp last ▸ shown

/-- The chain, accepted and run until its last task begins. -/
theorem linear_accepted_graph_safe : ∃ events finish, system.Runs fresh events finish ∧
    .initialized true ∈ events ∧ .beganTask 0 2 (some ⟨0⟩) ∈ events ∧ .faulted ∉ events ∧
    ∀ task, .enqueued task true ∈ events → TaskRegistry.full.isRegistered task = true := by
  have given : ∀ choice ∈ (.call (.initializeWith .linearGraph .full 1) ::
      List.replicate 4 .main ++ callThen .input 13 ++ work 0 29 : List Choice),
      choice.Gives .linearGraph .full := by
    simp [-List.reduceReplicate, callThen, work, or_imp, forall_and, Choice.Gives]
  obtain ⟨events, finish, run, accepted, notShutdown, begun⟩ := system.runs_of_exec_admitted
    (AddressGuard .linearGraph .full) fresh _
    (fun _ events => Event.initialized true ∈ events ∧ Event.calledShutdown ∉ events ∧
      Event.beganTask 0 2 (some ⟨0⟩) ∈ events) given (by decide +kernel)
  exact ⟨events, finish, run.runs, accepted, begun,
    accepted_graph_safe .linearGraph .full run notShutdown⟩

/-- One task whose only child lies beyond the child array. -/
def strayGraph : TaskGraph where
  nodes := fun index =>
    if index.val = 0 then { id := 0, dependencyOffset := 1024, childCount := 1 } else {}
  nodeCount := 1
  phaseRanges := fun phase => if phase.val = 0 then { begin := 0, count := 1 } else {}

/-- Without the guard it fails: Initialize accepts a graph whose only task has a
child slice beyond the child array, and the worker that completes the task reads
it. -/
theorem accepted_graph_faults : ¬ ∀ (graph : TaskGraph) (registry : TaskRegistry)
    (events : List Event) (finish : JobDispatch),
    system.RunsUnder (fun _ _ choice _ => choice.Gives graph registry) fresh events finish →
    .initialized true ∈ events → .calledShutdown ∉ events →
    .faulted ∉ events ∧ ∀ task, .enqueued task true ∈ events →
      registry.isRegistered task = true := by
  intro claim
  have given : ∀ choice ∈ (.call (.initializeWith strayGraph .full 1) ::
      List.replicate 4 .main ++ callThen .input 8 ++ work 0 6 : List Choice),
      choice.Gives strayGraph .full := by
    simp [-List.reduceReplicate, callThen, work, or_imp, forall_and, Choice.Gives]
  obtain ⟨events, finish, run, accepted, notShutdown, faulted⟩ := system.runs_of_exec_admitted
    (fun _ _ _ _ => True) fresh _
    (fun _ events => Event.initialized true ∈ events ∧ Event.calledShutdown ∉ events ∧
      Event.faulted ∈ events) given (by decide +kernel)
  exact (claim strayGraph .full events finish
    (run.mono fun _ _ _ _ permitted => permitted.2) accepted notShutdown).1 faulted

end JobDispatch
end MmoServer.Runtime
