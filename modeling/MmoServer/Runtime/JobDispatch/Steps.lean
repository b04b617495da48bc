import MmoServer.Runtime.JobDispatch.Model
import MmoServer.Std.ThreadSum

/-!
# What one step can do

`WorkerStep` and `MainStep` list the outcomes of one step of a worker and of
the runtime thread with the guards under which each occurs. They are proved
from the executable step functions once (`workerStep_sound`, `mainStep_sound`);
every invariant is then a case analysis over their constructors.
-/

namespace MmoServer.Runtime

open MmoServer.Std MmoServer.Semantics

namespace JobDispatch

theorem workers_setWorker (dispatch : JobDispatch) (worker : WorkerIndex) (state : WorkerState) :
    (dispatch.setWorker worker state).workers worker = state := Function.update_self _ _ _

/-- The outcomes of one worker step. -/
inductive WorkerStep (dispatch : JobDispatch) (worker : WorkerIndex) : JobDispatch → Event → Prop
  | checkRunning (here : dispatch.workers worker = .checkRunning) :
      WorkerStep dispatch worker
        (dispatch.setWorker worker (if dispatch.poolRunning then .dequeue else .finished)) .silent
  | dequeueEmpty (here : dispatch.workers worker = .dequeue)
      (none : dispatch.readyQueue.dequeue = none) :
      WorkerStep dispatch worker (dispatch.setWorker worker .checkRunning) .silent
  | dequeue {task rest} (here : dispatch.workers worker = .dequeue)
      (taken : dispatch.readyQueue.dequeue = some (task, rest)) :
      WorkerStep dispatch worker
        ({ dispatch with readyQueue := rest }.setWorker worker (.execute task))
        (.dequeued worker task)
  | execute {task registry} (here : dispatch.workers worker = .execute task)
      (bound : dispatch.registry = some registry) :
      WorkerStep dispatch worker (dispatch.setWorker worker (.executing task))
        (.beganTask worker task (registry.resolve task))
  | executing {task} (here : dispatch.workers worker = .executing task) :
      WorkerStep dispatch worker (dispatch.setWorker worker (.loadPhase task))
        (.endedTask worker task)
  | loadPhase {task node} (here : dispatch.workers worker = .loadPhase task)
      (found : dispatch.getNode task = some node) :
      WorkerStep dispatch worker
        (dispatch.setWorker worker (.release task dispatch.currentPhase 0)) .silent
  | releaseDone {task phase position node}
      (here : dispatch.workers worker = .release task phase position)
      (found : dispatch.getNode task = some node) (done : ¬ position < node.childCount) :
      WorkerStep dispatch worker (dispatch.setWorker worker (.subActive task)) .silent
  | releaseHeld {task phase position graph node child old}
      (here : dispatch.workers worker = .release task phase position)
      (bound : dispatch.taskGraph = some graph) (found : dispatch.getNode task = some node)
      (more : position < node.childCount) (named : graph.child? node position = some child)
      (loaded : dispatch.remainingDependencies.at? child = some old)
      (held : old = 1 → ∃ childNode, dispatch.getNode child = some childNode ∧
        childNode.phaseId ≠ phase) :
      WorkerStep dispatch worker
        ({ dispatch with
          remainingDependencies := dispatch.remainingDependencies.set child
            (decrement32 old) }.setWorker worker (.release task phase (position + 1)))
        (.decremented worker task child old false)
  | releaseReady {task phase position graph node child childNode}
      (here : dispatch.workers worker = .release task phase position)
      (bound : dispatch.taskGraph = some graph) (found : dispatch.getNode task = some node)
      (more : position < node.childCount) (named : graph.child? node position = some child)
      (loaded : dispatch.remainingDependencies.at? child = some 1)
      (foundChild : dispatch.getNode child = some childNode)
      (current : childNode.phaseId = phase) :
      WorkerStep dispatch worker
        ({ dispatch with
          remainingDependencies := dispatch.remainingDependencies.set child
            (decrement32 1) }.setWorker worker (.enqueue task phase position child))
        (.decremented worker task child 1 true)
  | enqueue {task phase position child}
      (here : dispatch.workers worker = .enqueue task phase position child) :
      WorkerStep dispatch worker
        ({ dispatch with readyQueue := (dispatch.readyQueue.enqueue child).1 }.setWorker worker
          (.addActive task phase position))
        (.enqueued child (dispatch.readyQueue.enqueue child).2)
  | addActive {task phase position}
      (here : dispatch.workers worker = .addActive task phase position) :
      WorkerStep dispatch worker
        ({ dispatch with activeTaskCount := increment32 dispatch.activeTaskCount }.setWorker worker
          (.release task phase (position + 1))) .silent
  | subActive {task} (here : dispatch.workers worker = .subActive task) :
      WorkerStep dispatch worker
        ({ dispatch with activeTaskCount := decrement32 dispatch.activeTaskCount }.setWorker worker
          (if dispatch.activeTaskCount = 1 then .bumpEpoch else .checkRunning))
        (.completedTask worker task)
  | bumpEpoch (here : dispatch.workers worker = .bumpEpoch) :
      WorkerStep dispatch worker
        ({ dispatch with phaseEpoch := (dispatch.phaseEpoch + 1) % 2 ^ 64 }.setWorker worker
          .notifyAll) .bumpedEpoch
  | notifyAll (here : dispatch.workers worker = .notifyAll) :
      WorkerStep dispatch worker (dispatch.setWorker worker .checkRunning) .silent
  -- A null registry, or an index outside its array: the graph, the task held and the point
  -- reached say which.
  | fault (task : TaskId) (counters : FixedArray Nat taskGraphMaxNodesV1)
      (cause : (dispatch.workers worker = .execute task ∧ dispatch.registry = none) ∨
        (dispatch.workers worker = .loadPhase task ∧ dispatch.getNode task = none) ∨
        (∃ phase position, dispatch.workers worker = .release task phase position ∧
          ∀ graph node, dispatch.taskGraph = some graph → dispatch.getNode task = some node →
            position < node.childCount ∧
            ∀ child, graph.child? node position = some child → child < taskGraphMaxNodesV1 →
              dispatch.remainingDependencies.at? child = some 1 ∧
                dispatch.getNode child = none)) :
      WorkerStep dispatch worker
        ({ dispatch with remainingDependencies := counters }.setWorker worker .fault) .faulted

/-- The outcomes of one step of the runtime thread inside a call. -/
inductive MainStep (dispatch : JobDispatch) : JobDispatch → Event → Prop
  | startPoolRefused {hardwareConcurrency} (here : dispatch.main = .startPool hardwareConcurrency)
      (refused : dispatch.poolRunning = true) :
      MainStep dispatch (dispatch.setMain .idle) (.initialized false)
  | startPool {hardwareConcurrency} (here : dispatch.main = .startPool hardwareConcurrency)
      (stopped : dispatch.poolRunning = false) :
      MainStep dispatch
        { dispatch with
          activeWorkerCount := workerCount hardwareConcurrency
          poolRunning := true
          main := .startWorker 0 } .silent
  | startWorker {index} (here : dispatch.main = .startWorker index)
      (more : index < dispatch.activeWorkerCount) (slot : index < maxHardwareWorkers) :
      MainStep dispatch
        ((dispatch.setWorker ⟨index, slot⟩ .checkRunning).setMain (.startWorker (index + 1))) .silent
  | startWorkerFault {index} (here : dispatch.main = .startWorker index)
      (more : index < dispatch.activeWorkerCount) (outside : ¬ index < maxHardwareWorkers) :
      MainStep dispatch (dispatch.setMain .fault) .faulted
  | startedWorkers {index} (here : dispatch.main = .startWorker index)
      (done : ¬ index < dispatch.activeWorkerCount) :
      MainStep dispatch (dispatch.setMain .storeRunning) .silent
  | storeRunning (here : dispatch.main = .storeRunning) :
      MainStep dispatch { dispatch with running := true, main := .idle } (.initialized true)
  | loadRunning {phase} (here : dispatch.main = .loadRunning phase)
      (running : dispatch.running = true) :
      MainStep dispatch (dispatch.setMain (.storePhase phase)) .silent
  | loadRunningRefused {phase} (here : dispatch.main = .loadRunning phase)
      (stopped : dispatch.running = false) :
      MainStep dispatch (dispatch.setMain .idle) (.refusedPhase phase)
  | storePhase {phase} (here : dispatch.main = .storePhase phase) :
      MainStep dispatch
        { dispatch with
          currentPhase := phase
          main := if phase = .input then .build 0 else .loadSeedPhase } (.storedPhase phase)
  | build {index graph node} (here : dispatch.main = .build index)
      (bound : dispatch.taskGraph = some graph) (more : index < graph.nodeCount)
      (found : graph.node? index = some node) (slot : node.id < taskGraphMaxNodesV1) :
      MainStep dispatch
        { dispatch with
          remainingDependencies := dispatch.remainingDependencies.set node.id node.parentCount
          main := .build (index + 1) } (.builtTask node.id)
  | buildDone {index graph} (here : dispatch.main = .build index)
      (bound : dispatch.taskGraph = some graph) (done : ¬ index < graph.nodeCount) :
      MainStep dispatch (dispatch.setMain .loadSeedPhase) .builtRuntimeState
  | buildFault {index} (here : dispatch.main = .build index)
      (inside : ∀ graph, dispatch.taskGraph = some graph → index < graph.nodeCount)
      (cause : ∀ graph node, dispatch.taskGraph = some graph → graph.node? index = some node →
        ¬ node.id < taskGraphMaxNodesV1) :
      MainStep dispatch (dispatch.setMain .fault) .faulted
  | loadSeedPhase (here : dispatch.main = .loadSeedPhase) :
      MainStep dispatch (dispatch.setMain (.seed dispatch.currentPhase 0)) .silent
  | seed {phase position graph node remaining} (here : dispatch.main = .seed phase position)
      (bound : dispatch.taskGraph = some graph)
      (more : position < (graph.phaseRange phase).count)
      (found : graph.node? ((graph.phaseRange phase).begin + position) = some node)
      (loaded : dispatch.remainingDependencies.at? node.id = some remaining) :
      MainStep dispatch
        (dispatch.setMain (if remaining = 0 then .seedEnqueue phase position node.id
          else .seed phase (position + 1))) (.scanned node.id remaining)
  | seedDone {phase position graph} (here : dispatch.main = .seed phase position)
      (bound : dispatch.taskGraph = some graph)
      (done : ¬ position < (graph.phaseRange phase).count) :
      MainStep dispatch (dispatch.setMain .waitActive) .silent
  | seedFault {phase position} (here : dispatch.main = .seed phase position)
      (inside : ∀ graph, dispatch.taskGraph = some graph →
        position < (graph.phaseRange phase).count)
      (cause : ∀ graph node, dispatch.taskGraph = some graph →
        graph.node? ((graph.phaseRange phase).begin + position) = some node →
        ¬ node.id < taskGraphMaxNodesV1) :
      MainStep dispatch (dispatch.setMain .fault) .faulted
  | seedEnqueue {phase position task} (here : dispatch.main = .seedEnqueue phase position task) :
      MainStep dispatch
        { dispatch with
          readyQueue := (dispatch.readyQueue.enqueue task).1
          main := .seedAdd phase position } (.enqueued task (dispatch.readyQueue.enqueue task).2)
  | seedAdd {phase position} (here : dispatch.main = .seedAdd phase position) :
      MainStep dispatch
        { dispatch with
          activeTaskCount := increment32 dispatch.activeTaskCount
          main := .seed phase (position + 1) } .silent
  | waitBusy (here : dispatch.main = .waitActive) (busy : dispatch.activeTaskCount ≠ 0) :
      MainStep dispatch (dispatch.setMain .waitEpoch) .silent
  | waitDone (here : dispatch.main = .waitActive ∨ ∃ epoch, dispatch.main = .waitRecheck epoch)
      (zero : dispatch.activeTaskCount = 0) :
      MainStep dispatch (dispatch.setMain .idle) (.returnedPhase dispatch.currentPhase)
  | waitEpoch (here : dispatch.main = .waitEpoch) :
      MainStep dispatch (dispatch.setMain (.waitRecheck dispatch.phaseEpoch)) .silent
  | waitRecheck {epoch} (here : dispatch.main = .waitRecheck epoch)
      (busy : dispatch.activeTaskCount ≠ 0) :
      MainStep dispatch (dispatch.setMain (.waitBlocked epoch)) .silent
  | waitReturned {epoch} (here : dispatch.main = .waitBlocked epoch) :
      MainStep dispatch (dispatch.setMain .waitActive) .silent
  | stopPool (here : dispatch.main = .stopPool) :
      MainStep dispatch { dispatch with poolRunning := false, main := .join 0 } .silent
  | joinSkip {index} (here : dispatch.main = .join index)
      (more : index < dispatch.activeWorkerCount) (slot : index < maxHardwareWorkers)
      (unstarted : dispatch.workers ⟨index, slot⟩ = .unstarted) :
      MainStep dispatch (dispatch.setMain (.join (index + 1))) .silent
  | join {index} (here : dispatch.main = .join index)
      (more : index < dispatch.activeWorkerCount) (slot : index < maxHardwareWorkers)
      (finished : dispatch.workers ⟨index, slot⟩ = .finished) :
      MainStep dispatch
        ((dispatch.setWorker ⟨index, slot⟩ .unstarted).setMain (.join (index + 1))) .silent
  | joinFault {index} (here : dispatch.main = .join index)
      (more : index < dispatch.activeWorkerCount) (outside : ¬ index < maxHardwareWorkers) :
      MainStep dispatch (dispatch.setMain .fault) .faulted
  | joined {index} (here : dispatch.main = .join index)
      (done : ¬ index < dispatch.activeWorkerCount) :
      MainStep dispatch { dispatch with activeWorkerCount := 0, main := .clearActive } .silent
  | clearActive (here : dispatch.main = .clearActive) :
      MainStep dispatch { dispatch with activeTaskCount := 0, main := .clearEpoch } .silent
  | clearEpoch (here : dispatch.main = .clearEpoch) :
      MainStep dispatch { dispatch with phaseEpoch := 0, main := .clearPhase } .silent
  | clearPhase (here : dispatch.main = .clearPhase) :
      MainStep dispatch { dispatch with currentPhase := .input, main := .clearCounters 0 } .silent
  | clearCounters {index} (here : dispatch.main = .clearCounters index)
      (more : index < taskGraphMaxNodesV1) :
      MainStep dispatch
        { dispatch with
          remainingDependencies := dispatch.remainingDependencies.set index 0
          main := .clearCounters (index + 1) } .silent
  | cleared {index} (here : dispatch.main = .clearCounters index)
      (done : ¬ index < taskGraphMaxNodesV1) :
      MainStep dispatch { dispatch with taskGraph := none, registry := none, main := .idle }
        .returnedShutdown

variable {dispatch next : JobDispatch} {event : Event}

private theorem lt_of_at?_eq_some {cells : FixedArray Nat taskGraphMaxNodesV1} {index value : Nat}
    (loaded : cells.at? index = some value) : index < taskGraphMaxNodesV1 :=
  (FixedArray.at?_eq_some_iff.mp loaded).1

private theorem not_lt_of_at?_eq_none {cells : FixedArray Nat taskGraphMaxNodesV1} {index : Nat}
    (outside : cells.at? index = none) : ¬ index < taskGraphMaxNodesV1 := by
  intro inside
  rw [FixedArray.at?_eq_some_peek inside] at outside
  cases outside

private theorem releaseSuccessors_sound {worker : WorkerIndex} {task : TaskId}
    {phase : RuntimePhaseId} {position : Nat}
    (here : dispatch.workers worker = .release task phase position)
    (computed : dispatch.releaseSuccessors worker task phase position = (next, event)) :
    WorkerStep dispatch worker next event := by
  have faulted : ∀ counters,
      (∀ graph node, dispatch.taskGraph = some graph → dispatch.getNode task = some node →
        position < node.childCount ∧
        ∀ child, graph.child? node position = some child → child < taskGraphMaxNodesV1 →
          dispatch.remainingDependencies.at? child = some 1 ∧ dispatch.getNode child = none) →
      WorkerStep dispatch worker
        ({ dispatch with remainingDependencies := counters }.setWorker worker .fault) .faulted :=
    fun counters cause => .fault task counters (.inr (.inr ⟨phase, position, here, cause⟩))
  unfold releaseSuccessors at computed
  split at computed
  · next graph node bound found =>
    split at computed
    · next more =>
      split at computed
      · next outside =>
        cases computed
        refine faulted dispatch.remainingDependencies fun graph' node' bound' found' => ?_
        cases bound.symm.trans bound'
        cases found.symm.trans found'
        exact ⟨more, fun child named => absurd (outside.symm.trans named) nofun⟩
      · next child named =>
        split at computed
        · next outside =>
          cases computed
          refine faulted dispatch.remainingDependencies fun graph' node' bound' found' => ?_
          cases bound.symm.trans bound'
          cases found.symm.trans found'
          refine ⟨more, fun child' named' slot => ?_⟩
          cases named.symm.trans named'
          exact absurd slot (not_lt_of_at?_eq_none outside)
        · next old loaded =>
          dsimp only at computed
          split at computed
          · next observed =>
            subst observed
            split at computed
            · next missing =>
              cases computed
              refine faulted _ fun graph' node' bound' found' => ?_
              cases bound.symm.trans bound'
              cases found.symm.trans found'
              refine ⟨more, fun child' named' slot => ?_⟩
              cases named.symm.trans named'
              exact ⟨loaded, missing⟩
            · next childNode foundChild =>
              split at computed
              · next current =>
                cases computed
                exact .releaseReady here bound found more named loaded foundChild current
              · next other =>
                cases computed
                exact .releaseHeld here bound found more named loaded
                  fun _ => ⟨childNode, foundChild, other⟩
          · next observed =>
            cases computed
            exact .releaseHeld here bound found more named loaded
              fun same => absurd same observed
    · next done =>
      cases computed
      exact .releaseDone here found done
  · next unbound =>
    cases computed
    exact faulted dispatch.remainingDependencies fun graph node bound found =>
      absurd found (unbound graph node bound)

/-- Every computed worker step is one of the listed outcomes. -/
theorem workerStep_sound {worker : WorkerIndex}
    (computed : dispatch.workerStep worker = some (next, event)) :
    WorkerStep dispatch worker next event := by
  cases here : dispatch.workers worker <;> simp only [workerStep, here] at computed
  case unstarted => cases computed
  case checkRunning => cases computed; exact .checkRunning here
  case dequeue =>
    split at computed
    · next none => cases computed; exact .dequeueEmpty here none
    · next task rest taken => cases computed; exact .dequeue here taken
  case execute task =>
    split at computed
    · next unbound =>
      cases computed
      exact .fault task dispatch.remainingDependencies (.inl ⟨here, unbound⟩)
    · next registry bound => cases computed; exact .execute here bound
  case executing task => cases computed; exact .executing here
  case loadPhase task =>
    split at computed
    · next missing =>
      cases computed
      exact .fault task dispatch.remainingDependencies (.inr (.inl ⟨here, missing⟩))
    · next node found => cases computed; exact .loadPhase here found
  case release task phase position =>
    exact releaseSuccessors_sound here (Option.some.inj computed)
  case enqueue task phase position child => cases computed; exact .enqueue here
  case addActive task phase position => cases computed; exact .addActive here
  case subActive task => cases computed; exact .subActive here
  case bumpEpoch => cases computed; exact .bumpEpoch here
  case notifyAll => cases computed; exact .notifyAll here
  case finished => cases computed
  case fault => cases computed

private theorem buildRuntimeState_sound {index : Nat} (here : dispatch.main = .build index)
    (computed : dispatch.buildRuntimeState index = (next, event)) :
    MainStep dispatch next event := by
  unfold buildRuntimeState at computed
  split at computed
  · next unbound =>
    cases computed
    refine .buildFault here (fun graph bound => ?_) (fun graph node bound => ?_)
    all_goals exact absurd (unbound.symm.trans bound) nofun
  · next graph bound =>
    split at computed
    · next more =>
      split at computed
      · next outside =>
        cases computed
        refine .buildFault here (fun graph' bound' => ?_) (fun graph' node bound' found => ?_)
        · cases bound.symm.trans bound'
          exact more
        · cases bound.symm.trans bound'
          exact absurd (outside.symm.trans found) nofun
      · next node found =>
        split at computed
        · next outside =>
          cases computed
          refine .buildFault here (fun graph' bound' => ?_) (fun graph' node' bound' found' => ?_)
          · cases bound.symm.trans bound'
            exact more
          · cases bound.symm.trans bound'
            cases found.symm.trans found'
            exact not_lt_of_at?_eq_none outside
        · next loaded =>
          cases computed
          exact .build here bound more found (lt_of_at?_eq_some loaded)
    · next done =>
      cases computed
      exact .buildDone here bound done

private theorem seedReadyQueue_sound {phase : RuntimePhaseId} {position : Nat}
    (here : dispatch.main = .seed phase position)
    (computed : dispatch.seedReadyQueue phase position = (next, event)) :
    MainStep dispatch next event := by
  unfold seedReadyQueue at computed
  split at computed
  · next unbound =>
    cases computed
    refine .seedFault here (fun graph bound => ?_) (fun graph node bound => ?_)
    all_goals exact absurd (unbound.symm.trans bound) nofun
  · next graph bound =>
    split at computed
    · next more =>
      split at computed
      · next outside =>
        cases computed
        refine .seedFault here (fun graph' bound' => ?_) (fun graph' node bound' found => ?_)
        · cases bound.symm.trans bound'
          exact more
        · cases bound.symm.trans bound'
          exact absurd (outside.symm.trans found) nofun
      · next node found =>
        split at computed
        · next outside =>
          cases computed
          refine .seedFault here (fun graph' bound' => ?_) (fun graph' node' bound' found' => ?_)
          · cases bound.symm.trans bound'
            exact more
          · cases bound.symm.trans bound'
            cases found.symm.trans found'
            exact not_lt_of_at?_eq_none outside
        · next remaining loaded =>
          cases computed
          exact .seed here bound more found loaded
    · next done =>
      cases computed
      exact .seedDone here bound done

private theorem join_sound {index : Nat} (here : dispatch.main = .join index)
    (computed : dispatch.mainStep = some (next, event)) : MainStep dispatch next event := by
  simp only [mainStep, here] at computed
  split at computed
  · next more =>
    split at computed
    · next slot =>
      split at computed
      · next unstarted => cases computed; exact .joinSkip here more slot unstarted
      · next finished => cases computed; exact .join here more slot finished
      · cases computed
    · next outside => cases computed; exact .joinFault here more outside
  · next done => cases computed; exact .joined here done

/-- Every computed step of the runtime thread is one of the listed outcomes. -/
theorem mainStep_sound (computed : dispatch.mainStep = some (next, event)) :
    MainStep dispatch next event := by
  cases here : dispatch.main
  case join index => exact join_sound here computed
  all_goals simp only [mainStep, here] at computed
  case idle => cases computed
  case startPool hardwareConcurrency =>
    unfold startPool at computed
    split at computed
    · next refused => cases computed; exact .startPoolRefused here refused
    · next stopped => cases computed; exact .startPool here (Bool.not_eq_true _ ▸ stopped)
  case startWorker index =>
    unfold startWorker at computed
    split at computed
    · next more =>
      split at computed
      · next slot => cases computed; exact .startWorker here more slot
      · next outside => cases computed; exact .startWorkerFault here more outside
    · next done => cases computed; exact .startedWorkers here done
  case storeRunning => cases computed; exact .storeRunning here
  case loadRunning phase =>
    split at computed
    · next running => cases computed; exact .loadRunning here running
    · next stopped => cases computed; exact .loadRunningRefused here (Bool.not_eq_true _ ▸ stopped)
  case storePhase phase => cases computed; exact .storePhase here
  case build index => exact buildRuntimeState_sound here (Option.some.inj computed)
  case loadSeedPhase => cases computed; exact .loadSeedPhase here
  case seed phase position => exact seedReadyQueue_sound here (Option.some.inj computed)
  case seedEnqueue phase position task => cases computed; exact .seedEnqueue here
  case seedAdd phase position => cases computed; exact .seedAdd here
  case waitActive =>
    split at computed
    · next busy => cases computed; exact .waitBusy here busy
    · next zero => cases computed; exact .waitDone (.inl here) (not_not.mp zero)
  case waitEpoch => cases computed; exact .waitEpoch here
  case waitRecheck epoch =>
    split at computed
    · next zero => cases computed; exact .waitDone (.inr ⟨epoch, here⟩) zero
    · next busy => cases computed; exact .waitRecheck here busy
  case waitBlocked epoch => cases computed; exact .waitReturned here
  case stopPool => cases computed; exact .stopPool here
  case clearActive => cases computed; exact .clearActive here
  case clearEpoch => cases computed; exact .clearEpoch here
  case clearPhase => cases computed; exact .clearPhase here
  case clearCounters index =>
    split at computed
    · next more => cases computed; exact .clearCounters here more
    · next done => cases computed; exact .cleared here done
  case fault => cases computed

/-- The outcomes of one step of the system, by the choice that was taken. -/
inductive SystemStep (dispatch : JobDispatch) : Choice → JobDispatch → Event → Prop
  | initializeRefused {graph registry hardwareConcurrency} (idle : dispatch.main = .idle)
      (refused : dispatch.running = true ∨ registry.validate graph = some false) :
      SystemStep dispatch (.call (.initializeWith graph registry hardwareConcurrency)) dispatch
        (.initialized false)
  | initializeFault {graph registry hardwareConcurrency} (idle : dispatch.main = .idle)
      (stopped : dispatch.running = false) (outside : registry.validate graph = none) :
      SystemStep dispatch (.call (.initializeWith graph registry hardwareConcurrency))
        (dispatch.setMain .fault) .faulted
  | initializeBound {graph registry hardwareConcurrency} (idle : dispatch.main = .idle)
      (stopped : dispatch.running = false) (valid : registry.validate graph = some true) :
      SystemStep dispatch (.call (.initializeWith graph registry hardwareConcurrency))
        { dispatch with
          taskGraph := some graph
          registry := some registry
          main := .startPool hardwareConcurrency } .silent
  | calledPhase {phase} (idle : dispatch.main = .idle) :
      SystemStep dispatch (.call (.executePhase phase))
        (dispatch.setMain (.loadRunning phase)) (.calledPhase phase)
  | calledShutdown (idle : dispatch.main = .idle) (running : dispatch.running = true) :
      SystemStep dispatch (.call .shutdown)
        { dispatch with running := false, main := .stopPool } .calledShutdown
  | ignoredShutdown (idle : dispatch.main = .idle) (stopped : dispatch.running = false) :
      SystemStep dispatch (.call .shutdown) dispatch .ignoredShutdown
  | main {next : JobDispatch} {event : Event} (moved : MainStep dispatch next event) :
      SystemStep dispatch .main next event
  | threadFailure {index} (here : dispatch.main = .startWorker index)
      (more : index < dispatch.activeWorkerCount) :
      SystemStep dispatch .threadFailure (dispatch.setMain .idle) .initializeThrew
  | worker {index} {next : JobDispatch} {event : Event} (moved : WorkerStep dispatch index next event) :
      SystemStep dispatch (.worker index) next event

private theorem initializeWith_sound {graph : TaskGraph} {registry : TaskRegistry}
    {hardwareConcurrency : Nat} (idle : dispatch.main = .idle)
    (computed : dispatch.initializeWith graph registry hardwareConcurrency = (next, event)) :
    SystemStep dispatch (.call (.initializeWith graph registry hardwareConcurrency)) next event := by
  unfold initializeWith at computed
  split at computed
  · next running => cases computed; exact .initializeRefused idle (.inl running)
  · next stopped =>
    split at computed
    · next outside =>
      cases computed
      exact .initializeFault idle (Bool.not_eq_true _ ▸ stopped) outside
    · next invalid => cases computed; exact .initializeRefused idle (.inr invalid)
    · next valid =>
      cases computed
      exact .initializeBound idle (Bool.not_eq_true _ ▸ stopped) valid

/-- Every computed step of the system is one of the listed outcomes. -/
theorem step_sound {choice : Choice} (computed : system.step dispatch choice = some (next, event)) :
    SystemStep dispatch choice next event := by
  cases choice with
  | call call =>
      simp only [step] at computed
      split at computed
      · next idle =>
        cases call with
        | initializeWith graph registry hardwareConcurrency =>
            exact initializeWith_sound idle (Option.some.inj computed)
        | executePhase phase => cases computed; exact .calledPhase idle
        | shutdown =>
            simp only [callStep] at computed
            split at computed
            · next running => cases computed; exact .calledShutdown idle running
            · next stopped =>
              cases computed
              exact .ignoredShutdown idle (Bool.not_eq_true _ ▸ stopped)
      · cases computed
  | main => exact .main (mainStep_sound computed)
  | threadFailure =>
      simp only [step] at computed
      split at computed
      · next index here =>
        split at computed
        · next more => cases computed; exact .threadFailure here more
        · cases computed
      · cases computed
  | worker index => exact .worker (workerStep_sound computed)

/-- What a worker step leaves alone. -/
structure WorkerFrame (dispatch : JobDispatch) (worker : WorkerIndex) (next : JobDispatch) :
    Prop where
  others : ∀ other, other ≠ worker → next.workers other = dispatch.workers other
  started : dispatch.workers worker ≠ .unstarted
  main : next.main = dispatch.main
  poolRunning : next.poolRunning = dispatch.poolRunning
  running : next.running = dispatch.running
  taskGraph : next.taskGraph = dispatch.taskGraph
  registry : next.registry = dispatch.registry
  currentPhase : next.currentPhase = dispatch.currentPhase
  activeWorkerCount : next.activeWorkerCount = dispatch.activeWorkerCount

/-- A worker step leaves everything else. -/
theorem WorkerStep.frame {worker : WorkerIndex} (moved : WorkerStep dispatch worker next event) :
    WorkerFrame dispatch worker next := by
  have elsewhere : ∀ state other, other ≠ worker →
      Function.update dispatch.workers worker state other = dispatch.workers other :=
    fun state other different => Function.update_of_ne different _ _
  cases moved with
  | fault task counters cause =>
      refine ⟨elsewhere _, ?_, rfl, rfl, rfl, rfl, rfl, rfl, rfl⟩
      rcases cause with ⟨here, _⟩ | ⟨here, _⟩ | ⟨phase, position, here, _⟩ <;> simp [here]
  | _ here => exact ⟨elsewhere _, by simp [here], rfl, rfl, rfl, rfl, rfl, rfl, rfl⟩

/-- A worker step trades the worker's weight before for its weight after. -/
theorem WorkerFrame.trade {worker : WorkerIndex} (frame : WorkerFrame dispatch worker next)
    (weight : WorkerState → Nat) :
    threadSum weight next.workers + weight (dispatch.workers worker) =
      threadSum weight dispatch.workers + weight (next.workers worker) := by
  have moved : next.workers = Function.update dispatch.workers worker (next.workers worker) := by
    ext other
    by_cases same : other = worker
    · subst same
      rw [Function.update_self]
    · rw [Function.update_of_ne same, frame.others other same]
  have trade := threadSum_update weight dispatch.workers worker (next.workers worker)
  rwa [← moved] at trade

/-- What a freshly constructed dispatcher can do: nothing gets past its first
test but an Initialize whose scan of the graph does not answer false. -/
theorem SystemStep.of_fresh {choice : Choice} (moved : SystemStep fresh choice next event) :
    (next = fresh ∧ (event = .initialized false ∨ event = .ignoredShutdown)) ∨
    (∃ phase, event = .calledPhase phase ∧ next = fresh.setMain (.loadRunning phase)) ∨
    ∃ graph registry hardwareConcurrency,
      choice = .call (.initializeWith graph registry hardwareConcurrency) ∧
      ((registry.validate graph = none ∧ event = .faulted ∧ next = fresh.setMain .fault) ∨
        (registry.validate graph = some true ∧ event = .silent ∧
          next = { fresh with
            taskGraph := some graph
            registry := some registry
            main := .startPool hardwareConcurrency })) := by
  cases moved with
  | initializeRefused => exact .inl ⟨rfl, .inl rfl⟩
  | ignoredShutdown => exact .inl ⟨rfl, .inr rfl⟩
  | calledPhase => exact .inr (.inl ⟨_, rfl, rfl⟩)
  | initializeFault idle stopped outside =>
      exact .inr (.inr ⟨_, _, _, rfl, .inl ⟨outside, rfl, rfl⟩⟩)
  | initializeBound idle stopped valid =>
      exact .inr (.inr ⟨_, _, _, rfl, .inr ⟨valid, rfl, rfl⟩⟩)
  | calledShutdown idle running => cases running
  | threadFailure here => cases here
  | worker moved => exact absurd rfl moved.frame.started
  | main moved =>
      cases moved with
      | waitDone here => rcases here with here | ⟨epoch, here⟩ <;> cases here
      | _ here => cases here

/-- A fresh dispatcher refuses ExecutePhase. -/
theorem SystemStep.of_refused {phase : RuntimePhaseId} {choice : Choice}
    (moved : SystemStep (fresh.setMain (.loadRunning phase)) choice next event) :
    next = fresh ∧ event = .refusedPhase phase := by
  cases moved with
  | worker moved => exact absurd rfl moved.frame.started
  | main moved =>
      cases moved with
      | loadRunning here running => cases running
      | loadRunningRefused here =>
          cases here
          exact ⟨rfl, rfl⟩
      | waitDone here => rcases here with here | ⟨epoch, here⟩ <;> cases here
      | _ here => cases here
  | _ idle => cases idle

/-- The pool never has more workers than slots. -/
theorem workerCount_le (hardwareConcurrency : Nat) :
    workerCount hardwareConcurrency ≤ maxHardwareWorkers := by
  unfold workerCount
  dsimp only
  split
  · decide
  · omega

end JobDispatch
end MmoServer.Runtime
