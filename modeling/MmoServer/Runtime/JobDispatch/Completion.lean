import MmoServer.Runtime.JobDispatch.Barrier

/-!
# What a phase has done when ExecutePhase returns

Under the barrier guard all work in progress belongs to the current phase
(`InPhase`), so a release that brings a counter to zero within its own phase is
never missed. What can still be missed is a counter decremented past zero
before its task has been created: no later decrement reads one, and the scan
does not find it at zero. `CounterGuard` excludes that, and then every task of a
phase has been executed and completed when its ExecutePhase returns
(`phase_barrier`). Without the barrier guard the diamond fails
(`phase_barrier_opens_early`).
-/

namespace MmoServer.Runtime

open MmoServer.Std MmoServer.Semantics

/-- A worker's task, the child it is about to enqueue and the phase it has
loaded all belong to one phase. -/
structure WorkerState.InPhase (graph : TaskGraph) (phase : RuntimePhaseId) (state : WorkerState) :
    Prop where
  held : ∀ task, state.task? = some task → graph.phaseOf task = phase
  offered : ∀ child, state.offer? = some child → graph.phaseOf child = phase
  loaded : ∀ seen, state.loaded? = some seen → seen = phase

/-- The runtime thread has stored the phase it was called for. -/
def MainState.afterStore : MainState → Bool
  | .idle | .loadRunning _ | .storePhase _ => false
  | _ => true

theorem WorkerState.InPhase.of_none {graph : TaskGraph} {phase : RuntimePhaseId}
    {state : WorkerState} (empty : state.task? = none) : state.InPhase graph phase := by
  cases state <;> first
    | exact absurd empty (Option.some_ne_none _)
    | exact ⟨nofun, nofun, nofun⟩

namespace JobDispatch

/-- All work in progress belongs to the current phase. -/
structure InPhase (graph : TaskGraph) (dispatch : JobDispatch) : Prop where
  queued : ∀ task ∈ dispatch.readyQueue.items, graph.phaseOf task = dispatch.currentPhase
  seeded : ∀ task, dispatch.main.offer? = some task → graph.phaseOf task = dispatch.currentPhase
  workers : ∀ worker, (dispatch.workers worker).InPhase graph dispatch.currentPhase

variable {graph : TaskGraph} {dispatch next start finish : JobDispatch} {events : List Event}
  {event : Event} {worker : WorkerIndex} {choice : Choice} {task parent child : TaskId}

/-- Only the moving worker and the queue have to be looked at. -/
theorem InPhase.workerMove (inPhase : InPhase graph dispatch)
    (frame : WorkerFrame dispatch worker next)
    (here : (next.workers worker).InPhase graph dispatch.currentPhase)
    (queued : ∀ task ∈ next.readyQueue.items, graph.phaseOf task = dispatch.currentPhase) :
    InPhase graph next := by
  constructor
  · rw [frame.currentPhase]
    exact queued
  · rw [frame.main, frame.currentPhase]
    exact inPhase.seeded
  · intro other
    rw [frame.currentPhase]
    by_cases same : other = worker
    · rw [same]
      exact here
    · rw [frame.others other same]
      exact inPhase.workers other

theorem InPhase.workerStep (inPhase : InPhase graph dispatch) (wellFormed : graph.WellFormed)
    (tick : Tick graph events dispatch) (moved : WorkerStep dispatch worker next event) :
    InPhase graph next := by
  have frame := moved.frame
  have state := inPhase.workers worker
  cases moved with
  | checkRunning here =>
      refine inPhase.workerMove frame (.of_none ?_) inPhase.queued
      simp only [setWorker, Function.update_self]
      split <;> rfl
  | dequeueEmpty here | bumpEpoch here | notifyAll here =>
      refine inPhase.workerMove frame (.of_none ?_) inPhase.queued
      simp only [setWorker, Function.update_self, WorkerState.task?]
  | subActive here =>
      refine inPhase.workerMove frame (.of_none ?_) inPhase.queued
      simp only [setWorker, Function.update_self]
      split <;> rfl
  | dequeue here taken =>
      have items := BoundedQueue.dequeue_eq_some taken
      refine inPhase.workerMove frame ?_ fun task queued => ?_
      · simp only [setWorker, Function.update_self]
        refine ⟨fun task held => ?_, by rintro _ ⟨⟩, by rintro _ ⟨⟩⟩
        cases held
        exact inPhase.queued _ (by simp [items])
      · exact inPhase.queued task (by simp only [items]; exact List.mem_cons_of_mem _ queued)
  | execute here | executing here | releaseDone here =>
      rw [here] at state
      refine inPhase.workerMove frame ?_ inPhase.queued
      simp only [setWorker, Function.update_self]
      exact ⟨state.held, by rintro _ ⟨⟩, by rintro _ ⟨⟩⟩
  | loadPhase here =>
      rw [here] at state
      refine inPhase.workerMove frame ?_ inPhase.queued
      simp only [setWorker, Function.update_self]
      exact ⟨state.held, by rintro _ ⟨⟩, fun seen same => (Option.some.inj same).symm⟩
  | releaseHeld here | addActive here =>
      rw [here] at state
      refine inPhase.workerMove frame ?_ inPhase.queued
      simp only [setWorker, Function.update_self]
      exact ⟨state.held, by rintro _ ⟨⟩, state.loaded⟩
  | releaseReady here bound found more named loaded foundChild current =>
      rw [here] at state
      have reads := tick.sound.child_eq wellFormed tick.bound here bound found more named
      refine inPhase.workerMove frame ?_ inPhase.queued
      simp only [setWorker, Function.update_self]
      refine ⟨state.held, fun child offered => ?_, state.loaded⟩
      cases offered
      rw [getNode, tick.bound, Option.bind_some, wellFormed.getNode_eq reads.2.2] at foundChild
      cases foundChild
      rw [TaskGraph.phaseOf, current]
      exact state.loaded _ rfl
  | enqueue here =>
      rw [here] at state
      refine inPhase.workerMove frame ?_ fun task queued => ?_
      · simp only [setWorker, Function.update_self]
        exact ⟨state.held, by rintro _ ⟨⟩, state.loaded⟩
      · rcases BoundedQueue.mem_of_enqueue queued with old | rfl
        · exact inPhase.queued task old
        · exact state.offered _ rfl
  | fault task counters cause =>
      refine inPhase.workerMove frame (.of_none ?_) inPhase.queued
      simp only [setWorker, Function.update_self, WorkerState.task?]

/-- The runtime thread stores a new phase only when no work is in progress, and
queues only tasks of the phase it is scanning. -/
theorem InPhase.mainStep (inPhase : InPhase graph dispatch) (wellFormed : graph.WellFormed)
    (session : Session graph events dispatch) (moved : MainStep dispatch next event) :
    InPhase graph next := by
  have ok := session.tick.schedule.main
  have inTick := ok.inTick
  cases moved with
  | storePhase here =>
      obtain ⟨queue, _, empty⟩ := session.settled (by rw [here]; rfl)
      refine ⟨?_, ?_, fun worker => .of_none (empty worker)⟩
      · intro task queued
        rw [queue] at queued
        cases queued
      · intro task seeded
        dsimp only at seeded
        split at seeded <;> cases seeded
  | seed here bound more found =>
      cases session.tick.bound.symm.trans bound
      rw [MainOk, here] at ok
      refine ⟨inPhase.queued, fun task seeded => ?_, inPhase.workers⟩
      simp only [setMain] at seeded
      split at seeded
      · cases seeded
        have at_ := (wellFormed.task_of_range more).1
        rw [(scanned_mem wellFormed more found).1] at at_
        exact at_.trans ok.1.1.symm
      · cases seeded
  | seedEnqueue here =>
      refine ⟨fun task queued => ?_, by rintro _ ⟨⟩, inPhase.workers⟩
      rcases BoundedQueue.mem_of_enqueue queued with old | rfl
      · exact inPhase.queued task old
      · exact inPhase.seeded _ (by rw [here]; rfl)
  | loadRunning | loadRunningRefused | build | buildDone | buildFault | loadSeedPhase | seedDone
  | seedFault | seedAdd | waitBusy | waitDone | waitEpoch | waitRecheck | waitReturned =>
      exact ⟨inPhase.queued, by rintro _ ⟨⟩, inPhase.workers⟩
  | startPoolRefused here | startPool here | startWorker here | startWorkerFault here
  | startedWorkers here | storeRunning here | stopPool here | joinSkip here | join here
  | joinFault here | joined here | clearActive here | clearEpoch here | clearPhase here
  | clearCounters here | cleared here =>
      rw [here] at inTick
      cases inTick

theorem InPhase.step (inPhase : InPhase graph dispatch) (wellFormed : graph.WellFormed)
    (session : Session graph events dispatch) (moved : SystemStep dispatch choice next event) :
    InPhase graph next := by
  have running := session.tick.running
  cases moved with
  | initializeRefused => exact inPhase
  | initializeFault _ stopped | initializeBound _ stopped | ignoredShutdown _ stopped =>
      exact absurd (running.symm.trans stopped) nofun
  | calledPhase | calledShutdown | threadFailure => exact ⟨inPhase.queued, nofun, inPhase.workers⟩
  | main moved => exact inPhase.mainStep wellFormed session moved
  | worker moved => exact inPhase.workerStep wellFormed session.tick moved

theorem InPhase.initial (rest : AtRest graph dispatch) : InPhase graph dispatch := by
  refine ⟨fun task queued => ?_, fun task seeded => ?_, fun worker =>
    .of_none (rest.workers worker).1⟩
  · rw [rest.queue] at queued
    cases queued
  · rw [rest.idle] at seeded
    cases seeded

/-! ## Counters that are not decremented past zero -/

/-- No decrement finds at zero the counter of a task that has not been created
in this tick. -/
def CounterGuard : TransitionSystem.StepCondition JobDispatch Choice Event :=
  fun events _ _ event =>
    match event with
    | .decremented _ _ child 0 _ => 0 < created (currentTick events) child
    | _ => True

instance (events : List Event) (dispatch : JobDispatch) (choice : Choice) (event : Event) :
    Decidable (CounterGuard events dispatch choice event) := by
  unfold CounterGuard
  split <;> infer_instance

/-- A task nobody has created still has edges to be decremented once it has been
scanned, and never more decrements than edges. -/
structure Ready (graph : TaskGraph) (events : List Event) : Prop where
  whole : ∀ task ∈ graph.tasks, created events task = 0 →
    load graph events task ≤ (graph.nodeOf task).parentCount
  scanned : ∀ task ∈ graph.tasks, 0 < scanCount events task → created events task = 0 →
    load graph events task < (graph.nodeOf task).parentCount

/-- Events that neither scan nor decrement. -/
theorem Ready.keep (ready : Ready graph events) (noScan : ∀ task, event.scans task = false)
    (noDecrement : ∀ parent child, event.decrements parent child = false) :
    Ready graph (events ++ [event]) := by
  have scans : ∀ task, scanCount (events ++ [event]) task = scanCount events task := by
    intro task
    rw [scanCount, tally_concat, noScan]
    rfl
  have before : ∀ task, created (events ++ [event]) task = 0 → created events task = 0 := by
    intro task none
    simp only [created, zeroScans, releases, tally_concat] at none ⊢
    omega
  constructor
  · intro task member none
    rw [load_concat_of_not noDecrement]
    exact ready.whole task member (before task none)
  · intro task member positive none
    rw [load_concat_of_not noDecrement]
    exact ready.scanned task member (scans task ▸ positive) (before task none)

/-- A decrement that reads above zero, and that is not missed when it reads one. -/
theorem Ready.decrement (ready : Ready graph events) (counters : Counters graph events dispatch)
    (built : Built events) (wellFormed : graph.WellFormed) {old : Nat} {isReady : Bool}
    (member : parent ∈ graph.tasks)
    (loaded : dispatch.remainingDependencies.at? child = some old)
    (guard : old = 0 → 0 < created events child)
    (last : old = 1 → 0 < scanCount events child → isReady = true) :
    Ready graph (events ++ [.decremented worker parent child old isReady]) := by
  have read := (FixedArray.at?_eq_some_iff.mp loaded).2
  have before : ∀ task,
      created (events ++ [.decremented worker parent child old isReady]) task = 0 →
        created events task = 0 ∧ ¬ (child = task ∧ isReady = true) := by
    intro task none
    simp only [created, zeroScans, releases, tally_concat, Event.zeroScans, Event.releases,
      decide_eq_true_eq] at none ⊢
    split_ifs at none <;> first | omega | exact ⟨by omega, ‹_›⟩
  have scans : ∀ task,
      scanCount (events ++ [.decremented worker parent child old isReady]) task =
        scanCount events task := by
    intro task
    simp [scanCount]
  constructor
  · intro task memberTask none
    obtain ⟨unborn, notReady⟩ := before task none
    have whole := ready.whole task memberTask unborn
    rw [load_concat member]
    by_cases same : child = task
    · subst same
      have balance := counters.remaining built child memberTask
      have parents := wellFormed.parentCount_le memberTask
      have above : old ≠ 0 := fun zero => by
        have positive := guard zero
        omega
      rw [read] at balance
      rw [if_pos rfl]
      omega
    · rw [if_neg same]
      exact whole
  · intro task memberTask positive none
    obtain ⟨unborn, notReady⟩ := before task none
    rw [scans] at positive
    have open_ := ready.scanned task memberTask positive unborn
    rw [load_concat member]
    by_cases same : child = task
    · subst same
      have balance := counters.remaining built child memberTask
      have parents := wellFormed.parentCount_le memberTask
      have missed : old ≠ 1 := fun one => notReady ⟨rfl, last one positive⟩
      rw [read] at balance
      rw [if_pos rfl]
      omega
    · rw [if_neg same]
      exact open_

/-- A scan that passes a task by has found edges still to be decremented. -/
theorem Ready.scan (ready : Ready graph events) (counters : Counters graph events dispatch)
    (built : Built events) {remaining : Nat}
    (loaded : dispatch.remainingDependencies.at? task = some remaining) :
    Ready graph (events ++ [.scanned task remaining]) := by
  have read := (FixedArray.at?_eq_some_iff.mp loaded).2
  have loads : ∀ other, load graph (events ++ [.scanned task remaining]) other =
      load graph events other := fun other => load_concat_of_not fun _ _ => rfl
  have before : ∀ other, created (events ++ [.scanned task remaining]) other = 0 →
      created events other = 0 ∧ ¬ (task = other ∧ remaining = 0) := by
    intro other none
    simp only [created, zeroScans, releases, tally_concat, Event.zeroScans, Event.releases,
      decide_eq_true_eq] at none ⊢
    split_ifs at none <;> first | omega | exact ⟨by omega, ‹_›⟩
  constructor
  · intro other member none
    rw [loads]
    exact ready.whole other member (before other none).1
  · intro other member positive none
    obtain ⟨unborn, nonzero⟩ := before other none
    rw [loads]
    by_cases same : task = other
    · subst same
      have whole := ready.whole task member unborn
      have balance := counters.remaining built task member
      have above : remaining ≠ 0 := fun zero => nonzero ⟨rfl, zero⟩
      rw [read] at balance
      omega
    · refine ready.scanned other member ?_ unborn
      simpa [scanCount, same] using positive

/-- While a phase runs, the scan has not gone beyond it. -/
theorem Schedule.phase_le_of_scanned (schedule : Schedule graph events dispatch)
    (wellFormed : graph.WellFormed) (inside : dispatch.main.between = false)
    (member : task ∈ graph.tasks) (scanned : 0 < scanCount events task) :
    (graph.phaseOf task).index ≤ dispatch.currentPhase.index := by
  have limit : taskGraphMaxNodesV1 = 256 := rfl
  have ok := schedule.main
  obtain ⟨place, within, ranked, _⟩ := wellFormed.rank_eq member
  have front : frontier events dispatch.main ≤ (dispatch.currentPhase.index + 1) * 256 := by
    rw [MainOk] at ok
    cases here : dispatch.main <;> rw [here] at ok inside <;>
      first | exact ok.elim | cases inside
    case seed phase position | seedEnqueue phase position _ | seedAdd phase position =>
      have small := wellFormed.range_count_le phase
      obtain ⟨⟨rfl, called, _⟩, bounded⟩ := ok
      simp only [frontier, called, Nat.add_sub_cancel]
      rw [limit] at small ⊢
      omega
    all_goals simp only [frontier, ok.1, limit, Nat.le_refl]
  have below := schedule.scanned task member
  split at below
  · next reached =>
    rw [limit] at ranked
    omega
  · omega

/-- A worker that is releasing decrements children of its own or later phases;
the ones already scanned belong to its own. -/
theorem Session.phaseOf_child (session : Session graph events dispatch)
    (wellFormed : graph.WellFormed) (inPhase : InPhase graph dispatch)
    (held : (dispatch.workers worker).task? = some parent) (edge : graph.Edge parent child)
    (scanned : 0 < scanCount (currentTick events) child) :
    graph.phaseOf child = dispatch.currentPhase := by
  have inside : dispatch.main.between = false := by
    by_contra between
    have none := (session.settled (Bool.not_eq_false _ ▸ between)).2.2 worker
    rw [held] at none
    cases none
  have member := wellFormed.child_mem_tasks edge.1 edge.2
  have early := session.tick.schedule.phase_le_of_scanned wellFormed inside member scanned
  have late := wellFormed.phaseOf_le edge.1 edge.2
  rw [(inPhase.workers worker).held parent held] at late
  exact RuntimePhaseId.index_injective (by omega)

/-- Under both guards every step keeps uncreated tasks ready to be created. -/
theorem Ready.step (ready : Ready graph (currentTick events)) (wellFormed : graph.WellFormed)
    (session : Session graph events dispatch) (inPhase : InPhase graph dispatch)
    (moved : SystemStep dispatch choice next event)
    (guard : CounterGuard events dispatch choice event) :
    Ready graph (currentTick (events ++ [event])) := by
  rw [currentTick_concat]
  split
  · next first =>
    subst first
    have none : ∀ task, load graph [.calledPhase .input] task = 0 := fun task => by
      simp [load, decrements, tally]
    exact ⟨fun task _ _ => by rw [none]; exact Nat.zero_le _, fun task _ positive => by
      simp [scanCount, tally] at positive⟩
  · have counters := session.tick.counters
    cases moved with
    | main moved =>
        cases moved with
        | seed here bound more found loaded =>
            have ok := session.tick.schedule.main
            rw [MainOk, here] at ok
            exact ready.scan counters ok.1.2.2 loaded
        | _ => exact ready.keep (fun _ => rfl) fun _ _ => rfl
    | worker moved =>
        cases moved with
        | @releaseHeld task phase position graph' node child old here bound found more named
            loaded held =>
            have reads := session.tick.sound.child_eq wellFormed session.tick.bound here bound
              found more named
            have edge : graph.Edge task child := ⟨reads.1, List.mem_of_getElem? reads.2.1⟩
            have built := counters.built_of_holds session.tick.placement
              (congrArg WorkerState.task? here)
            refine ready.decrement counters built wellFormed reads.1 loaded ?_ ?_
            · intro zero
              subst zero
              exact guard
            · intro one scanned
              obtain ⟨childNode, foundChild, other⟩ := held one
              have current := session.phaseOf_child wellFormed inPhase
                (congrArg WorkerState.task? here) edge scanned
              have seen := (inPhase.workers _).loaded phase (congrArg WorkerState.loaded? here)
              rw [getNode, session.tick.bound, Option.bind_some,
                wellFormed.getNode_eq reads.2.2] at foundChild
              cases foundChild
              exact absurd (current.trans seen.symm) other
        | releaseReady here bound found more named loaded =>
            have reads := session.tick.sound.child_eq wellFormed session.tick.bound here bound
              found more named
            have built := counters.built_of_holds session.tick.placement
              (congrArg WorkerState.task? here)
            exact ready.decrement counters built wellFormed reads.1 loaded (by simp) fun _ _ => rfl
        | _ => exact ready.keep (fun _ => rfl) fun _ _ => rfl
    | _ => exact ready.keep (fun _ => rfl) fun _ _ => rfl

/-! ## The phase is complete -/

/-- When the barrier opens, every task of the current and of earlier phases has
been completed. The induction is on the dependency order: completed parents have
decremented every edge of a task, so it has been created, and everything created
is completed. -/
theorem Session.completed (session : Session graph events dispatch)
    (ready : Ready graph (currentTick events)) (wellFormed : graph.WellFormed)
    (waiting : dispatch.main = .waitActive ∨ ∃ epoch, dispatch.main = .waitRecheck epoch)
    (zero : dispatch.activeTaskCount = 0)
    (guard : ∀ worker, (dispatch.workers worker).uncounted = false) (member : task ∈ graph.tasks)
    (reached : (graph.phaseOf task).index ≤ dispatch.currentPhase.index) :
    0 < completions (currentTick events) task := by
  have schedule := session.tick.schedule
  have ok := schedule.main
  obtain ⟨owes, called, front⟩ : dispatch.main.uncounted = 0 ∧
      calls (currentTick events) = dispatch.currentPhase.index + 1 ∧
      frontier (currentTick events) dispatch.main =
        calls (currentTick events) * taskGraphMaxNodesV1 := by
    rcases waiting with here | ⟨epoch, here⟩
    all_goals
      rw [MainOk, here] at ok
      rw [here]
      exact ⟨rfl, ok.1, rfl⟩
  obtain ⟨queue, empty, accepted⟩ :=
    session.tick.settled_of_zero wellFormed owes zero guard
  induction task using wellFormed.edge_wellFounded.induction with
  | _ task ih =>
      have ranked := wellFormed.rank_lt_of_phase member
      have scanned := schedule.scanned task member
      have below : graph.rank task <
          (dispatch.currentPhase.index + 1) * taskGraphMaxNodesV1 :=
        Nat.lt_of_lt_of_le ranked (Nat.mul_le_mul_right _ (Nat.succ_le_succ reached))
      rw [front, called, if_pos below] at scanned
      have all : graph.inDegree task ≤ load graph (currentTick events) task := by
        rw [wellFormed.inDegree_eq_sum, load]
        apply Finset.sum_le_sum
        intro parent memberParent
        split
        · next edge =>
          have early := wellFormed.phaseOf_le memberParent edge
          have done := ih parent ⟨memberParent, edge⟩ memberParent (by omega)
          obtain ⟨position, named⟩ := List.mem_iff_getElem?.mp edge
          have passed := session.tick.release.passed parent memberParent position task named
          omega
        · exact Nat.zero_le _
      have positive : created (currentTick events) task ≠ 0 := by
        intro none
        have fewer := ready.scanned task member (by omega) none
        rw [wellFormed.parentCount_eq_inDegree member] at fewer
        omega
      -- Whatever has been created is neither queued nor held nor refused.
      have balance := session.tick.placement.balance task
      have holds : threadSum (WorkerState.holds task) dispatch.workers = 0 :=
        threadSum_eq_zero_iff.mpr fun worker => (WorkerState.weights_of_none (empty worker)).1 task
      have offers : threadSum (WorkerState.offers task) dispatch.workers = 0 :=
        threadSum_eq_zero_iff.mpr fun worker =>
          (WorkerState.weights_of_none (empty worker)).2.1 task
      have seeded : dispatch.main.offers task = 0 := by
        rcases waiting with here | ⟨epoch, here⟩ <;> rw [here] <;> rfl
      have refused : refusals (currentTick events) task = 0 := by
        rw [failedEnqueues_eq_sum session.tick.placement] at accepted
        exact Finset.sum_eq_zero_iff.mp accepted task member
      rw [queue, holds, offers, seeded, refused, List.count_nil] at balance
      omega

/-- The phase most recently stored. -/
def lastStored (events : List Event) : Option RuntimePhaseId :=
  (events.filterMap Event.storedPhase?).getLast?

theorem lastStored_concat (events : List Event) (event : Event) :
    lastStored (events ++ [event]) = event.storedPhase?.or (lastStored events) := by
  cases stored : event.storedPhase? <;> simp [lastStored, stored]

/-- While a phase runs, it is the one stored last. -/
def Stored (events : List Event) (dispatch : JobDispatch) : Prop :=
  dispatch.main.afterStore = true → lastStored events = some dispatch.currentPhase

theorem Stored.keep (stored : Stored events dispatch)
    (before : next.main.afterStore = true → dispatch.main.afterStore = true)
    (phase : next.currentPhase = dispatch.currentPhase) (quiet : event.storedPhase? = none) :
    Stored (events ++ [event]) next := by
  intro after
  rw [lastStored_concat, quiet, phase]
  exact stored (before after)

/-- Storing a phase is the only way past the store. -/
theorem Stored.step (stored : Stored events dispatch) (running : dispatch.running = true)
    (inTick : dispatch.main.inTick = true) (moved : SystemStep dispatch choice next event)
    (notShutdown : event ≠ .calledShutdown) : Stored (events ++ [event]) next := by
  cases moved with
  | initializeRefused => exact stored.keep id rfl rfl
  | initializeFault _ stopped | initializeBound _ stopped | ignoredShutdown _ stopped =>
      exact absurd (running.symm.trans stopped) nofun
  | calledPhase | threadFailure => exact stored.keep nofun rfl rfl
  | calledShutdown => exact absurd rfl notShutdown
  | main moved =>
      cases moved with
      | storePhase =>
          intro _
          rw [lastStored_concat]
          rfl
      | loadRunning | loadRunningRefused | waitDone => exact stored.keep nofun rfl rfl
      | build here | buildDone here | buildFault here | loadSeedPhase here | seed here
      | seedDone here | seedFault here | seedEnqueue here | seedAdd here | waitBusy here
      | waitEpoch here | waitRecheck here | waitReturned here =>
          exact stored.keep (fun _ => by rw [here]; rfl) rfl rfl
      | startPoolRefused here | startPool here | startWorker here | startWorkerFault here
      | startedWorkers here | storeRunning here | stopPool here | joinSkip here | join here
      | joinFault here | joined here | clearActive here | clearEpoch here | clearPhase here
      | clearCounters here | cleared here =>
          rw [here] at inTick
          cases inTick
  | worker moved =>
      have frame := moved.frame
      refine stored.keep (frame.main ▸ id) frame.currentPhase ?_
      cases moved <;> rfl

/-- What ExecutePhase promises of a phase when it returns. -/
structure PhaseDone (graph : TaskGraph) (phase : RuntimePhaseId) (events : List Event)
    (dispatch : JobDispatch) : Prop where
  completed : ∀ task ∈ graph.tasks, graph.phaseOf task = phase →
    0 < ends (currentTick events) task ∧ 0 < completions (currentTick events) task
  queue : dispatch.readyQueue.items = []
  workers : ∀ worker, (dispatch.workers worker).task? = none

/-- Tasks begin and end only while the phase stored last is their own. -/
def PhaseLocal (graph : TaskGraph) (events : List Event) : Prop :=
  ∀ before event after task, events = before ++ event :: after →
    (event.begins task = true ∨ event.ends task = true) →
    lastStored before = some (graph.phaseOf task)

/-- The barrier does not open on an uncounted worker, and no decrement passes
the zero of a task that has not been created. -/
def PhaseGuard : TransitionSystem.StepCondition JobDispatch Choice Event :=
  fun events dispatch choice event =>
    BarrierGuard events dispatch choice event ∧ CounterGuard events dispatch choice event

instance (events : List Event) (dispatch : JobDispatch) (choice : Choice) (event : Event) :
    Decidable (PhaseGuard events dispatch choice event) :=
  inferInstanceAs (Decidable (_ ∧ _))

/-- The three invariants behind the barrier, along every run under the guards. -/
theorem phase_invariant (wellFormed : graph.WellFormed) (rest : AtRest graph start)
    (run : system.RunsUnder PhaseGuard start events finish) (inOrder : InPhaseOrder events)
    (notShutdown : .calledShutdown ∉ events) :
    Session graph events finish ∧ InPhase graph finish ∧
      Ready graph (currentTick events) ∧ Stored events finish := by
  have every : ∀ event ∈ events, event ≠ .calledShutdown :=
    fun event member same => notShutdown (same ▸ member)
  apply session_rule (fun events dispatch => InPhase graph dispatch ∧
    Ready graph (currentTick events) ∧ Stored events dispatch) wellFormed rest
    (run.restrict (fun event => event ≠ .calledShutdown) every)
    (fun _ _ _ _ permitted => permitted.1.1) inOrder notShutdown
  · have none : ∀ task, load graph [] task = 0 := fun task => by simp [load, decrements]
    refine ⟨.initial rest, ⟨fun task _ _ => ?_, fun _ _ positive =>
        absurd positive (Nat.lt_irrefl 0)⟩, fun after => ?_⟩
    · have empty : load graph (currentTick []) task = 0 := none task
      omega
    · rw [rest.idle] at after
      cases after
  · rintro events dispatch choice next event session ⟨inPhase, ready, stored⟩ moved
      ⟨guard, notShutdown⟩ -
    exact ⟨inPhase.step wellFormed session moved,
      ready.step wellFormed session inPhase moved guard.2,
      stored.step session.tick.running session.tick.schedule.main.inTick moved notShutdown⟩

/-- Whoever begins or ends a task holds it. -/
theorem held_of_executes (moved : SystemStep dispatch choice next event)
    (executes : event.begins task = true ∨ event.ends task = true) :
    ∃ worker, (dispatch.workers worker).task? = some task := by
  cases moved with
  | main moved => cases moved <;> simp at executes
  | worker moved =>
      cases moved with
      | execute here | executing here =>
          obtain rfl : _ = task := by simpa using executes
          exact ⟨_, by rw [here]; rfl⟩
      | _ => simp at executes
  | _ => simp at executes

/-- A task in progress belongs to the phase stored last. -/
theorem Session.lastStored_of_held (session : Session graph events dispatch)
    (inPhase : InPhase graph dispatch) (stored : Stored events dispatch)
    (held : (dispatch.workers worker).task? = some task) :
    lastStored events = some (graph.phaseOf task) := by
  rw [(inPhase.workers worker).held task held]
  apply stored
  by_contra before
  have between : dispatch.main.between = true := by
    cases here : dispatch.main <;> rw [here] at before <;> first | rfl | exact absurd rfl before
  have none := (session.settled between).2.2 worker
  rw [held] at none
  cases none

/-- In every session in which the barrier never reads a zero count while a
worker stands between an Enqueue and its increment, and no decrement finds at
zero the counter of a task that has not been created, ExecutePhase returns only
when every task of its phase is completed, nothing is queued and no worker holds
a task; and no task begins or ends outside its phase. -/
theorem phase_barrier (wellFormed : graph.WellFormed) (rest : AtRest graph start)
    (run : system.RunsUnder PhaseGuard start events finish) (inOrder : InPhaseOrder events)
    (notShutdown : .calledShutdown ∉ events) :
    (∀ before phase, events = before ++ [.returnedPhase phase] →
      PhaseDone graph phase before finish) ∧ PhaseLocal graph events := by
  constructor
  · rintro before phase rfl
    obtain ⟨state, choice, prior, transition, guard⟩ := run.last
    obtain ⟨session, _, ready, _⟩ := phase_invariant wellFormed rest prior
      (inOrder.of_prefix (List.prefix_append _ _))
      fun member => notShutdown (List.mem_append_left _ member)
    obtain ⟨after, _⟩ := phase_invariant wellFormed rest run inOrder notShutdown
    cases step_sound transition with
    | main moved =>
        cases moved with
        | waitDone waiting zero =>
            obtain ⟨queue, _, empty⟩ := after.settled rfl
            refine ⟨fun task member same => ?_, queue, empty⟩
            have completed := session.completed ready wellFormed waiting zero guard.1 member
              (by rw [same])
            have ended := session.tick.execution.ended task
            exact ⟨by omega, completed⟩
    | worker moved => cases moved
  · intro before event after task split executes
    obtain ⟨state, choice, next, prior, transition, _, _⟩ := run.at_event split
    obtain ⟨session, inPhase, _, stored⟩ := phase_invariant wellFormed rest prior
      (inOrder.of_prefix (split ▸ List.prefix_append _ _))
      fun member => notShutdown (split ▸ List.mem_append_left _ member)
    obtain ⟨worker, held⟩ := held_of_executes (step_sound transition) executes
    exact session.lastStored_of_held inPhase stored held

/-- The diamond run to the end of its input phase under both guards. -/
theorem diamond_phase_barrier : ∃ before finish,
    system.Runs (started .diamondGraph .full 2) (before ++ [.returnedPhase .input]) finish ∧
    PhaseDone .diamondGraph .input before finish ∧
    PhaseLocal .diamondGraph (before ++ [.returnedPhase .input]) := by
  obtain ⟨events, finish, run, called, notShutdown, last⟩ := system.runs_of_exec
    PhaseGuard (started .diamondGraph .full 2)
    (callThen .input 15 ++ work 0 13 ++ work 1 18 ++ work 0 9 ++ [.main])
    (fun _ events => calledPhases events = [.input] ∧ Event.calledShutdown ∉ events ∧
      events.getLast? = some (Event.returnedPhase .input))
    (by decide +kernel)
  obtain ⟨before, rfl⟩ := List.getLast?_eq_some_iff.mp last
  obtain ⟨done, local_⟩ := phase_barrier TaskGraph.diamondGraph_wellFormed
    (started_atRest (TaskRegistry.validate_full TaskGraph.diamondGraph_wellFormed) 2) run
    (InPhaseOrder.of_input called) notShutdown
  exact ⟨before, finish, run.runs, done before .input rfl, local_⟩

/-- Without the barrier guard it fails on the diamond with two workers: one has
enqueued task 1 and not counted it yet, the other completes it, and
ExecutePhase returns while tasks 2 and 3 are still to come. -/
theorem phase_barrier_opens_early : ¬ ∀ (graph : TaskGraph) (start finish : JobDispatch)
    (events : List Event), graph.WellFormed → AtRest graph start →
    system.Runs start events finish → InPhaseOrder events → .calledShutdown ∉ events →
    (∀ before phase, events = before ++ [.returnedPhase phase] →
      PhaseDone graph phase before finish) ∧ PhaseLocal graph events := by
  intro claim
  obtain ⟨events, finish, run, called, notShutdown, last, missing⟩ := system.runs_of_exec
    (fun _ _ _ _ => True) (started .diamondGraph .full 2)
    (callThen .input 15 ++ work 0 7 ++ work 1 8 ++ [.main])
    (fun _ events => calledPhases events = [.input] ∧ Event.calledShutdown ∉ events ∧
      events.getLast? = some (Event.returnedPhase .input) ∧
      completions (currentTick events.dropLast) 3 = 0)
    (by decide +kernel)
  obtain ⟨before, rfl⟩ := List.getLast?_eq_some_iff.mp last
  rw [List.dropLast_concat] at missing
  have done := (claim .diamondGraph _ finish _ TaskGraph.diamondGraph_wellFormed
    (started_atRest (TaskRegistry.validate_full TaskGraph.diamondGraph_wellFormed) 2) run
    (InPhaseOrder.of_input called) notShutdown).1 before .input rfl
  have completed := (done.completed 3 (by decide) (by decide)).2
  omega

end JobDispatch
end MmoServer.Runtime
