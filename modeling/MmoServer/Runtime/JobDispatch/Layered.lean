import MmoServer.Runtime.JobDispatch.Capacity
import MmoServer.Runtime.JobDispatch.Completion

/-!
# Graphs whose edges all lead to a later phase

The races of the dispatcher need an edge within a phase: only then does ReleaseSuccessors
enqueue a child itself. In a layered graph every task is enqueued by SeedReadyQueue, once
all of its parents have completed in earlier phases. So each step of every run meets the
conditions under which the phase barrier, the dependency order and the queue are sound, and
a tick needs no condition at all on how its threads interleave (`layered_session`).
-/

namespace MmoServer.Runtime

open MmoServer.Std MmoServer.Semantics

/-- Every edge leads to a later phase. -/
def TaskGraph.Layered (graph : TaskGraph) : Prop :=
  ∀ parent child, graph.Edge parent child →
    (graph.phaseOf parent).index < (graph.phaseOf child).index

/-- A worker of a layered graph is never about to enqueue a child. -/
theorem WorkerState.InPhase.offer?_eq_none {graph : TaskGraph} {phase : RuntimePhaseId}
    {state : WorkerState} (inPhase : state.InPhase graph phase) (sound : state.Local graph)
    (layered : graph.Layered) : state.offer? = none := by
  cases state with
  | enqueue task seen position child =>
      have later := layered task child ⟨sound.1, List.mem_of_getElem? sound.2⟩
      rw [inPhase.held task rfl, inPhase.offered child rfl] at later
      exact absurd later (Nat.lt_irrefl _)
  | _ => rfl

namespace JobDispatch

variable {graph : TaskGraph} {dispatch next start finish : JobDispatch} {events : List Event}
  {event : Event} {worker : WorkerIndex} {choice : Choice} {task parent child : TaskId}

/-! ## A counter is decremented once for each edge -/

/-- A worker at an edge of a task that was created once is the first to decrement it. -/
theorem Tick.decrements_eq_zero (tick : Tick graph events dispatch) {phase : RuntimePhaseId}
    {position : Nat} (once : created events parent ≤ 1) (member : parent ∈ graph.tasks)
    (here : dispatch.workers worker = .release parent phase position)
    (named : (graph.children parent)[position]? = some child) :
    decrements events parent child = 0 := by
  have passed := tick.release.passed parent member position child named
  have balance := tick.placement.balance parent
  -- Were the worker past the position, it would still be one that holds the task.
  have share := threadSum_update (WorkerState.passes parent position) dispatch.workers worker
    (.subActive parent)
  have held := threadSum_update (WorkerState.holds parent) dispatch.workers worker
    (.subActive parent)
  have below : threadSum (WorkerState.passes parent position)
        (Function.update dispatch.workers worker (.subActive parent)) ≤
      threadSum (WorkerState.holds parent)
        (Function.update dispatch.workers worker (.subActive parent)) :=
    threadSum_mono fun _ => WorkerState.passes_le_holds parent position _
  simp only [here, WorkerState.passes, WorkerState.passed, WorkerState.holds, WorkerState.task?,
    Nat.lt_irrefl, and_false, decide_false, decide_true, if_true, Bool.false_eq_true, if_false]
    at share held
  omega

/-- An edge that is still to be decremented keeps the load of its child below its parents. -/
theorem Release.load_lt (release : Release graph events dispatch) (wellFormed : graph.WellFormed)
    (once : ∀ parent, decrements events parent child ≤ 1) (edge : graph.Edge parent child)
    (waiting : decrements events parent child = 0) : load graph events child < graph.inDegree child := by
  rw [wellFormed.inDegree_eq_sum, load]
  refine Finset.sum_lt_sum (fun other member => ?_) ⟨parent, edge.1, ?_⟩
  · split
    · exact once other
    · next apart =>
      by_contra positive
      exact apart (release.edges other child (Nat.pos_of_ne_zero fun zero => positive (by omega))).2
  · rw [waiting, if_pos edge.2]
    exact Nat.one_pos

/-- As long as every task is created once, no decrement finds a counter at zero. -/
theorem Tick.decrement_pos (tick : Tick graph events dispatch) (wellFormed : graph.WellFormed)
    (once : ∀ task, created events task ≤ 1) {old : Nat} {ready : Bool}
    (moved : SystemStep dispatch choice next (.decremented worker parent child old ready)) :
    0 < old := by
  cases moved with
  | main moved => cases moved
  | worker moved =>
      cases moved with
      | releaseReady => exact Nat.one_pos
      | releaseHeld here bound found more named loaded =>
          have reads := tick.sound.child_eq wellFormed tick.bound here bound found more named
          have built := tick.counters.built_of_holds tick.placement
            (congrArg WorkerState.task? here)
          have lower := tick.release.load_lt wellFormed
            (tick.decrements_le_one (fun task _ => once task) · child)
            ⟨reads.1, List.mem_of_getElem? reads.2.1⟩
            (tick.decrements_eq_zero (once parent) reads.1 here reads.2.1)
          have balance := tick.counters.remaining built child reads.2.2
          have small : graph.inDegree child ≤ taskGraphMaxNodesV1 := wellFormed.inDegree_le
          rw [(FixedArray.at?_eq_some_iff.mp loaded).2,
            wellFormed.parentCount_eq_inDegree reads.2.2] at balance
          have limit : taskGraphMaxNodesV1 = 256 := rfl
          omega

/-! ## Nothing is released within a phase -/

/-- No task has been released by a worker in this tick, and no worker owes an increment. -/
structure Unreleased (events : List Event) (dispatch : JobDispatch) : Prop where
  released : ∀ task, releases (currentTick events) task = 0
  counted : ∀ worker, (dispatch.workers worker).uncounted = false

/-- Nothing has been released at the start of a session. -/
theorem Unreleased.initial (rest : AtRest graph dispatch) : Unreleased [] dispatch where
  released _ := rfl
  counted worker := by
    have empty := (rest.workers worker).1
    cases state : dispatch.workers worker <;> rw [state] at empty <;> first | rfl | cases empty

/-- The runtime thread never releases a task. -/
theorem MainStep.releases_eq_false (moved : MainStep dispatch next event) (task : TaskId) :
    event.releases task = false := by
  cases moved <;> rfl

/-- A worker that offers nothing after its step has released nothing in it. -/
theorem WorkerStep.releases_eq_false (moved : WorkerStep dispatch worker next event)
    (after : (next.workers worker).offer? = none) (task : TaskId) :
    event.releases task = false := by
  cases moved with
  | releaseReady =>
      rw [workers_setWorker] at after
      cases after
  | _ => simp

/-- A worker comes to owe an increment only from a child it was about to enqueue. -/
theorem WorkerStep.uncounted_eq_false (moved : WorkerStep dispatch worker next event)
    (before : (dispatch.workers worker).offer? = none) :
    (next.workers worker).uncounted = false := by
  cases moved with
  | enqueue here =>
      rw [here] at before
      cases before
  | checkRunning | subActive =>
      rw [workers_setWorker]
      split <;> rfl
  | _ =>
      rw [workers_setWorker]
      rfl

/-- No task of the running phase is released by a step. -/
theorem Unreleased.step (unreleased : Unreleased events dispatch) (layered : graph.Layered)
    (session : Session graph events dispatch) (inPhase : InPhase graph dispatch)
    (moved : SystemStep dispatch choice next event) (notShutdown : event ≠ .calledShutdown)
    (after : Session graph (events ++ [event]) next) (inPhaseAfter : InPhase graph next) :
    Unreleased (events ++ [event]) next := by
  have quiet : ∀ task, event.releases task = false := by
    intro task
    cases moved with
    | main moved => exact moved.releases_eq_false task
    | @worker index _ _ moved =>
        exact moved.releases_eq_false
          ((inPhaseAfter.workers index).offer?_eq_none (after.tick.sound index) layered) task
    | _ => rfl
  constructor
  · intro task
    rw [currentTick_concat]
    split
    · next first =>
      rw [first]
      rfl
    · have before := unreleased.released task
      rw [releases] at before ⊢
      rw [tally_concat, quiet task, before]
      rfl
  · intro other
    cases moved with
    | main moved =>
        obtain ⟨-, -, -, -, workers⟩ :=
          moved.frame_of_inTick session.tick.schedule.main.inTick
        rw [workers]
        exact unreleased.counted other
    | @worker index _ _ moved =>
        by_cases same : other = index
        · rw [same]
          exact moved.uncounted_eq_false
            ((inPhase.workers index).offer?_eq_none (session.tick.sound index) layered)
        · rw [moved.frame.others other same]
          exact unreleased.counted other
    | _ => exact unreleased.counted other

/-- What a session of a layered graph keeps under the conditions of its barrier. -/
theorem unreleased_of_runs (wellFormed : graph.WellFormed) (layered : graph.Layered)
    (rest : AtRest graph start) (run : system.RunsUnder PhaseGuard start events finish)
    (inOrder : InPhaseOrder events) (notShutdown : .calledShutdown ∉ events) :
    Session graph events finish ∧ InPhase graph finish ∧ Unreleased events finish := by
  have every : ∀ event ∈ events, event ≠ .calledShutdown :=
    fun event member same => notShutdown (same ▸ member)
  apply session_rule (fun events dispatch => InPhase graph dispatch ∧ Unreleased events dispatch)
    wellFormed rest (run.restrict (fun event => event ≠ .calledShutdown) every)
    (fun _ _ _ _ permitted => permitted.1.1) inOrder notShutdown
  · exact ⟨.initial rest, .initial rest⟩
  · rintro events dispatch choice next event session ⟨inPhase, unreleased⟩ moved
      ⟨-, running⟩ after
    have inPhaseAfter := inPhase.step wellFormed session moved
    exact ⟨inPhaseAfter, unreleased.step layered session inPhase moved running after inPhaseAfter⟩

/-- A task of a tick in which workers release nothing is created by its one scan. -/
theorem Unreleased.created_le_one (unreleased : Unreleased events dispatch)
    (session : Session graph events dispatch) (task : TaskId) :
    created (currentTick events) task ≤ 1 := by
  by_cases member : task ∈ graph.tasks
  · have scans := session.tick.schedule.scanCount_le member
    have zero := zeroScans_le_scanCount (currentTick events) task
    rw [created, unreleased.released task]
    omega
  · by_contra more
    exact member (session.tick.placement.tasks task (by omega))

/-- Every step of a run of a layered graph meets the conditions of the phase barrier. -/
theorem guarded_of_layered (wellFormed : graph.WellFormed) (layered : graph.Layered)
    (rest : AtRest graph start) (run : system.Runs start events finish)
    (inOrder : InPhaseOrder events) (notShutdown : .calledShutdown ∉ events) :
    system.RunsUnder PhaseGuard start events finish := by
  refine run.strengthen fun {before dispatch choice next event} segment prior transition _ => ?_
  have earlier := (List.prefix_append before [event]).trans segment
  obtain ⟨session, -, unreleased⟩ := unreleased_of_runs wellFormed layered rest prior
    (inOrder.of_prefix earlier) fun member => notShutdown (earlier.subset member)
  refine ⟨?_, ?_⟩
  · unfold BarrierGuard
    split
    · exact unreleased.counted
    · trivial
  · unfold CounterGuard
    split
    · have positive := session.tick.decrement_pos wellFormed
        (unreleased.created_le_one session) (step_sound transition)
      exact absurd positive (Nat.lt_irrefl 0)
    · trivial

/-- What holds in every state of a session of a layered graph. -/
structure LayeredSession (graph : TaskGraph) (events : List Event) (dispatch : JobDispatch) :
    Prop where
  session : Session graph events dispatch
  inPhase : InPhase graph dispatch
  ready : Ready graph (currentTick events)
  stored : Stored events dispatch
  unreleased : Unreleased events dispatch

/-- What a layered session keeps holds along every run. -/
theorem layeredSession_of_runs (wellFormed : graph.WellFormed) (layered : graph.Layered)
    (rest : AtRest graph start) (run : system.Runs start events finish)
    (inOrder : InPhaseOrder events) (notShutdown : .calledShutdown ∉ events) :
    LayeredSession graph events finish := by
  have guarded := guarded_of_layered wellFormed layered rest run inOrder notShutdown
  obtain ⟨session, inPhase, ready, stored⟩ :=
    phase_invariant wellFormed rest guarded inOrder notShutdown
  obtain ⟨-, -, unreleased⟩ :=
    unreleased_of_runs wellFormed layered rest guarded inOrder notShutdown
  exact ⟨session, inPhase, ready, stored, unreleased⟩

/-! ## A tick of a layered graph -/

namespace LayeredSession

/-- Every tick creates every task at most once. -/
theorem created_le_one (kept : LayeredSession graph events dispatch) (task : TaskId) :
    created (currentTick events) task ≤ 1 :=
  kept.unreleased.created_le_one kept.session task

/-- Every parent decrements every child at most once in a tick. -/
theorem decrements_le_one (kept : LayeredSession graph events dispatch) (parent child : TaskId) :
    decrements (currentTick events) parent child ≤ 1 :=
  kept.session.tick.decrements_le_one (fun task _ => kept.created_le_one task) parent child

/-- Without duplicates the tasks of a tick fit the queue. -/
theorem fits (kept : LayeredSession graph events dispatch) (wellFormed : graph.WellFormed) :
    Fits graph (currentTick events) := by
  have none : surplus graph (currentTick events) = 0 :=
    Finset.sum_eq_zero fun task _ => Nat.sub_eq_zero_of_le (kept.created_le_one task)
  rw [Fits, none]
  exact wellFormed.card_tasks_le

/-- When the barrier opens, the tasks of this and the earlier phases have been executed once,
and no other task has been. -/
theorem begins_of_waiting (kept : LayeredSession graph events dispatch)
    (wellFormed : graph.WellFormed)
    (waiting : dispatch.main = .waitActive ∨ ∃ epoch, dispatch.main = .waitRecheck epoch)
    (zero : dispatch.activeTaskCount = 0) (member : task ∈ graph.tasks) :
    begins (currentTick events) task =
        (if (graph.phaseOf task).index ≤ dispatch.currentPhase.index then 1 else 0) ∧
      completions (currentTick events) task = begins (currentTick events) task := by
  have begun := kept.session.tick.execution.begun task
  have created := (kept.session.tick.enqueues_le task).2
  have once := kept.created_le_one task
  split
  · next reached =>
    have completed := kept.session.completed kept.ready wellFormed waiting zero
      kept.unreleased.counted member reached
    omega
  · next later =>
    have inside : dispatch.main.between = false := by
      rcases waiting with here | ⟨epoch, here⟩ <;> rw [here] <;> rfl
    have unscanned : ¬ 0 < scanCount (currentTick events) task := fun scanned =>
      later (kept.session.tick.schedule.phase_le_of_scanned wellFormed inside member scanned)
    have none := zeroScans_le_scanCount (currentTick events) task
    rw [JobDispatch.created, kept.unreleased.released task] at created
    omega

end LayeredSession

/-- In every session of a layered graph, whatever the interleaving, each tick enqueues and
executes each task at most once and no Enqueue is refused; a task begins after all of its
parents have returned and while its own phase is the one stored last; the counters are exact;
and ExecutePhase returns with nothing queued or held, having executed the tasks of its phase
and of the earlier ones exactly once and no others. -/
theorem layered_session (graph : TaskGraph) (start finish : JobDispatch) (events : List Event)
    (wellFormed : graph.WellFormed) (layered : graph.Layered) (rest : AtRest graph start)
    (run : system.Runs start events finish) (inOrder : InPhaseOrder events)
    (notShutdown : .calledShutdown ∉ events) :
    (∀ task, enqueues (currentTick events) task ≤ 1 ∧ begins (currentTick events) task ≤ 1 ∧
      .enqueued task false ∉ events) ∧
    TickOrder graph events ∧ PhaseLocal graph events ∧
    CountersExact graph (currentTick events) finish ∧
    ∀ before phase, events = before ++ [.returnedPhase phase] →
      (∀ task ∈ graph.tasks, begins (currentTick before) task =
          (if (graph.phaseOf task).index ≤ phase.index then 1 else 0) ∧
        completions (currentTick before) task = begins (currentTick before) task) ∧
      finish.readyQueue.items = [] ∧ ∀ worker, (finish.workers worker).task? = none := by
  have kept := layeredSession_of_runs wellFormed layered rest run inOrder notShutdown
  -- Every event of the run comes from a step in a state of which the invariant holds.
  have at_ : ∀ before event after, events = before ++ event :: after → ∃ state choice next,
      LayeredSession graph before state ∧ SystemStep state choice next event := by
    intro before event after split
    obtain ⟨state, choice, next, prior, transition, -⟩ := run.at_event split
    exact ⟨state, choice, next, layeredSession_of_runs wellFormed layered rest prior
      (inOrder.of_prefix (split ▸ List.prefix_append _ _))
      (fun member => notShutdown (split ▸ List.mem_append_left _ member)), step_sound transition⟩
  refine ⟨fun task => ⟨?_, ?_, ?_⟩, ?_, ?_, ?_, ?_⟩
  · exact (kept.session.tick.enqueues_le task).1.trans (kept.created_le_one task)
  · exact (kept.session.tick.enqueues_le task).2.trans (kept.created_le_one task)
  · intro refused
    obtain ⟨before, after, split⟩ := List.append_of_mem refused
    obtain ⟨state, choice, next, earlier, moved⟩ := at_ before _ after split
    exact earlier.session.not_refused (earlier.fits wellFormed) moved
  · intro before after worker child function split parent edge
    obtain ⟨state, choice, next, earlier, moved⟩ := at_ before _ after split
    exact earlier.session.tick.parents_ended wellFormed earlier.decrements_le_one moved edge
  · intro before event after task split executes
    obtain ⟨state, choice, next, earlier, moved⟩ := at_ before event after split
    obtain ⟨worker, held⟩ := held_of_executes moved executes
    exact earlier.session.lastStored_of_held earlier.inPhase earlier.stored held
  · exact kept.session.tick.countersExact wellFormed kept.decrements_le_one
  · rintro before phase rfl
    obtain ⟨state, choice, prior, transition, -⟩ := run.last
    have earlier := layeredSession_of_runs wellFormed layered rest prior
      (inOrder.of_prefix (List.prefix_append _ _))
      fun member => notShutdown (List.mem_append_left _ member)
    cases step_sound transition with
    | main moved =>
        cases moved with
        | waitDone waiting zero =>
            obtain ⟨queue, -, empty⟩ := kept.session.settled rfl
            exact ⟨fun task member => earlier.begins_of_waiting wellFormed waiting zero member,
              queue, empty⟩
    | worker moved => cases moved

end JobDispatch

/-- Tasks 0 and 1 of the input phase release task 2 of the simulation phase. -/
def TaskGraph.joinGraph : TaskGraph where
  nodes := fun index =>
    match index.val with
    | 0 => { id := 0, childCount := 1 }
    | 1 => { id := 1, dependencyOffset := 1, childCount := 1 }
    | 2 => { id := 2, phaseId := .simulation, parentCount := 2 }
    | _ => {}
  nodeCount := 3
  childTaskIds := fun _ => 2
  phaseRanges := fun phase =>
    match phase.val with
    | 0 => { begin := 0, count := 2 }
    | 1 => { begin := 2, count := 1 }
    | _ => {}
  taskIdToNodeIndex := fun index => if index.val < 3 then index.val else 0

/-- The join is well formed. -/
theorem TaskGraph.joinGraph_wellFormed : joinGraph.WellFormed where
  nodeCount_le := by decide
  id_lt := by decide
  index_of_id := by decide
  slice_le := by decide
  child_mem := by decide
  child_nodup := by decide
  parentCount_eq := by decide
  acyclic := acyclic_of_rank id (by decide)
  edge_forward := by decide
  range_le := by decide
  range_exact := by decide

/-- Its edges lead to the later phase. -/
theorem TaskGraph.joinGraph_layered : joinGraph.Layered := by
  have grows : ∀ parent ∈ joinGraph.tasks, ∀ child ∈ joinGraph.children parent,
      (joinGraph.phaseOf parent).index < (joinGraph.phaseOf child).index := by decide
  exact fun parent child edge => grows parent edge.1 child edge.2

namespace JobDispatch

/-- Two workers run the input phase side by side while the scan goes on, and one of them the
simulation phase. -/
theorem join_session : ∃ before finish,
    system.Runs (started .joinGraph .full 2) (before ++ [.returnedPhase .simulation]) finish ∧
    (∀ task ∈ TaskGraph.joinGraph.tasks, begins (currentTick before) task = 1) ∧
    TickOrder .joinGraph (before ++ [.returnedPhase .simulation]) := by
  obtain ⟨events, finish, run, oneTick, notShutdown, last⟩ := system.runs_of_exec
    (fun _ _ _ _ => True) (started .joinGraph .full 2)
    (callThen .input 10 ++ work 0 4 ++ List.replicate 4 .main ++ work 1 7 ++ work 0 3 ++
      work 1 1 ++ work 0 1 ++ [.main] ++ callThen .simulation 7 ++ work 1 7 ++ [.main])
    (fun _ events => OneTick events ∧ Event.calledShutdown ∉ events ∧
      events.getLast? = some (Event.returnedPhase .simulation))
    (by decide +kernel)
  obtain ⟨before, rfl⟩ := List.getLast?_eq_some_iff.mp last
  obtain ⟨-, order, -, -, returned⟩ := layered_session .joinGraph _ finish _
    TaskGraph.joinGraph_wellFormed TaskGraph.joinGraph_layered
    (started_atRest (TaskRegistry.validate_full TaskGraph.joinGraph_wellFormed) 2) run
    oneTick.inPhaseOrder notShutdown
  obtain ⟨executed, -, -⟩ := returned before .simulation rfl
  refine ⟨before, finish, run, fun task member => ?_, order⟩
  have early : ∀ task ∈ TaskGraph.joinGraph.tasks, (TaskGraph.joinGraph.phaseOf task).index ≤
      RuntimePhaseId.simulation.index := by decide
  rw [(executed task member).1, if_pos (early task member)]

end JobDispatch
end MmoServer.Runtime
