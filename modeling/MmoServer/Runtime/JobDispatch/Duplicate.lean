import MmoServer.Runtime.JobDispatch.Ticks

/-!
# Duplicate executions within a tick

SeedReadyQueue decides by the counter alone. While it is still scanning, the
tasks it has queued may already have been executed and have released a task
further down the range: the releasing worker queues that task, and the scan
then finds its counter at zero and queues it again. `tick_enqueues_twice` is
such a run on a chain of three tasks with a single worker, and
`tick_breaks_dependency` one in which the duplicate decrements a counter twice,
so that a task begins before one of its parents.

`ScanGuard` is the condition that excludes exactly this race. Where it holds of every
tick of a session and no tick finds work that an earlier one has left
(`RestGuard`), both properties hold for every graph, worker count and interleaving.
-/

namespace MmoServer.Runtime

open MmoServer.Std MmoServer.Semantics

namespace JobDispatch

/-- SeedReadyQueue does not find a guarded task's counter at zero after a worker
has released the task in this tick. -/
def ScanGuard (guarded : TaskId → Prop) :
    TransitionSystem.StepCondition JobDispatch Choice Event :=
  fun events _ _ event =>
    match event with
    | .scanned task 0 => guarded task → releases events task = 0
    | _ => True

instance (guarded : TaskId → Prop) [DecidablePred guarded] (events : List Event)
    (dispatch : JobDispatch) (choice : Choice) (event : Event) :
    Decidable (ScanGuard guarded events dispatch choice event) := by
  unfold ScanGuard
  split <;> infer_instance

/-- Every tick begins at rest and keeps the guard on its scans. -/
def TickGuard (guarded : TaskId → Prop) : TransitionSystem.StepCondition JobDispatch Choice Event :=
  fun events dispatch choice event =>
    RestGuard events dispatch choice event ∧
      ScanGuard guarded (currentTick events) dispatch choice event

instance (guarded : TaskId → Prop) [DecidablePred guarded] (events : List Event)
    (dispatch : JobDispatch) (choice : Choice) (event : Event) :
    Decidable (TickGuard guarded events dispatch choice event) :=
  inferInstanceAs (Decidable (_ ∧ _))

variable {graph : TaskGraph} {dispatch next start finish : JobDispatch} {events : List Event}
  {event : Event} {worker : WorkerIndex} {choice : Choice} {task parent child : TaskId}

/-- A worker releases only what nobody has created before. -/
theorem Tick.created_of_release (tick : Tick graph events dispatch)
    (wellFormed : graph.WellFormed) (moved : SystemStep dispatch choice next event)
    (released : event.releases task = true) : created events task = 0 := by
  have small := tick.counters.load_le tick.schedule tick.placement tick.release wellFormed
  cases moved with
  | main moved => cases moved <;> cases released
  | worker moved =>
      cases moved with
      | releaseReady here bound found more named loaded =>
          obtain rfl : _ = task := by simpa using released
          have reads := tick.sound.child_eq wellFormed tick.bound here bound found more named
          have built := tick.counters.built_of_holds tick.placement
            (congrArg WorkerState.task? here)
          exact (tick.counters.last_decrement (small _) wellFormed built reads.2.2 loaded).1
      | _ => simp at released
  | _ => cases released

variable {guarded : TaskId → Prop}

/-- A step under the guard creates no guarded task a second time: a release is
the first creation, and a scan that reads zero follows no release. -/
theorem Tick.created_le_one (tick : Tick graph events dispatch) (wellFormed : graph.WellFormed)
    (moved : SystemStep dispatch choice next event)
    (guard : ScanGuard guarded events dispatch choice event)
    (after : Tick graph (events ++ [event]) next) (held : guarded task)
    (once : created events task ≤ 1) : created (events ++ [event]) task ≤ 1 := by
  have total : created (events ++ [event]) task = created events task +
      (if event.zeroScans task then 1 else 0) + if event.releases task then 1 else 0 := by
    simp only [created, zeroScans, releases, tally_concat]
    omega
  by_cases released : event.releases task = true
  · have none := tick.created_of_release wellFormed moved released
    have apart : event.zeroScans task = false := by
      cases event <;> simp_all
    rw [total, none, apart, released]
    simp
  · by_cases scanned : event.zeroScans task = true
    · -- The scan is the only one of this task, and nobody has released it.
      have unreleased : releases events task = 0 := by
        cases event with
        | scanned other remaining =>
            obtain ⟨rfl, rfl⟩ : other = task ∧ remaining = 0 := by simpa using scanned
            exact guard held
        | _ => cases scanned
      have member : task ∈ graph.tasks := by
        apply after.placement.tasks task
        rw [total, scanned]
        simp only [if_true]
        omega
      have scans := after.schedule.scanCount_le member
      have zero := zeroScans_le_scanCount (events ++ [event]) task
      have unreleasedAfter : releases (events ++ [event]) task = 0 := by
        rw [releases, tally_concat, if_neg released]
        exact unreleased
      rw [created, unreleasedAfter]
      omega
    · rw [total]
      simp only [released, scanned, Bool.false_eq_true, if_false]
      exact once

/-- In every tick under the guard, every guarded task is created at most once. -/
theorem created_once (wellFormed : graph.WellFormed) (rest : AtRest graph start)
    (run : system.RunsUnder (TickGuard guarded) start events finish) (inOrder : InPhaseOrder events)
    (notShutdown : .calledShutdown ∉ events) :
    Ticks graph events finish ∧ ∀ task, guarded task → created (currentTick events) task ≤ 1 := by
  apply ticks_rule (fun events _ => ∀ task, guarded task → created (currentTick events) task ≤ 1)
    wellFormed rest run (fun _ _ _ _ permitted => permitted.1) inOrder notShutdown
  · intro task _
    exact Nat.zero_le 1
  · intro events dispatch choice next event ticks once moved guard after task held
    have tick := after.tick
    rw [currentTick_concat] at tick ⊢
    split at tick
    · next first =>
      -- The call that begins a tick creates nothing.
      rw [if_pos first, first]
      exact Nat.zero_le 1
    · next inside =>
      rw [if_neg inside]
      exact ticks.tick.created_le_one wellFormed moved guard.2 tick held (once task held)

theorem WorkerState.begun_le_holds (task : TaskId) (state : WorkerState) :
    state.begun task ≤ state.holds task := by
  cases state <;> first | exact Nat.le_refl _ | exact Nat.zero_le _

/-- A task is enqueued and executed at most as often as it is created. -/
theorem Tick.enqueues_le (tick : Tick graph events dispatch) (task : TaskId) :
    enqueues events task ≤ created events task ∧ begins events task ≤ created events task := by
  have enqueued := tick.placement.enqueued task
  have balance := tick.placement.balance task
  have begun := tick.execution.begun task
  have held : threadSum (WorkerState.begun task) dispatch.workers ≤
      threadSum (WorkerState.holds task) dispatch.workers :=
    threadSum_mono fun worker => WorkerState.begun_le_holds task _
  constructor <;> omega

/-- In a session whose ticks begin at rest and in which SeedReadyQueue never finds a
counter at zero that a worker of the same tick brought there for a task of the running
phase, every tick puts every task into the ready queue at most once and executes it at
most once. -/
theorem tick_duplicate_free (wellFormed : graph.WellFormed) (rest : AtRest graph start)
    (run : system.RunsUnder (TickGuard fun _ => True) start events finish)
    (inOrder : InPhaseOrder events) (notShutdown : .calledShutdown ∉ events) (task : TaskId) :
    enqueues (currentTick events) task ≤ 1 ∧ begins (currentTick events) task ≤ 1 := by
  obtain ⟨ticks, once⟩ := created_once wellFormed rest run inOrder notShutdown
  obtain ⟨enqueued, begun⟩ := ticks.tick.enqueues_le task
  have created := once task trivial
  omega

/-- The calls of a tick: a scan that overtakes the workers, the other three phases empty. -/
def scanFirst (scan : Nat) (workers : List Choice) : List Choice :=
  callThen .input scan ++ workers ++ [.main] ++ callThen .simulation 5 ++
    callThen .postSimulation 5 ++ callThen .output 5

/-- The chain in its second tick, each with the whole scan before the first worker step:
all three tasks have been executed once again. -/
theorem linear_duplicate_free : ∃ events finish,
    system.Runs (started .linearGraph .full 1) events finish ∧
    calledPhases events = phaseOrder ++ phaseOrder ∧
    [0, 1, 2].map (begins events) = [2, 2, 2] ∧
    ∀ task, enqueues (currentTick events) task ≤ 1 ∧ begins (currentTick events) task ≤ 1 := by
  obtain ⟨events, finish, run, called, notShutdown, executed⟩ := system.runs_of_exec
    (TickGuard fun _ => True) (started .linearGraph .full 1)
    (scanFirst 13 (work 0 29) ++ scanFirst 13 (work 0 29))
    (fun _ events => calledPhases events = phaseOrder ++ phaseOrder ∧
      Event.calledShutdown ∉ events ∧ [0, 1, 2].map (begins events) = [2, 2, 2])
    (by decide +kernel)
  exact ⟨events, finish, run.runs, called, executed, tick_duplicate_free
    TaskGraph.linearGraph_wellFormed
    (started_atRest (TaskRegistry.validate_full TaskGraph.linearGraph_wellFormed) 1) run
    (InPhaseOrder.of_two_ticks called) notShutdown⟩

/-- Without the guard it fails on a chain of three tasks with one worker: the
worker executes task 0 and releases task 1 before the scan reaches task 1. -/
theorem tick_enqueues_twice : ¬ ∀ (graph : TaskGraph) (start finish : JobDispatch)
    (events : List Event) (task : TaskId), graph.WellFormed → AtRest graph start →
    system.Runs start events finish → InPhaseOrder events → .calledShutdown ∉ events →
    enqueues (currentTick events) task ≤ 1 ∧ begins (currentTick events) task ≤ 1 := by
  intro claim
  obtain ⟨events, finish, run, oneTick, notShutdown, twice, executedTwice⟩ := system.runs_of_exec
    (fun _ _ _ _ => True) (started .linearGraph .full 1)
    (callThen .input 10 ++ work 0 7 ++ List.replicate 3 .main ++ work 0 16)
    (fun _ events => OneTick events ∧ Event.calledShutdown ∉ events ∧
      enqueues (currentTick events) 1 = 2 ∧ begins (currentTick events) 1 = 2)
    (by decide +kernel)
  have once := claim .linearGraph _ finish events 1 TaskGraph.linearGraph_wellFormed
    (started_atRest (TaskRegistry.validate_full TaskGraph.linearGraph_wellFormed) 1) run
    oneTick.inPhaseOrder notShutdown
  omega

/-! ## Dependency order -/

/-- The parents that have decremented a task in this tick. -/
def decrementers (graph : TaskGraph) (events : List Event) (child : TaskId) : Finset TaskId :=
  graph.tasks.filter fun parent => 0 < decrements events parent child

/-- In every tick, no execution begins before one of every parent has returned. -/
def TickOrder (graph : TaskGraph) (events : List Event) : Prop :=
  ∀ before after worker child function,
    events = before ++ .beganTask worker child function :: after →
    ∀ parent, graph.Edge parent child → 0 < ends (currentTick before) parent

/-- A counter is its parent count less the parents that have decremented it. -/
def CountersExact (graph : TaskGraph) (events : List Event) (dispatch : JobDispatch) : Prop :=
  Built events → ∀ child ∈ graph.tasks, dispatch.remainingDependencies.peek child +
    (decrementers graph events child).card = (graph.nodeOf child).parentCount

/-- A parent that decrements each child at most once is one decrementer for
each unit of load. -/
theorem load_eq_card (once : ∀ parent ∈ graph.tasks, decrements events parent child ≤ 1) :
    load graph events child = (decrementers graph events child).card := by
  rw [load, decrementers, Finset.card_filter]
  apply Finset.sum_congr rfl
  intro parent member
  have few := once parent member
  split <;> omega

/-- The parents of a task, of which only some have decremented it. -/
theorem card_decrementers_le (release : Release graph events dispatch)
    (wellFormed : graph.WellFormed) (child : TaskId) :
    (decrementers graph events child).card ≤ graph.inDegree child := by
  rw [wellFormed.inDegree_eq_sum, decrementers, Finset.card_filter]
  apply Finset.sum_le_sum
  intro parent member
  by_cases positive : 0 < decrements events parent child
  · rw [if_pos positive, if_pos (release.edges parent child positive).2]
  · rw [if_neg positive]
    exact Nat.zero_le _

theorem WorkerState.passes_le_ended (parent : TaskId) (position : Nat) (state : WorkerState) :
    state.passes parent position ≤ state.ended parent := by
  cases state <;>
    simp only [WorkerState.passes, WorkerState.passed, WorkerState.ended, WorkerState.ended?,
      WorkerState.task?, Option.some.injEq, decide_eq_true_eq]
  all_goals split_ifs <;> simp_all

/-- A parent has returned before it decrements a child. -/
theorem Tick.decrements_le_ends (tick : Tick graph events dispatch) (parent child : TaskId) :
    decrements events parent child ≤ ends events parent := by
  rcases Nat.eq_zero_or_pos (decrements events parent child) with none | positive
  · omega
  · obtain ⟨member, edge⟩ := tick.release.edges parent child positive
    obtain ⟨position, named⟩ := List.mem_iff_getElem?.mp edge
    have passed := tick.release.passed parent member position child named
    have ended := tick.execution.ended parent
    have held : threadSum (WorkerState.passes parent position) dispatch.workers ≤
        threadSum (WorkerState.ended parent) dispatch.workers :=
      threadSum_mono fun worker => WorkerState.passes_le_ended parent position _
    omega

/-- The guard for tasks with children: each of them decrements its children once. -/
abbrev HasChildren (graph : TaskGraph) (task : TaskId) : Prop := 0 < (graph.nodeOf task).childCount

theorem Tick.decrements_le_one (tick : Tick graph events dispatch)
    (once : ∀ task, HasChildren graph task → created events task ≤ 1) (parent child : TaskId) :
    decrements events parent child ≤ 1 := by
  rcases Nat.eq_zero_or_pos (decrements events parent child) with none | positive
  · omega
  · have edge := (tick.release.edges parent child positive).2
    have some : HasChildren graph parent := by
      rw [HasChildren, ← TaskGraph.length_children]
      exact List.length_pos_of_mem edge
    exact Nat.le_trans (tick.release.decrements_le tick.placement parent child) (once parent some)

/-- With one decrement for each edge the counters are exact. -/
theorem Tick.countersExact (tick : Tick graph events dispatch) (wellFormed : graph.WellFormed)
    (once : ∀ parent child, decrements events parent child ≤ 1) :
    CountersExact graph events dispatch := by
  intro built child member
  have balance := tick.counters.remaining built child member
  have few := card_decrementers_le tick.release wellFormed child
  have parents := wellFormed.parentCount_le member
  rw [load_eq_card fun parent _ => once parent child] at balance
  rw [wellFormed.parentCount_eq_inDegree member] at balance parents ⊢
  omega

/-- A task that has been created has been decremented by all of its parents. -/
theorem Tick.decremented_of_created (tick : Tick graph events dispatch)
    (wellFormed : graph.WellFormed) (once : ∀ parent child, decrements events parent child ≤ 1)
    (positive : 0 < created events child) (edge : graph.Edge parent child) :
    0 < decrements events parent child := by
  have readied := tick.counters.readied child positive
  have member := tick.placement.tasks child positive
  rw [load_eq_card fun parent _ => once parent child,
    wellFormed.parentCount_eq_inDegree member] at readied
  have all : decrementers graph events child =
      graph.tasks.filter fun parent => child ∈ graph.children parent := by
    apply Finset.eq_of_subset_of_card_le
    · intro other within
      rw [decrementers, Finset.mem_filter] at within
      exact Finset.mem_filter.mpr ⟨within.1, (tick.release.edges other child within.2).2⟩
    · rwa [wellFormed.inDegree_eq_sum, ← Finset.card_filter] at readied
  have within : parent ∈ decrementers graph events child := by
    rw [all]
    exact Finset.mem_filter.mpr edge
  exact (Finset.mem_filter.mp within).2

/-- Whoever begins a task holds it. -/
theorem held_of_begins (moved : SystemStep dispatch choice next event) {function}
    (began : event = .beganTask worker task function) :
    ∃ other, dispatch.workers other = .execute task := by
  cases moved with
  | main moved => cases moved <;> cases began
  | worker moved =>
      cases moved with
      | execute here =>
          cases began
          exact ⟨_, here⟩
      | _ => cases began
  | _ => cases began

/-- The parents of a task that begins have returned. -/
theorem Tick.parents_ended (tick : Tick graph events dispatch) (wellFormed : graph.WellFormed)
    (once : ∀ parent child, decrements events parent child ≤ 1) {function : Option TaskFunction}
    (moved : SystemStep dispatch choice next (.beganTask worker child function))
    (edge : graph.Edge parent child) : 0 < ends events parent := by
  obtain ⟨holder, here⟩ := held_of_begins moved rfl
  have balance := tick.placement.balance child
  have held := weight_le_threadSum (WorkerState.holds child) dispatch.workers holder
  rw [here, WorkerState.holds, WorkerState.task?, if_pos rfl] at held
  have decremented := tick.decremented_of_created wellFormed once (by omega) edge
  exact Nat.lt_of_lt_of_le decremented (tick.decrements_le_ends parent child)

/-- In a session whose ticks begin at rest and in which SeedReadyQueue never finds at zero
the counter of a task with children that a worker of the same tick has already released,
every tick begins a task only after every parent has returned, and in every state after
BuildRuntimeState each counter is the parent count less the number of parents that have
decremented it. -/
theorem tick_dependency_order (wellFormed : graph.WellFormed) (rest : AtRest graph start)
    (run : system.RunsUnder (TickGuard (HasChildren graph)) start events finish)
    (inOrder : InPhaseOrder events) (notShutdown : .calledShutdown ∉ events) :
    TickOrder graph events ∧ CountersExact graph (currentTick events) finish := by
  constructor
  · intro before after worker child function split parent edge
    obtain ⟨state, choice, next, prior, transition, -, -⟩ := run.at_event split
    obtain ⟨ticks, once⟩ := created_once wellFormed rest prior
      (inOrder.of_prefix (split ▸ List.prefix_append _ _))
      (fun member => notShutdown (split ▸ List.mem_append_left _ member))
    exact ticks.tick.parents_ended wellFormed (ticks.tick.decrements_le_one once)
      (step_sound transition) edge
  · obtain ⟨ticks, once⟩ := created_once wellFormed rest run inOrder notShutdown
    exact ticks.tick.countersExact wellFormed (ticks.tick.decrements_le_one once)

/-- Two ticks of the diamond, each with the whole scan before the first worker step. -/
theorem diamond_dependency_order : ∃ events finish,
    system.Runs (started .diamondGraph .full 2) events finish ∧ begins events 3 = 2 ∧
    TickOrder .diamondGraph events ∧ CountersExact .diamondGraph (currentTick events) finish := by
  obtain ⟨events, finish, run, called, notShutdown, executed⟩ := system.runs_of_exec
    (TickGuard (HasChildren .diamondGraph)) (started .diamondGraph .full 2)
    (scanFirst 15 (work 0 13 ++ work 1 18 ++ work 0 30) ++
      scanFirst 15 (work 0 13 ++ work 1 18 ++ work 0 30))
    (fun _ events => calledPhases events = phaseOrder ++ phaseOrder ∧
      Event.calledShutdown ∉ events ∧ begins events 3 = 2)
    (by decide +kernel)
  exact ⟨events, finish, run.runs, executed, tick_dependency_order
    TaskGraph.diamondGraph_wellFormed
    (started_atRest (TaskRegistry.validate_full TaskGraph.diamondGraph_wellFormed) 2) run
    (InPhaseOrder.of_two_ticks called) notShutdown⟩

/-- Without the guard it fails on the diamond with two workers: task 1 is queued
by the worker that runs task 0 and again by the scan, its two executions
decrement task 3 twice, and task 3 begins while task 2 is still waiting. -/
theorem tick_breaks_dependency : ¬ ∀ (graph : TaskGraph) (start finish : JobDispatch)
    (events : List Event), graph.WellFormed → AtRest graph start →
    system.Runs start events finish → InPhaseOrder events → .calledShutdown ∉ events →
    TickOrder graph events ∧ CountersExact graph (currentTick events) finish := by
  intro claim
  obtain ⟨events, finish, run, oneTick, notShutdown, last, waiting⟩ := system.runs_of_exec
    (fun _ _ _ _ => True) (started .diamondGraph .full 2)
    (callThen .input 11 ++ work 0 7 ++ List.replicate 3 .main ++ work 1 21)
    (fun _ events => OneTick events ∧ Event.calledShutdown ∉ events ∧
      events.getLast? = some (Event.beganTask 1 3 (some ⟨0⟩)) ∧
      ends (currentTick events.dropLast) 2 = 0)
    (by decide +kernel)
  obtain ⟨order, -⟩ := claim .diamondGraph _ finish events TaskGraph.diamondGraph_wellFormed
    (started_atRest (TaskRegistry.validate_full TaskGraph.diamondGraph_wellFormed) 2) run
    oneTick.inPhaseOrder notShutdown
  obtain ⟨before, rfl⟩ := List.getLast?_eq_some_iff.mp last
  have returned := order before [] 1 3 (some ⟨0⟩) rfl 2 (by unfold TaskGraph.Edge; decide)
  rw [List.dropLast_concat] at waiting
  omega

end JobDispatch
end MmoServer.Runtime
