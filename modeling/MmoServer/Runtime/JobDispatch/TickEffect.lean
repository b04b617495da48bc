import MmoServer.Runtime.JobDispatch.Layered
import MmoServer.Std.LinearExtension

/-!
# A parallel tick has the effect of the sequential one

The workers return from the tasks of a phase in any order, but a layered graph keeps the
phases apart. When tasks of one phase commute, whatever a session's threads do has the
effect of executing the tasks one after the other in the order in which SeedReadyQueue scans
them, tick after tick (`session_effect`).
-/

namespace MmoServer.Runtime

open MmoServer.Std MmoServer.Semantics

/-! ## The order of the scan -/

/-- The tasks in the order in which the scans of a tick meet them, up to a phase. -/
def TaskGraph.scanOrder (graph : TaskGraph) (last : RuntimePhaseId) : List TaskId :=
  (phaseOrder.take (last.index + 1)).flatMap fun phase =>
    (List.range (graph.phaseRange phase).count).map fun position =>
      (graph.node ((graph.phaseRange phase).begin + position)).id

/-- The phases up to the last one. -/
theorem mem_phaseOrder_take (phase last : RuntimePhaseId) :
    phase ∈ phaseOrder.take (last.index + 1) ↔ phase.index ≤ last.index := by
  revert phase last
  decide

/-- They are in ascending order. -/
theorem phaseOrder_take_sorted (last : RuntimePhaseId) :
    (phaseOrder.take (last.index + 1)).Pairwise fun earlier later =>
      earlier.index < later.index := by
  revert last
  decide

namespace TaskGraph.WellFormed

variable {graph : TaskGraph} {last : RuntimePhaseId} {task : TaskId}
  (wellFormed : graph.WellFormed)

include wellFormed

/-- The scans up to the last phase reach the tasks of these phases. -/
theorem mem_scanOrder :
    task ∈ graph.scanOrder last ↔ task ∈ graph.tasks ∧ (graph.phaseOf task).index ≤ last.index := by
  simp only [scanOrder, List.mem_flatMap, mem_phaseOrder_take, List.mem_map, List.mem_range]
  constructor
  · rintro ⟨phase, early, position, inside, rfl⟩
    refine ⟨mem_tasks_iff.mpr ⟨_, (wellFormed.node_of_range inside).1, rfl⟩, ?_⟩
    rw [(wellFormed.task_of_range inside).1]
    exact early
  · rintro ⟨member, early⟩
    obtain ⟨position, inside, same⟩ := wellFormed.range_of_task member
    exact ⟨graph.phaseOf task, early, position, inside, same⟩

/-- The scans meet the tasks in the order of their ranks. -/
theorem scanOrder_ranked (last : RuntimePhaseId) :
    (graph.scanOrder last).Pairwise fun earlier later => graph.rank earlier < graph.rank later := by
  refine List.pairwise_flatMap.mpr ⟨fun phase _ => ?_, ?_⟩
  · refine List.pairwise_map.mpr (List.Pairwise.imp_of_mem ?_ List.pairwise_lt_range)
    intro position other member memberOther inOrder
    rw [(wellFormed.task_of_range (List.mem_range.mp member)).2,
      (wellFormed.task_of_range (List.mem_range.mp memberOther)).2]
    exact Nat.add_lt_add_left inOrder _
  · refine (phaseOrder_take_sorted last).imp fun {phase other} inOrder earlier member later
      memberLater => ?_
    obtain ⟨position, inside, rfl⟩ := List.mem_map.mp member
    obtain ⟨place, within, rfl⟩ := List.mem_map.mp memberLater
    rw [List.mem_range] at inside within
    rw [(wellFormed.task_of_range inside).2, (wellFormed.task_of_range within).2]
    have small := wellFormed.range_count_le phase
    have apart := Nat.mul_le_mul_right taskGraphMaxNodesV1 (Nat.succ_le_of_lt inOrder)
    rw [Nat.succ_mul] at apart
    omega

/-- No task is scanned twice. -/
theorem scanOrder_nodup (last : RuntimePhaseId) : (graph.scanOrder last).Nodup :=
  (wellFormed.scanOrder_ranked last).imp fun inOrder same => by
    rw [same] at inOrder
    exact Nat.lt_irrefl _ inOrder

/-- The tasks of an earlier phase are scanned earlier. -/
theorem scanOrder_sorted (last : RuntimePhaseId) : (graph.scanOrder last).Pairwise
    fun earlier later => (graph.phaseOf earlier).index ≤ (graph.phaseOf later).index := by
  refine (wellFormed.scanOrder_ranked last).imp_of_mem fun {earlier later} first second inOrder => ?_
  obtain ⟨place, -, ranked, -⟩ := wellFormed.rank_eq (wellFormed.mem_scanOrder.mp first).1
  have below := wellFormed.rank_lt_of_phase (wellFormed.mem_scanOrder.mp second).1
  have limit : taskGraphMaxNodesV1 = 256 := rfl
  rw [limit] at ranked below
  omega

end TaskGraph.WellFormed

/-- The task whose execution has returned. -/
def Event.ended? : Event → Option TaskId
  | .endedTask _ task => some task
  | _ => none

/-- The runtime thread is inside a call of ExecutePhase. -/
def MainState.pending : MainState → Nat
  | .idle => 0
  | _ => 1

theorem MainState.pending_le (state : MainState) : state.pending ≤ 1 := by
  cases state <;> simp [MainState.pending]

/-- A worker has ended only what it holds. -/
theorem WorkerState.ended_le_holds (task : TaskId) (state : WorkerState) :
    state.ended task ≤ state.holds task := by
  cases state <;> simp [ended, holds, ended?, task?]

namespace JobDispatch

/-- The tasks whose executions have returned, in the order in which they have. -/
def endedTasks (events : List Event) : List TaskId := events.filterMap Event.ended?

/-- The number of ticks begun. -/
def ticks (events : List Event) : Nat := tally (fun event => event = .calledPhase .input) events

variable {graph : TaskGraph} {dispatch next start finish : JobDispatch} {events : List Event}
  {event : Event} {worker : WorkerIndex} {choice : Choice} {task : TaskId}
  {phase : RuntimePhaseId}

/-- A task occurs as often as it has ended. -/
theorem count_endedTasks (events : List Event) (task : TaskId) :
    (endedTasks events).count task = ends events task := by
  rw [endedTasks, List.count, ← tally, tally_filterMap, ends]
  intro event
  cases event with
  | endedTask worker other => exact beq_eq_decide ..
  | _ => rfl

theorem endedTasks_concat (events : List Event) (event : Event) :
    endedTasks (events ++ [event]) = endedTasks events ++ event.ended?.toList :=
  filterMap_concat ..

/-- What has ended has ended. -/
theorem ends_le_concat (events : List Event) (event : Event) (task : TaskId) :
    ends events task ≤ ends (events ++ [event]) task := by
  rw [ends, ends, tally_concat]
  exact Nat.le_add_right ..

/-- While a phase runs, it is the one called last. -/
theorem Schedule.calls_eq (schedule : Schedule graph events dispatch)
    (inside : dispatch.main.between = false) : calls events = dispatch.currentPhase.index + 1 := by
  have ok := schedule.main
  rw [MainOk] at ok
  cases here : dispatch.main <;> rw [here] at ok inside <;> first | exact ok.elim | cases inside
  case seed | seedEnqueue | seedAdd =>
    rw [ok.1.1]
    exact ok.1.2.1
  all_goals exact ok.1

/-- A worker holds a task only while its phase runs. -/
theorem LayeredSession.phase_of_held (kept : LayeredSession graph events dispatch)
    (held : (dispatch.workers worker).task? = some task) :
    calls (currentTick events) = (graph.phaseOf task).index + 1 := by
  have inside : dispatch.main.between = false := by
    by_contra between
    have none := (kept.session.settled (Bool.not_eq_false _ ▸ between)).2.2 worker
    rw [held] at none
    cases none
  rw [kept.session.tick.schedule.calls_eq inside, (kept.inPhase.workers worker).held task held]

/-! ## The order of a tick -/

/-- The executions of a tick return phase after phase, and a phase whose call has returned
is complete. -/
structure PhaseAfterPhase (graph : TaskGraph) (events : List Event) (dispatch : JobDispatch) :
    Prop where
  sorted : (endedTasks (currentTick events)).Pairwise fun earlier later =>
    (graph.phaseOf earlier).index ≤ (graph.phaseOf later).index
  reached : ∀ task ∈ endedTasks (currentTick events),
    task ∈ graph.tasks ∧ (graph.phaseOf task).index < calls (currentTick events)
  finished : ∀ task ∈ graph.tasks,
    (graph.phaseOf task).index + dispatch.main.pending < calls (currentTick events) →
      0 < ends (currentTick events) task

/-- No execution returns, no phase is called, and no call returns. -/
theorem PhaseAfterPhase.keep (order : PhaseAfterPhase graph events dispatch)
    (noCall : event.calledPhase? = none) (noEnd : event.ended? = none)
    (pending : dispatch.main.pending ≤ next.main.pending) :
    PhaseAfterPhase graph (events ++ [event]) next := by
  have tick : currentTick (events ++ [event]) = currentTick events ++ [event] := by
    rw [currentTick_concat, if_neg]
    rintro rfl
    cases noCall
  have called : calls (currentTick events ++ [event]) = calls (currentTick events) := by
    rw [calls_concat, noCall]
    rfl
  have ended : endedTasks (currentTick events ++ [event]) = endedTasks (currentTick events) := by
    rw [endedTasks_concat, noEnd]
    exact List.append_nil _
  constructor
  · rw [tick, ended]
    exact order.sorted
  · rw [tick, ended, called]
    exact order.reached
  · intro task member early
    rw [tick, called] at early
    rw [tick]
    exact (order.finished task member (by omega)).trans_le (ends_le_concat ..)

/-- An execution returns in the phase that runs. -/
theorem PhaseAfterPhase.ended (order : PhaseAfterPhase graph events dispatch)
    (member : task ∈ graph.tasks)
    (current : calls (currentTick events) = (graph.phaseOf task).index + 1)
    (main : next.main = dispatch.main) :
    PhaseAfterPhase graph (events ++ [.endedTask worker task]) next := by
  have tick : currentTick (events ++ [.endedTask worker task]) =
      currentTick events ++ [.endedTask worker task] := by
    rw [currentTick_concat, if_neg nofun]
  have called : calls (currentTick events ++ [.endedTask worker task]) =
      calls (currentTick events) := calls_concat ..
  have ended : endedTasks (currentTick events ++ [.endedTask worker task]) =
      endedTasks (currentTick events) ++ [task] := endedTasks_concat ..
  constructor
  · rw [tick, ended]
    refine List.pairwise_append.mpr ⟨order.sorted, List.pairwise_singleton .., ?_⟩
    intro earlier before later last
    have reached := (order.reached earlier before).2
    rw [List.mem_singleton.mp last]
    omega
  · intro other returned
    rw [tick, ended] at returned
    rw [tick, called]
    rcases List.mem_append.mp returned with before | last
    · exact order.reached other before
    · rw [List.mem_singleton.mp last]
      exact ⟨member, by omega⟩
  · intro other memberOther early
    rw [tick, called, main] at early
    rw [tick]
    exact (order.finished other memberOther early).trans_le (ends_le_concat ..)

/-- The next phase is called when all that was called before is complete. -/
theorem PhaseAfterPhase.called (order : PhaseAfterPhase graph events dispatch)
    (idle : dispatch.main = .idle) : PhaseAfterPhase graph (events ++ [.calledPhase phase])
      (dispatch.setMain (.loadRunning phase)) := by
  have one : (dispatch.setMain (.loadRunning phase)).main.pending = 1 := rfl
  by_cases first : phase = .input
  · have tick : currentTick (events ++ [.calledPhase phase]) = [.calledPhase .input] := by
      rw [currentTick_concat, first, if_pos rfl]
    have called : calls [.calledPhase .input] = 1 := rfl
    constructor
    · rw [tick]
      exact List.Pairwise.nil
    · rw [tick]
      exact nofun
    · intro task _ early
      rw [tick, called, one] at early
      omega
  · have tick : currentTick (events ++ [.calledPhase phase]) =
        currentTick events ++ [.calledPhase phase] := by
      rw [currentTick_concat, if_neg]
      rintro ⟨⟩
      exact first rfl
    have called : calls (currentTick events ++ [.calledPhase phase]) =
        calls (currentTick events) + 1 := calls_concat ..
    have ended : endedTasks (currentTick events ++ [.calledPhase phase]) =
        endedTasks (currentTick events) := (endedTasks_concat ..).trans (List.append_nil _)
    constructor
    · rw [tick, ended]
      exact order.sorted
    · intro task returned
      rw [tick, ended] at returned
      rw [tick, called]
      exact ⟨(order.reached task returned).1, Nat.lt_succ_of_lt (order.reached task returned).2⟩
    · intro task member early
      rw [tick, called, one] at early
      rw [tick]
      refine (order.finished task member ?_).trans_le (ends_le_concat ..)
      rw [idle, MainState.pending]
      omega

/-- ExecutePhase returns when its phase and the earlier ones are complete. -/
theorem PhaseAfterPhase.returned (order : PhaseAfterPhase graph events dispatch)
    (kept : LayeredSession graph events dispatch) (wellFormed : graph.WellFormed)
    (waiting : dispatch.main = .waitActive ∨ ∃ epoch, dispatch.main = .waitRecheck epoch)
    (zero : dispatch.activeTaskCount = 0) :
    PhaseAfterPhase graph (events ++ [.returnedPhase dispatch.currentPhase])
      (dispatch.setMain .idle) := by
  have inside : dispatch.main.between = false := by
    rcases waiting with here | ⟨epoch, here⟩ <;> rw [here] <;> rfl
  have tick : currentTick (events ++ [.returnedPhase dispatch.currentPhase]) =
      currentTick events ++ [.returnedPhase dispatch.currentPhase] := by
    rw [currentTick_concat, if_neg nofun]
  have called : calls (currentTick events ++ [.returnedPhase dispatch.currentPhase]) =
      calls (currentTick events) := calls_concat ..
  have ended : endedTasks (currentTick events ++ [.returnedPhase dispatch.currentPhase]) =
      endedTasks (currentTick events) := (endedTasks_concat ..).trans (List.append_nil _)
  constructor
  · rw [tick, ended]
    exact order.sorted
  · rw [tick, ended, called]
    exact order.reached
  · intro task member early
    rw [tick, called, kept.session.tick.schedule.calls_eq inside] at early
    obtain ⟨once, completed⟩ := kept.begins_of_waiting wellFormed waiting zero member
    rw [if_pos (by simp only [setMain, MainState.pending] at early; omega)] at once
    have balance := kept.session.tick.execution.ended task
    rw [tick]
    exact Nat.lt_of_lt_of_le (by omega) (ends_le_concat ..)

/-- Every step keeps the phases one after the other. -/
theorem PhaseAfterPhase.step (order : PhaseAfterPhase graph events dispatch)
    (kept : LayeredSession graph events dispatch) (wellFormed : graph.WellFormed)
    (moved : SystemStep dispatch choice next event) :
    PhaseAfterPhase graph (events ++ [event]) next := by
  have running := kept.session.tick.running
  have inTick := kept.session.tick.schedule.main.inTick
  cases moved with
  | initializeRefused => exact order.keep rfl rfl (Nat.le_refl _)
  | initializeFault _ stopped | initializeBound _ stopped | ignoredShutdown _ stopped =>
      exact absurd (running.symm.trans stopped) nofun
  | calledPhase idle => exact order.called idle
  | calledShutdown => exact order.keep rfl rfl dispatch.main.pending_le
  | threadFailure here =>
      rw [here] at inTick
      cases inTick
  | main moved =>
      cases moved with
      | waitDone waiting zero => exact order.returned kept wellFormed waiting zero
      | loadRunningRefused here stopped => exact absurd (running.symm.trans stopped) nofun
      | storePhase | seed =>
          refine order.keep rfl rfl (dispatch.main.pending_le.trans ?_)
          simp only [setMain]
          split <;> exact Nat.le_refl _
      | loadRunning | build | buildDone | buildFault | loadSeedPhase | seedDone | seedFault
      | seedEnqueue | seedAdd | waitBusy | waitEpoch | waitRecheck | waitReturned =>
          exact order.keep rfl rfl dispatch.main.pending_le
      | startPoolRefused here | startPool here | startWorker here | startWorkerFault here
      | startedWorkers here | storeRunning here | stopPool here | joinSkip here | join here
      | joinFault here | joined here | clearActive here | clearEpoch here | clearPhase here
      | clearCounters here | cleared here =>
          rw [here] at inTick
          cases inTick
  | @worker index _ _ moved =>
      have frame := moved.frame
      have sound := kept.session.tick.sound index
      cases moved with
      | executing here =>
          rw [here] at sound
          exact order.ended sound (kept.phase_of_held (congrArg WorkerState.task? here)) frame.main
      | _ => exact order.keep rfl rfl (by rw [frame.main])

/-- Nothing has been executed at the start of a session. -/
theorem PhaseAfterPhase.initial (rest : AtRest graph dispatch) :
    PhaseAfterPhase graph [] dispatch where
  sorted := List.Pairwise.nil
  reached := nofun
  finished task _ early := by
    rw [rest.idle] at early
    exact absurd early (Nat.not_lt_zero _)

/-- Once the calls up to a phase have returned, what has ended are the tasks up to it. -/
theorem PhaseAfterPhase.perm (order : PhaseAfterPhase graph events dispatch)
    (kept : LayeredSession graph events dispatch) (wellFormed : graph.WellFormed)
    (idle : dispatch.main = .idle) (called : calls (currentTick events) = phase.index + 1) :
    (endedTasks (currentTick events)).Perm (graph.scanOrder phase) := by
  have once : (endedTasks (currentTick events)).Nodup := by
    refine List.nodup_iff_count_le_one.mpr fun task => ?_
    have ended := kept.session.tick.execution.ended task
    have balance := kept.session.tick.placement.balance task
    have created := kept.created_le_one task
    have below : threadSum (WorkerState.ended task) dispatch.workers ≤
        threadSum (WorkerState.holds task) dispatch.workers :=
      threadSum_mono fun _ => WorkerState.ended_le_holds task _
    rw [count_endedTasks]
    omega
  refine (List.perm_ext_iff_of_nodup once (wellFormed.scanOrder_nodup phase)).mpr fun task => ?_
  rw [wellFormed.mem_scanOrder]
  constructor
  · intro returned
    have reached := order.reached task returned
    exact ⟨reached.1, by omega⟩
  · rintro ⟨member, early⟩
    rw [← List.count_pos_iff, count_endedTasks]
    refine order.finished task member ?_
    rw [idle, MainState.pending]
    omega

/-! ## The effect of a session -/

section Effect

variable {World : Type} (effect : World → TaskId → World)

/-- Tasks of one phase can be executed in either order. -/
def PhaseCommutes (graph : TaskGraph) : Prop :=
  ∀ earlier ∈ graph.tasks, ∀ later ∈ graph.tasks, graph.phaseOf earlier = graph.phaseOf later →
    ∀ world, effect (effect world earlier) later = effect (effect world later) earlier

/-- The tasks up to a phase, one after the other. -/
def sequential (graph : TaskGraph) (last : RuntimePhaseId) (world : World) : World :=
  (graph.scanOrder last).foldl effect world

variable {effect}

/-- What has ended by the return of a phase has the effect of the sequential execution. -/
theorem PhaseAfterPhase.foldl_ended (order : PhaseAfterPhase graph events dispatch)
    (kept : LayeredSession graph events dispatch) (wellFormed : graph.WellFormed)
    (commutes : PhaseCommutes effect graph) (idle : dispatch.main = .idle)
    (called : calls (currentTick events) = phase.index + 1) (world : World) :
    (endedTasks (currentTick events)).foldl effect world = sequential effect graph phase world := by
  refine foldl_eq_of_respects (order.perm kept wellFormed idle called)
    (respects_of_sorted order.sorted) (respects_of_sorted (wellFormed.scanOrder_sorted phase)) ?_
    world
  intro earlier member later memberLater forward backward
  exact commutes earlier (order.reached earlier member).1 later (order.reached later memberLater).1
    (RuntimePhaseId.index_injective (by omega))

/-- The ticks before the current one have had the effect of as many sequential ticks. -/
structure TicksApplied (effect : World → TaskId → World) (graph : TaskGraph) (events : List Event) :
    Prop where
  begun : 0 < calls (currentTick events) ↔ 0 < ticks events
  applied : ∀ world, (endedTasks events).foldl effect world =
    (endedTasks (currentTick events)).foldl effect
      ((sequential effect graph .output)^[ticks events - 1] world)

/-- No tick has been applied at the start of a session. -/
theorem TicksApplied.initial : TicksApplied effect graph [] where
  begun := Iff.rfl
  applied _ := rfl

/-- Every step keeps the earlier ticks applied. -/
theorem TicksApplied.step (ticked : TicksApplied effect graph events)
    (order : PhaseAfterPhase graph events dispatch) (kept : LayeredSession graph events dispatch)
    (wellFormed : graph.WellFormed) (commutes : PhaseCommutes effect graph)
    (moved : SystemStep dispatch choice next event)
    (inOrder : ∀ phase, event = .calledPhase phase → phase.index = calls events % 4) :
    TicksApplied effect graph (events ++ [event]) := by
  by_cases first : event = .calledPhase .input
  · subst first
    have idle : dispatch.main = .idle := by
      cases moved with
      | calledPhase idle => exact idle
      | main moved => cases moved
      | worker moved => cases moved
    have tick : currentTick (events ++ [.calledPhase .input]) = [.calledPhase .input] := by
      rw [currentTick_concat, if_pos rfl]
    have more : ticks (events ++ [.calledPhase .input]) = ticks events + 1 := by
      rw [ticks, tally_concat, ticks]
      rfl
    have ended : endedTasks (events ++ [.calledPhase .input]) = endedTasks events :=
      (endedTasks_concat ..).trans (List.append_nil _)
    refine ⟨by rw [tick, more]; exact ⟨fun _ => Nat.succ_pos _, fun _ => Nat.one_pos⟩, ?_⟩
    intro world
    rw [tick, more, ended, ticked.applied, Nat.add_sub_cancel]
    have aligned := inOrder .input rfl
    obtain ⟨few, same⟩ := kept.session.called
    have ok := kept.session.tick.schedule.main
    rw [MainOk, idle] at ok
    rcases ok with ⟨none, -⟩ | ⟨called, -⟩
    -- The first tick of the session.
    · have unbegun : ticks events = 0 := by
        have begun := ticked.begun
        omega
      have empty : endedTasks (currentTick events) = [] := by
        refine List.eq_nil_iff_forall_not_mem.mpr fun task returned => ?_
        have reached := (order.reached task returned).2
        omega
      rw [unbegun, empty]
      rfl
    -- The tick before is complete.
    · have positive : 0 < ticks events := ticked.begun.mp (by omega)
      have zero : RuntimePhaseId.input.index = 0 := rfl
      have last : calls (currentTick events) = RuntimePhaseId.output.index + 1 := by
        have four : RuntimePhaseId.output.index = 3 := rfl
        omega
      rw [order.foldl_ended kept wellFormed commutes idle last,
        ← Function.iterate_succ_apply' (sequential effect graph .output), Nat.succ_eq_add_one,
        Nat.sub_add_cancel positive]
      rfl
  · have tick : currentTick (events ++ [event]) = currentTick events ++ [event] := by
      rw [currentTick_concat, if_neg first]
    have same : ticks (events ++ [event]) = ticks events := by
      rw [ticks, tally_concat, decide_eq_false first]
      rfl
    constructor
    · rw [tick, same, calls_concat]
      cases shown : event.calledPhase? with
      | none => exact ticked.begun
      | some phase =>
          obtain rfl : event = .calledPhase phase := by
            cases event <;> cases shown
            rfl
          have later : phase ≠ .input := by
            rintro rfl
            exact first rfl
          have next_ := (kept.session.ticks.next_call (inOrder phase rfl) later).1
          have positive := mt RuntimePhaseId.index_eq_zero.mp later
          exact ⟨fun _ => ticked.begun.mp (by omega), fun _ => Nat.succ_pos _⟩
    · intro world
      rw [tick, same, endedTasks_concat, endedTasks_concat, List.foldl_append, List.foldl_append,
        ticked.applied]

/-- Along every run in phase order. -/
theorem effect_of_runs (wellFormed : graph.WellFormed) (layered : graph.Layered)
    (commutes : PhaseCommutes effect graph) (rest : AtRest graph start)
    (run : system.Runs start events finish) (inOrder : InPhaseOrder events)
    (notShutdown : .calledShutdown ∉ events) :
    PhaseAfterPhase graph events finish ∧ TicksApplied effect graph events := by
  have along := run.invariant (fun before dispatch => before <+: events →
    PhaseAfterPhase graph before dispatch ∧ TicksApplied effect graph before)
    (fun _ => ⟨.initial rest, .initial⟩) ?_
  · exact along List.prefix_rfl
  · rintro before dispatch choice next event prior ih transition - segment
    have earlier := (List.prefix_append before [event]).trans segment
    obtain ⟨order, ticked⟩ := ih earlier
    have kept := layeredSession_of_runs wellFormed layered rest prior (inOrder.of_prefix earlier)
      fun member => notShutdown (earlier.subset member)
    have moved := step_sound transition
    have ordered := inOrder.of_prefix segment
    exact ⟨order.step kept wellFormed moved,
      ticked.step order kept wellFormed commutes moved fun phase same =>
        InPhaseOrder.next_call (same ▸ ordered)⟩

end Effect

/-- When ExecutePhase returns, the calls of the tick are those up to its phase. -/
theorem calls_of_returned (wellFormed : graph.WellFormed) (layered : graph.Layered)
    (rest : AtRest graph start) (run : system.Runs start (events ++ [.returnedPhase phase]) finish)
    (inOrder : InPhaseOrder (events ++ [.returnedPhase phase]))
    (notShutdown : .calledShutdown ∉ events) : finish.main = .idle ∧
      calls (currentTick (events ++ [.returnedPhase phase])) = phase.index + 1 := by
  obtain ⟨state, choice, prior, transition, -⟩ := run.last
  cases step_sound transition with
  | main moved =>
      cases moved with
      | waitDone waiting zero =>
          have earlier := layeredSession_of_runs wellFormed layered rest prior
            (inOrder.of_prefix (List.prefix_append _ _)) notShutdown
          have inside : state.main.between = false := by
            rcases waiting with here | ⟨epoch, here⟩ <;> rw [here] <;> rfl
          refine ⟨rfl, ?_⟩
          rw [currentTick_concat, if_neg (by rintro ⟨⟩), calls_concat,
            earlier.session.tick.schedule.calls_eq inside]
          rfl
  | worker moved => cases moved

/-- In every session of a layered graph whose tasks of one phase commute, when ExecutePhase
returns, all that has been executed has the effect of the ticks before, each executed one
task after the other in the order of the scan, and of the current one up to the phase. -/
theorem session_effect {World : Type} (effect : World → TaskId → World) (graph : TaskGraph)
    (start finish : JobDispatch) (events : List Event) (phase : RuntimePhaseId)
    (wellFormed : graph.WellFormed) (layered : graph.Layered)
    (commutes : PhaseCommutes effect graph) (rest : AtRest graph start)
    (run : system.Runs start (events ++ [.returnedPhase phase]) finish)
    (inOrder : InPhaseOrder (events ++ [.returnedPhase phase]))
    (notShutdown : .calledShutdown ∉ events) (world : World) :
    (endedTasks events).foldl effect world = sequential effect graph phase
      ((sequential effect graph .output)^[ticks events - 1] world) := by
  have running : .calledShutdown ∉ events ++ [.returnedPhase phase] := by
    simpa using notShutdown
  have kept := layeredSession_of_runs wellFormed layered rest run inOrder running
  obtain ⟨order, ticked⟩ := effect_of_runs wellFormed layered commutes rest run inOrder running
  have ended : endedTasks (events ++ [.returnedPhase phase]) = endedTasks events :=
    (endedTasks_concat ..).trans (List.append_nil _)
  have same : ticks (events ++ [.returnedPhase phase]) = ticks events := tally_concat ..
  obtain ⟨idle, called⟩ := calls_of_returned wellFormed layered rest run inOrder notShutdown
  rw [← ended, ticked.applied, same, order.foldl_ended kept wellFormed commutes idle called]

/-- Each task of the join writes down its number, those of the input phase as a sum. -/
def joinEffect (world : Nat × Nat) (task : TaskId) : Nat × Nat :=
  if task = 2 then (world.1, world.1) else (world.1 + task + 1, world.2)

/-- The sum of the first phase does not depend on the order. -/
theorem joinEffect_commutes : PhaseCommutes joinEffect .joinGraph := by
  have apart : ∀ earlier ∈ TaskGraph.joinGraph.tasks, ∀ later ∈ TaskGraph.joinGraph.tasks,
      TaskGraph.joinGraph.phaseOf earlier = TaskGraph.joinGraph.phaseOf later →
        earlier = later ∨ earlier ≠ 2 ∧ later ≠ 2 := by decide
  intro earlier member later memberLater same world
  rcases apart earlier member later memberLater same with rfl | ⟨first, second⟩
  · rfl
  · simp only [joinEffect, if_neg first, if_neg second, Prod.mk.injEq, and_true]
    omega

/-- Tasks 1 and 0 end in this order, and the join has the effect of the sequential one. -/
theorem join_session_effect : ∃ events finish,
    system.Runs (started .joinGraph .full 2) (events ++ [.returnedPhase .simulation]) finish ∧
    endedTasks events = [1, 0, 2] ∧
    (endedTasks events).foldl joinEffect (0, 0) =
      sequential joinEffect .joinGraph .simulation (0, 0) := by
  obtain ⟨events, finish, run, oneTick, notShutdown, last, order, one⟩ := system.runs_of_exec
    (fun _ _ _ _ => True) (started .joinGraph .full 2)
    (callThen .input 14 ++ work 0 2 ++ work 1 8 ++ work 0 6 ++ [.main] ++
      callThen .simulation 7 ++ work 1 7 ++ [.main])
    (fun _ events => OneTick events ∧ Event.calledShutdown ∉ events ∧
      events.getLast? = some (Event.returnedPhase .simulation) ∧
      endedTasks events.dropLast = [1, 0, 2] ∧ ticks events.dropLast = 1)
    (by decide +kernel)
  obtain ⟨before, rfl⟩ := List.getLast?_eq_some_iff.mp last
  rw [List.dropLast_concat] at order one
  have effect := session_effect joinEffect .joinGraph _ finish before .simulation
    TaskGraph.joinGraph_wellFormed TaskGraph.joinGraph_layered joinEffect_commutes
    (started_atRest (TaskRegistry.validate_full TaskGraph.joinGraph_wellFormed) 2) run
    oneTick.inPhaseOrder (fun member => notShutdown (List.mem_append_left _ member)) (0, 0)
  rw [one] at effect
  exact ⟨before, finish, run, order, effect⟩

end JobDispatch
end MmoServer.Runtime
