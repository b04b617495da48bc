import MmoServer.Runtime.JobDispatch.Accounting
import MmoServer.Runtime.JobDispatch.Counters

/-!
# The invariant of one tick

A tick starts at rest: the dispatcher runs a well-formed graph, nothing is
queued, no worker holds a task and the active count is zero. From there
ExecutePhase is called for the four phases in order. `Tick` gathers what holds
at every step, under every interleaving and whether or not the barrier between
two phases holds, and `Tick.step` says that every step of the tick keeps it.
-/

namespace MmoServer.Runtime

open MmoServer.Std MmoServer.Semantics

/-- The order in which a tick calls ExecutePhase. -/
def phaseOrder : List RuntimePhaseId := [.input, .simulation, .postSimulation, .output]

theorem phaseOrder_index {position : Nat} {phase : RuntimePhaseId}
    (here : phaseOrder[position]? = some phase) : phase.index = position := by
  rcases position with _ | _ | _ | _ | position <;> cases here <;> rfl

/-- A worker without a task weighs nothing in any of the bookkeepings. -/
theorem WorkerState.weights_of_none {state : WorkerState} (empty : state.task? = none) :
    (∀ task, state.holds task = 0) ∧ (∀ task, state.offers task = 0) ∧
    (∀ task, state.begun task = 0) ∧ (∀ task, state.ended task = 0) ∧
    ∀ task position, state.passes task position = 0 := by
  cases state
  all_goals first
    | exact ⟨fun _ => rfl, fun _ => rfl, fun _ => rfl, fun _ => rfl, fun _ _ => rfl⟩
    | cases empty

namespace JobDispatch

/-- A session between two ticks: a graph is bound, and there is no work. -/
structure AtRest (graph : TaskGraph) (dispatch : JobDispatch) : Prop where
  bound : dispatch.taskGraph = some graph
  registered : ∃ registry, dispatch.registry = some registry ∧ registry.validate graph = some true
  running : dispatch.running = true
  poolRunning : dispatch.poolRunning = true
  idle : dispatch.main = .idle
  queue : dispatch.readyQueue.items = []
  count : dispatch.activeTaskCount = 0
  workers : ∀ worker, (dispatch.workers worker).task? = none ∧ dispatch.workers worker ≠ .fault

/-- A session whose pool has started `count` workers and that has done nothing. -/
def started (graph : TaskGraph) (registry : TaskRegistry) (count : Nat) : JobDispatch :=
  { fresh with
    taskGraph := some graph
    registry := some registry
    running := true
    poolRunning := true
    activeWorkerCount := count
    workers := fun worker => if worker.val < count then .checkRunning else .unstarted }

/-- At most the four calls of one tick, in phase order. -/
def OneTick (events : List Event) : Prop := calledPhases events <+: phaseOrder

instance (events : List Event) : Decidable (OneTick events) :=
  inferInstanceAs (Decidable (calledPhases events <+: phaseOrder))

/-- All that holds along a tick. -/
structure Tick (graph : TaskGraph) (events : List Event) (dispatch : JobDispatch) : Prop where
  bound : dispatch.taskGraph = some graph
  registered : dispatch.registry ≠ none
  running : dispatch.running = true
  poolRunning : dispatch.poolRunning = true
  sound : Local graph dispatch
  accounts : Accounts events dispatch
  placement : Placement graph events dispatch
  execution : Execution events dispatch
  release : Release graph events dispatch
  schedule : Schedule graph events dispatch
  counters : Counters graph events dispatch

variable {graph : TaskGraph} {dispatch next start finish : JobDispatch} {events : List Event}
  {event : Event} {worker : WorkerIndex} {choice : Choice} {task parent child : TaskId}

theorem AtRest.local (rest : AtRest graph dispatch) : Local graph dispatch := by
  intro worker
  obtain ⟨empty, calm⟩ := rest.workers worker
  cases here : dispatch.workers worker <;> rw [here] at empty calm <;> trivial

theorem started_atRest {registry : TaskRegistry} (valid : registry.validate graph = some true)
    (count : Nat) : AtRest graph (started graph registry count) := by
  refine ⟨rfl, ⟨registry, rfl, valid⟩, rfl, rfl, rfl, rfl, rfl, fun worker => ?_⟩
  simp only [started]
  split <;> exact ⟨rfl, nofun⟩

/-- Every weight that only counts held tasks vanishes at rest. -/
theorem AtRest.threadSum_eq_zero (rest : AtRest graph dispatch) {weight : WorkerState → Nat}
    (counts : ∀ state : WorkerState, state.task? = none → weight state = 0) :
    threadSum weight dispatch.workers = 0 :=
  threadSum_eq_zero_iff.mpr fun worker => counts _ (rest.workers worker).1

/-- A session at rest is a tick in which nothing has happened yet. -/
theorem Tick.initial (rest : AtRest graph dispatch) : Tick graph [] dispatch := by
  have holds := fun task => rest.threadSum_eq_zero fun state empty =>
    (WorkerState.weights_of_none empty).1 task
  have offers := fun task => rest.threadSum_eq_zero fun state empty =>
    (WorkerState.weights_of_none empty).2.1 task
  have begun := fun task => rest.threadSum_eq_zero fun state empty =>
    (WorkerState.weights_of_none empty).2.2.1 task
  have ended := fun task => rest.threadSum_eq_zero fun state empty =>
    (WorkerState.weights_of_none empty).2.2.2.1 task
  have passes := fun task position => rest.threadSum_eq_zero fun state empty =>
    (WorkerState.weights_of_none empty).2.2.2.2 task position
  have active : threadSum WorkerState.active dispatch.workers = 0 := by
    refine threadSum_eq_zero_iff.mpr fun worker => ?_
    obtain ⟨empty, calm⟩ := rest.workers worker
    cases here : dispatch.workers worker <;> rw [here] at empty calm <;> trivial
  have owes : ∀ task, dispatch.main.offers task = 0 := by
    intro task
    rw [rest.idle]
    rfl
  have registered : dispatch.registry ≠ none := by
    obtain ⟨registry, bound, _⟩ := rest.registered
    rw [bound]
    rintro ⟨⟩
  refine ⟨rest.bound, registered, rest.running, rest.poolRunning, rest.local, ?_, ?_, ?_, ?_,
    ?_, ?_⟩
  · exact ⟨by rw [rest.count]; decide, by rw [rest.count, rest.idle, rest.queue, active]; rfl⟩
  · refine ⟨fun task positive => absurd positive (Nat.lt_irrefl 0), fun task => ?_, fun task => ?_⟩
    · rw [owes, rest.queue, holds, offers]
      rfl
    · rw [owes, offers]
      rfl
  · exact ⟨fun task => by rw [begun]; rfl, fun task => by rw [ended]; rfl⟩
  · refine ⟨fun parent _ position child _ => ?_, fun parent child positive => ?_⟩
    · rw [passes]
      rfl
    · exact absurd positive (Nat.lt_irrefl 0)
  · constructor
    · rw [MainOk, rest.idle]
      exact .inl ⟨rfl, by rintro ⟨⟩⟩
    · intro task _
      rw [rest.idle]
      simp [frontier, calls, calledPhases, scanCount]
  · refine ⟨fun _ task => rfl, fun index here => ?_, by rintro ⟨⟩, fun task positive => ?_,
      fun task => Nat.zero_le _⟩
    · rw [rest.idle] at here
      cases here
    · exact absurd positive (Nat.lt_irrefl 0)

theorem MainOk.inTick (main : MainOk graph events dispatch) : dispatch.main.inTick = true := by
  unfold MainOk at main
  cases here : dispatch.main <;> rw [here] at main <;> first | rfl | exact main.elim

theorem Tick.poolShape (tick : Tick graph events dispatch) : PoolShape dispatch := by
  have inTick := tick.schedule.main.inTick
  refine ⟨?_, fun stopped => absurd (tick.poolRunning.symm.trans stopped) nofun, ?_⟩
  · cases here : dispatch.main <;> rw [here] at inTick <;> first | rfl | cases inTick
  · intro index here
    rw [here] at inTick
    cases inTick

/-- Every queued task is a task of the graph. -/
theorem Placement.queued_mem (placement : Placement graph events dispatch)
    (queued : task ∈ dispatch.readyQueue.items) : task ∈ graph.tasks := by
  have balance := placement.balance task
  have counted := List.count_pos_iff.mpr queued
  exact placement.tasks task (by omega)

/-- A worker step keeps the invariant of a tick. -/
theorem Tick.workerStep (tick : Tick graph events dispatch) (wellFormed : graph.WellFormed)
    (moved : WorkerStep dispatch worker next event) : Tick graph (events ++ [event]) next := by
  have frame := moved.frame
  obtain ⟨sound, calm⟩ := tick.sound.workerStep wellFormed tick.bound tick.registered
    (fun task queued => tick.placement.queued_mem queued) moved
  exact {
    bound := frame.taskGraph ▸ tick.bound
    registered := frame.registry ▸ tick.registered
    running := frame.running ▸ tick.running
    poolRunning := frame.poolRunning ▸ tick.poolRunning
    sound := sound
    accounts := tick.accounts.workerStep moved
    placement := tick.placement.workerStep wellFormed tick.bound tick.sound moved calm
    execution := tick.execution.workerStep moved calm
    release := tick.release.workerStep wellFormed tick.bound tick.sound moved calm
    schedule := tick.schedule.workerStep moved
    counters := tick.counters.workerStep tick.schedule tick.placement tick.release wellFormed
      tick.bound tick.sound moved calm }

/-- What a step of the runtime thread inside a tick leaves alone. -/
theorem MainStep.frame_of_inTick (moved : MainStep dispatch next event)
    (inTick : dispatch.main.inTick = true) : next.taskGraph = dispatch.taskGraph ∧
      next.registry = dispatch.registry ∧ next.running = dispatch.running ∧
      next.poolRunning = dispatch.poolRunning ∧ next.workers = dispatch.workers := by
  cases moved with
  | startPool here | startWorker here | storeRunning here | stopPool here | join here
  | cleared here =>
      rw [here] at inTick
      cases inTick
  | _ => exact ⟨rfl, rfl, rfl, rfl, rfl⟩

/-- A step of the runtime thread inside ExecutePhase keeps the invariant. -/
theorem Tick.mainStep (tick : Tick graph events dispatch) (wellFormed : graph.WellFormed)
    (moved : MainStep dispatch next event) : Tick graph (events ++ [event]) next := by
  have inTick := tick.schedule.main.inTick
  obtain ⟨graphs, registries, running, poolRunning, workers⟩ := moved.frame_of_inTick inTick
  exact {
    bound := graphs ▸ tick.bound
    registered := registries ▸ tick.registered
    running := running ▸ tick.running
    poolRunning := poolRunning ▸ tick.poolRunning
    sound := fun worker => workers ▸ tick.sound worker
    accounts := tick.accounts.mainStep moved tick.poolShape
    placement := tick.placement.mainStep wellFormed tick.bound inTick moved
    execution := tick.execution.keepMain inTick moved
    release := tick.release.keepMain inTick moved
    schedule := (tick.schedule.mainStep wellFormed tick.bound tick.running moved).1
    counters := tick.counters.mainStep tick.schedule tick.placement tick.release wellFormed
      tick.bound moved }

/-- The runtime thread moves on without touching anything but its own place. -/
theorem Tick.keepMain (tick : Tick graph events dispatch) (state : MainState)
    (idle : dispatch.main = .idle) (quiet : event.quiet = true)
    (schedule : Schedule graph (events ++ [event]) (dispatch.setMain state))
    (accounts : Accounts (events ++ [event]) (dispatch.setMain state))
    (after : state.offer? = none) (outside : ∀ index, state ≠ .build index)
    (noBuild : event ≠ .builtRuntimeState) :
    Tick graph (events ++ [event]) (dispatch.setMain state) := by
  obtain ⟨creates, _, _, begins, ends, completions, decrements⟩ := quiet_tallies events quiet
  exact {
    bound := tick.bound
    registered := tick.registered
    running := tick.running
    poolRunning := tick.poolRunning
    sound := tick.sound
    accounts := accounts
    placement := tick.placement.keepMain quiet (by rw [idle]; rfl) after rfl rfl
    execution := tick.execution.keep (fun task => ⟨begins task, ends task, completions task⟩)
      fun _ => ⟨rfl, rfl⟩
    release := tick.release.keep (fun parent => ⟨completions parent, decrements parent⟩)
      fun _ _ _ _ => rfl
    schedule := schedule
    counters := by
      apply tick.counters.keep
      · rw [built_concat]
        exact or_iff_left noBuild
      · intro task
        refine ⟨creates task, ?_⟩
        rw [releases, tally_concat_quiet quiet]
        · rfl
        · intro event quiet
          cases event <;> first | rfl | cases quiet
      · intro task
        rw [load, Finset.sum_congr rfl fun parent _ => decrements parent task]
        rfl
      · rfl
      · intro index there
        exact absurd there (outside index) }

/-- Every step of a tick keeps the invariant: ExecutePhase is called for the
next phase, and Shutdown is not called. -/
theorem Tick.step (tick : Tick graph events dispatch) (wellFormed : graph.WellFormed)
    (moved : SystemStep dispatch choice next event)
    (inOrder : ∀ phase, event = .calledPhase phase → phase.index = calls events)
    (notShutdown : event ≠ .calledShutdown) : Tick graph (events ++ [event]) next := by
  have accounts := tick.accounts.step moved tick.poolShape
  cases moved with
  | initializeRefused idle refused =>
      have same : dispatch = dispatch.setMain .idle := by rw [setMain, ← idle]
      rw [same] at accounts ⊢
      refine tick.keepMain .idle idle rfl ?_ accounts rfl (by simp) (by simp)
      exact tick.schedule.keep idle.symm rfl rfl (by simp) fun _ => rfl
  | initializeFault idle stopped | initializeBound idle stopped | ignoredShutdown idle stopped =>
      exact absurd (tick.running.symm.trans stopped) (by simp)
  | calledPhase idle =>
      refine tick.keepMain _ idle rfl ?_ accounts rfl (by simp) (by simp)
      exact tick.schedule.calledPhase idle (inOrder _ rfl)
  | calledShutdown => exact absurd rfl notShutdown
  | main moved => exact tick.mainStep wellFormed moved
  | threadFailure here =>
      have inTick := tick.schedule.main.inTick
      rw [here] at inTick
      cases inTick
  | worker moved => exact tick.workerStep wellFormed moved

end JobDispatch
end MmoServer.Runtime
