import MmoServer.Runtime.JobDispatch.Ticks

/-!
# The barrier between phases

WaitForPhaseCompletion trusts `m_activeTaskCount`, which a releasing worker
increments only after the Enqueue. While it stands in between, the count is one
too low: another worker may take the new task, finish it and bring the count to
zero, and the barrier opens on a phase that still has work. `BarrierGuard` says
that the barrier never reads zero at such a moment.

Under the guard ExecutePhase returns only when nothing is queued and no worker
holds a task, so every tick starts at rest and the invariant of one tick carries
over to sessions of any number of ticks. `Session` is that invariant; its trace
is the one since the latest call for the input phase.
-/

namespace MmoServer.Runtime

open MmoServer.Std MmoServer.Semantics

/-- The worker stands between an Enqueue and the increment that belongs to it. -/
def WorkerState.uncounted : WorkerState → Bool
  | .addActive _ _ _ => true
  | _ => false

/-- Between two phases, up to the scan of the next one. -/
def MainState.between : MainState → Bool
  | .idle | .loadRunning _ | .storePhase _ | .build _ | .loadSeedPhase => true
  | _ => false

/-- A worker that has no share of the active count and is not uncounted holds
nothing. -/
theorem WorkerState.task?_eq_none {state : WorkerState} (idle : state.active = 0)
    (counted : state.uncounted = false) : state.task? = none := by
  cases state <;> simp_all [WorkerState.active, WorkerState.uncounted, WorkerState.task?]

namespace JobDispatch

/-- The barrier does not open while a worker is uncounted. -/
def BarrierGuard : TransitionSystem.StepCondition JobDispatch Choice Event :=
  fun _ dispatch _ event =>
    match event with
    | .returnedPhase _ => ∀ worker, (dispatch.workers worker).uncounted = false
    | _ => True

instance (events : List Event) (dispatch : JobDispatch) (choice : Choice) (event : Event) :
    Decidable (BarrierGuard events dispatch choice event) := by
  unfold BarrierGuard
  split <;> infer_instance

/-- A session with any number of ticks behind it. -/
structure Session (graph : TaskGraph) (events : List Event) (dispatch : JobDispatch) : Prop where
  tick : Tick graph (currentTick events) dispatch
  registered : ∃ registry, dispatch.registry = some registry ∧ registry.validate graph = some true
  called : calls (currentTick events) ≤ 4 ∧ calls (currentTick events) % 4 = calls events % 4
  settled : dispatch.main.between = true → dispatch.readyQueue.items = [] ∧
    dispatch.activeTaskCount = 0 ∧ ∀ worker, (dispatch.workers worker).task? = none

variable {graph : TaskGraph} {dispatch next start finish : JobDispatch} {events : List Event}
  {event : Event} {worker : WorkerIndex} {choice : Choice} {task parent child : TaskId}

theorem Session.ticks (session : Session graph events dispatch) : Ticks graph events dispatch :=
  ⟨session.tick, session.registered, session.called⟩

/-- Every refused Enqueue concerns a task of the graph. -/
theorem failedEnqueues_eq_sum (placement : Placement graph events dispatch) :
    failedEnqueues events = ∑ task ∈ graph.tasks, refusals events task := by
  apply tally_eq_sum
  intro event member
  cases event with
  | enqueued task accepted =>
      cases accepted with
      | true => simp [Event.isFailedEnqueue]
      | false =>
          have refused : 0 < refusals events task := tally_pos_iff.mpr ⟨_, member, by simp⟩
          have balance := placement.balance task
          have inGraph := placement.tasks task (by omega)
          simp [Event.isFailedEnqueue, inGraph]
  | _ => simp [Event.isFailedEnqueue]

/-- A tick refuses far fewer tasks than the active count can represent. -/
theorem Tick.failedEnqueues_lt (tick : Tick graph events dispatch)
    (wellFormed : graph.WellFormed) : failedEnqueues events < 2 ^ 31 := by
  have few : ∑ task ∈ graph.tasks, refusals events task ≤ ∑ _task ∈ graph.tasks, 2 := by
    apply Finset.sum_le_sum
    intro task _
    have balance := tick.placement.balance task
    have created := tick.counters.created_le tick.schedule tick.placement task
    omega
  have size := wellFormed.card_tasks_le
  have limit : taskGraphMaxNodesV1 = 256 := rfl
  rw [Finset.sum_const, smul_eq_mul] at few
  rw [failedEnqueues_eq_sum tick.placement]
  omega

/-- When the runtime thread reads a count of zero and no worker is uncounted,
nothing is queued, held or lost. -/
theorem Tick.settled_of_zero (tick : Tick graph events dispatch) (wellFormed : graph.WellFormed)
    (owes : dispatch.main.uncounted = 0) (zero : dispatch.activeTaskCount = 0)
    (guard : ∀ worker, (dispatch.workers worker).uncounted = false) :
    dispatch.readyQueue.items = [] ∧ (∀ worker, (dispatch.workers worker).task? = none) ∧
      failedEnqueues events = 0 := by
  have total := tick.accounts.exact owes (tick.failedEnqueues_lt wellFormed)
  have idle : threadSum WorkerState.active dispatch.workers = 0 := by omega
  refine ⟨List.length_eq_zero_iff.mp (by omega), fun worker => ?_, by omega⟩
  exact WorkerState.task?_eq_none (threadSum_eq_zero_iff.mp idle worker) (guard worker)

/-- The state in which a session is between two calls. -/
theorem Session.atRest (session : Session graph events dispatch) (idle : dispatch.main = .idle) :
    AtRest graph dispatch := by
  obtain ⟨queue, count, empty⟩ := session.settled (by rw [idle]; rfl)
  exact session.ticks.atRest idle queue count empty

/-- Between two phases the workers only poll an empty queue. -/
theorem WorkerStep.keeps_settled (moved : WorkerStep dispatch worker next event)
    (queue : dispatch.readyQueue.items = [])
    (empty : ∀ worker, (dispatch.workers worker).task? = none) :
    next.readyQueue.items = [] ∧ next.activeTaskCount = dispatch.activeTaskCount ∧
      ∀ worker, (next.workers worker).task? = none := by
  have frame := moved.frame
  have here := empty worker
  have rest : ∀ state : WorkerState, next.workers worker = state → state.task? = none →
      ∀ other, (next.workers other).task? = none := by
    intro state there none other
    by_cases same : other = worker
    · rw [same, there, none]
    · rw [frame.others other same]
      exact empty other
  cases moved with
  | checkRunning =>
      refine ⟨queue, rfl, rest _ (Function.update_self ..) ?_⟩
      split <;> rfl
  | dequeueEmpty | bumpEpoch | notifyAll =>
      exact ⟨queue, rfl, rest _ (Function.update_self ..) rfl⟩
  | dequeue _ taken =>
      rw [BoundedQueue.dequeue_eq_some taken] at queue
      cases queue
  | fault task counters cause =>
      refine ⟨queue, rfl, rest _ (Function.update_self ..) rfl⟩
  | execute at_ | executing at_ | loadPhase at_ | releaseDone at_ | releaseHeld at_
  | releaseReady at_ | enqueue at_ | addActive at_ | subActive at_ =>
      rw [at_] at here
      cases here

/-- A step of the runtime thread from one place between two phases to another. -/
theorem MainStep.keeps_settled (moved : MainStep dispatch next event)
    (inTick : dispatch.main.inTick = true) (after : next.main.between = true)
    (returned : ∀ phase, event ≠ .returnedPhase phase) : dispatch.main.between = true ∧
      next.readyQueue = dispatch.readyQueue ∧
      next.activeTaskCount = dispatch.activeTaskCount ∧ next.workers = dispatch.workers := by
  cases moved with
  | loadRunning here | loadRunningRefused here | storePhase here | build here | buildDone here =>
      exact ⟨by rw [here]; rfl, rfl, rfl, rfl⟩
  | waitDone => exact absurd rfl (returned _)
  | seed here =>
      simp only [setMain] at after
      split at after <;> cases after
  | buildFault | loadSeedPhase | seedDone | seedFault | seedEnqueue | seedAdd | waitBusy | waitEpoch
  | waitRecheck | waitReturned => cases after
  | startPoolRefused here | startPool here | startWorker here | startWorkerFault here
  | startedWorkers here | storeRunning here | stopPool here | joinSkip here | join here
  | joinFault here | joined here | clearActive here | clearEpoch here | clearPhase here
  | clearCounters here | cleared here =>
      rw [here] at inTick
      cases inTick

/-- Between two phases a step under the guard finds or leaves nothing queued,
counted or held. -/
theorem Session.settled_step (session : Session graph events dispatch)
    (wellFormed : graph.WellFormed) (moved : SystemStep dispatch choice next event)
    (guard : BarrierGuard events dispatch choice event) (between : next.main.between = true) :
    next.readyQueue.items = [] ∧ next.activeTaskCount = 0 ∧
      ∀ worker, (next.workers worker).task? = none := by
  have inTick := session.tick.schedule.main.inTick
  cases moved with
  | initializeRefused idle | ignoredShutdown idle | initializeFault idle | initializeBound idle
  | calledPhase idle | calledShutdown idle => exact session.settled (by rw [idle]; rfl)
  | threadFailure here =>
      rw [here] at inTick
      cases inTick
  | worker moved =>
      obtain ⟨queue, count, empty⟩ := session.settled (moved.frame.main ▸ between)
      obtain ⟨queue', count', empty'⟩ := moved.keeps_settled queue empty
      exact ⟨queue', count'.trans count, empty'⟩
  | main moved =>
      by_cases returned : ∃ phase, event = .returnedPhase phase
      · cases moved with
        | waitDone here zero =>
            have owes : dispatch.main.uncounted = 0 := by
              rcases here with here | ⟨epoch, here⟩ <;> rw [here] <;> rfl
            obtain ⟨queue, empty, _⟩ :=
              session.tick.settled_of_zero wellFormed owes zero guard
            exact ⟨queue, zero, empty⟩
        | _ =>
            obtain ⟨phase, same⟩ := returned
            cases same
      · obtain ⟨before, queue, count, workers⟩ := moved.keeps_settled inTick between
          fun phase same => returned ⟨phase, same⟩
        rw [queue, count, workers]
        exact session.settled before

/-- Under the guard every step keeps the invariant of the session. -/
theorem Session.step (session : Session graph events dispatch) (wellFormed : graph.WellFormed)
    (moved : SystemStep dispatch choice next event)
    (inOrder : ∀ phase, event = .calledPhase phase → phase.index = calls events % 4)
    (notShutdown : event ≠ .calledShutdown) (guard : BarrierGuard events dispatch choice event) :
    Session graph (events ++ [event]) next := by
  have ticks := session.ticks.step wellFormed moved
    (fun same => session.atRest (idle_of_called (same ▸ moved))) inOrder notShutdown
  exact ⟨ticks.tick, ticks.registered, ticks.called, session.settled_step wellFormed moved guard⟩

/-- A session starts at rest. -/
theorem Session.initial (rest : AtRest graph dispatch) : Session graph [] dispatch :=
  ⟨.initial rest, rest.registered, ⟨Nat.zero_le _, rfl⟩,
    fun _ => ⟨rest.queue, rest.count, fun worker => (rest.workers worker).1⟩⟩

/-- The invariant rule for sessions: every run in phase order under a condition
that implies the barrier guard. -/
theorem session_rule {allowed : TransitionSystem.StepCondition JobDispatch Choice Event}
    (extra : List Event → JobDispatch → Prop) (wellFormed : graph.WellFormed)
    (rest : AtRest graph start) (run : system.RunsUnder allowed start events finish)
    (guarded : ∀ events dispatch choice event, allowed events dispatch choice event →
      BarrierGuard events dispatch choice event)
    (inOrder : InPhaseOrder events) (notShutdown : .calledShutdown ∉ events)
    (initial : extra [] start)
    (preserved : ∀ {events dispatch choice next event}, Session graph events dispatch →
      extra events dispatch → SystemStep dispatch choice next event →
      allowed events dispatch choice event → Session graph (events ++ [event]) next →
      extra (events ++ [event]) next) : Session graph events finish ∧ extra events finish := by
  have along := run.invariant (fun before dispatch => before <+: events →
    Session graph before dispatch ∧ extra before dispatch) (fun _ => ⟨.initial rest, initial⟩) ?_
  · exact along (List.prefix_refl events)
  · rintro before dispatch choice next event - ih transition permitted segment
    obtain ⟨session, holds⟩ := ih ((List.prefix_append before [event]).trans segment)
    have moved := step_sound transition
    have ordered := inOrder.of_prefix segment
    have member : event ∈ events := segment.subset (by simp)
    have session' := session.step wellFormed moved
      (fun phase same => InPhaseOrder.next_call (same ▸ ordered))
      (fun same => notShutdown (same ▸ member)) (guarded _ _ _ _ permitted)
    exact ⟨session', preserved session holds moved permitted session'⟩

end JobDispatch
end MmoServer.Runtime
