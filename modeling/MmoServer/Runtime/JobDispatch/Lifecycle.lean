import MmoServer.Runtime.JobDispatch.Barrier

/-!
# The lifecycle of a dispatcher

Between construction and the end of the program a dispatcher goes through
sessions: Initialize starts the pool, ticks follow, Shutdown stops and joins the
workers and clears what they left. `Lifecycle` names the stages and says what
holds in each. A session is the trace since the latest successful Initialize.

A dispatcher whose pool failed to start stays `broken`: it has no session, and
no later Initialize or Shutdown gets past its first test.
-/

namespace MmoServer.Runtime

open MmoServer.Std MmoServer.Semantics

/-- Initialize is given a well-formed graph. -/
def Choice.WellFormed : Choice → Prop
  | .call (.initializeWith graph _ _) => graph.WellFormed
  | _ => True

namespace JobDispatch

/-- The trace since the latest successful Initialize. -/
def currentSession (events : List Event) : List Event :=
  events.foldl (fun session event => if event = .initialized true then [] else session ++ [event]) []

/-- A session calls ExecutePhase for the four phases in turn. -/
def PhaseOrder : TransitionSystem.StepCondition JobDispatch Choice Event :=
  fun events dispatch _ event =>
    match event with
    | .calledPhase phase =>
      dispatch.running = true → phase.index = calls (currentSession events) % 4
    | _ => True

theorem phaseOrder_iff {events : List Event} {dispatch : JobDispatch} {choice : Choice}
    {event : Event} : PhaseOrder events dispatch choice event ↔
      ∀ phase ∈ event.calledPhase?, dispatch.running = true →
        phase.index = calls (currentSession events) % 4 := by
  unfold PhaseOrder Event.calledPhase?
  split <;> simp

instance (events : List Event) (dispatch : JobDispatch) (choice : Choice) (event : Event) :
    Decidable (PhaseOrder events dispatch choice event) :=
  decidable_of_iff _ phaseOrder_iff.symm

/-- The runtime thread drives sessions on well-formed graphs, each of any number
of ticks, the last of which may be cut short between two phases. -/
def SessionOrder : TransitionSystem.StepCondition JobDispatch Choice Event :=
  fun events dispatch choice event =>
    PhaseOrder events dispatch choice event ∧ choice.WellFormed

/-- Sessions whose barrier does not open on an uncounted worker. -/
def SessionGuard : TransitionSystem.StepCondition JobDispatch Choice Event :=
  fun events dispatch choice event =>
    SessionOrder events dispatch choice event ∧ BarrierGuard events dispatch choice event

/-- The first slot the pool has not started. -/
def startedSlots (dispatch : JobDispatch) : Nat :=
  match dispatch.main with
  | .startPool _ => 0
  | .startWorker index => index
  | _ => dispatch.activeWorkerCount

/-- The pool fits its slots, and those it has not started hold no thread. -/
structure Slots (dispatch : JobDispatch) : Prop where
  few : dispatch.activeWorkerCount ≤ maxHardwareWorkers
  beyond : ∀ worker : WorkerIndex, dispatch.startedSlots ≤ worker →
    dispatch.workers worker = .unstarted

/-- Nothing is queued, counted or held. -/
structure Empty (dispatch : JobDispatch) : Prop where
  queue : dispatch.readyQueue.items = []
  workers : ∀ worker, (dispatch.workers worker).task? = none

/-- Initialize has bound a graph and is starting the pool. -/
structure Starting (graph : TaskGraph) (dispatch : JobDispatch) : Prop where
  wellFormed : graph.WellFormed
  bound : dispatch.taskGraph = some graph
  registered : ∃ registry, dispatch.registry = some registry ∧ registry.validate graph = some true
  stopped : dispatch.running = false
  empty : dispatch.Empty
  count : dispatch.activeTaskCount = 0
  calm : ∀ worker, dispatch.workers worker ≠ .fault
  slots : dispatch.Slots
  stage : match dispatch.main with
    | .startPool _ => dispatch.poolRunning = false
    | .startWorker index => dispatch.poolRunning = true ∧ index ≤ dispatch.activeWorkerCount
    | .storeRunning => dispatch.poolRunning = true
    | _ => False

/-- A session runs. -/
structure Up (graph : TaskGraph) (events : List Event) (dispatch : JobDispatch) : Prop where
  wellFormed : graph.WellFormed
  session : Session graph (currentSession events) dispatch
  slots : dispatch.Slots

/-- What Shutdown has stopped, joined and cleared so far. -/
def StopStage (dispatch : JobDispatch) : Prop :=
  match dispatch.main with
  | .stopPool => True
  | .join index => dispatch.poolRunning = false ∧
    ∀ worker : WorkerIndex, worker < index → dispatch.workers worker = .unstarted
  | .clearActive => dispatch.poolRunning = false ∧ dispatch.activeWorkerCount = 0
  | .clearEpoch => dispatch.poolRunning = false ∧ dispatch.activeWorkerCount = 0 ∧
    dispatch.activeTaskCount = 0
  | .clearPhase => dispatch.poolRunning = false ∧ dispatch.activeWorkerCount = 0 ∧
    dispatch.activeTaskCount = 0 ∧ dispatch.phaseEpoch = 0
  | .clearCounters index => dispatch.poolRunning = false ∧ dispatch.activeWorkerCount = 0 ∧
    dispatch.activeTaskCount = 0 ∧ dispatch.phaseEpoch = 0 ∧ dispatch.currentPhase = .input ∧
    ∀ cell : Fin taskGraphMaxNodesV1, cell < index → dispatch.remainingDependencies cell = 0
  | _ => False

/-- The runtime thread is inside Shutdown. -/
structure Stopping (dispatch : JobDispatch) : Prop where
  stopped : dispatch.running = false
  empty : dispatch.Empty
  slots : dispatch.Slots
  stage : dispatch.StopStage

/-- The pool has failed to start. -/
structure Broken (dispatch : JobDispatch) : Prop where
  stopped : dispatch.running = false
  poolRunning : dispatch.poolRunning = true
  stage : match dispatch.main with
    | .idle | .startPool _ | .loadRunning _ | .fault => True
    | _ => False

/-- The stages of a dispatcher. -/
inductive Lifecycle (events : List Event) (dispatch : JobDispatch) : Prop
  | down (same : dispatch = fresh ∨ ∃ phase, dispatch = fresh.setMain (.loadRunning phase))
  | starting {graph} (starting : Starting graph dispatch)
  | up {graph} (up : Up graph events dispatch)
  | stopping (stopping : Stopping dispatch)
  | broken (broken : Broken dispatch)

variable {graph : TaskGraph} {dispatch next start finish : JobDispatch} {events : List Event}
  {event : Event} {worker : WorkerIndex} {choice : Choice} {task : TaskId}

theorem currentSession_concat (events : List Event) (event : Event) :
    currentSession (events ++ [event]) =
      if event = .initialized true then [] else currentSession events ++ [event] := by
  simp [currentSession]

/-- A worker step starts no thread. -/
theorem Slots.workerStep (slots : dispatch.Slots) (moved : WorkerStep dispatch worker next event) :
    next.Slots := by
  have frame := moved.frame
  constructor
  · rw [frame.activeWorkerCount]
    exact slots.few
  · intro other above
    have same : next.startedSlots = dispatch.startedSlots := by
      rw [startedSlots, startedSlots, frame.main, frame.activeWorkerCount]
    have unstarted := slots.beyond other (same ▸ above)
    have different : other ≠ worker := by
      rintro rfl
      exact frame.started unstarted
    rw [frame.others other different]
    exact unstarted

/-- While nothing is queued, a worker step leaves everything empty. -/
theorem Empty.workerStep (empty : dispatch.Empty) (moved : WorkerStep dispatch worker next event) :
    next.Empty ∧ next.activeTaskCount = dispatch.activeTaskCount := by
  obtain ⟨queue, count, workers⟩ := moved.keeps_settled empty.queue empty.workers
  exact ⟨⟨queue, workers⟩, count⟩

/-- While nothing is held, no worker faults. -/
theorem Empty.calm (empty : dispatch.Empty) (moved : WorkerStep dispatch worker next event)
    (calm : ∀ worker, dispatch.workers worker ≠ .fault) (other : WorkerIndex) :
    next.workers other ≠ .fault := by
  have frame := moved.frame
  by_cases same : other = worker
  · subst same
    have none := empty.workers other
    cases moved with
    | fault task counters cause =>
        rcases cause with ⟨here, _⟩ | ⟨here, _⟩ | ⟨_, _, here, _⟩ <;> rw [here] at none <;> cases none
    | checkRunning =>
        simp only [setWorker, Function.update_self]
        split <;> rintro ⟨⟩
    | subActive =>
        simp only [setWorker, Function.update_self]
        split <;> rintro ⟨⟩
    | _ =>
        simp only [setWorker, Function.update_self]
        rintro ⟨⟩
  · rw [frame.others other same]
    exact calm other

/-! ## Initialize -/

/-- Initialize on a fresh dispatcher. -/
theorem Starting.initial {registry : TaskRegistry} (wellFormed : graph.WellFormed)
    (valid : registry.validate graph = some true) (hardwareConcurrency : Nat) :
    Starting graph { fresh with
      taskGraph := some graph
      registry := some registry
      main := .startPool hardwareConcurrency } := by
  constructor
  · exact wellFormed
  · rfl
  · exact ⟨registry, rfl, valid⟩
  · rfl
  · exact ⟨rfl, fun _ => rfl⟩
  · rfl
  · nofun
  · exact ⟨Nat.zero_le _, fun _ _ => rfl⟩
  · rfl

theorem Starting.workerStep (starting : Starting graph dispatch)
    (moved : WorkerStep dispatch worker next event) : Starting graph next := by
  have frame := moved.frame
  obtain ⟨empty, count⟩ := starting.empty.workerStep moved
  constructor
  · exact starting.wellFormed
  · exact frame.taskGraph.trans starting.bound
  · rw [frame.registry]
    exact starting.registered
  · exact frame.running.trans starting.stopped
  · exact empty
  · exact count.trans starting.count
  · exact starting.empty.calm moved starting.calm
  · exact starting.slots.workerStep moved
  · rw [frame.main, frame.poolRunning, frame.activeWorkerCount]
    exact starting.stage

/-- What Initialize leaves when it returns true. -/
theorem Starting.atRest (starting : Starting graph dispatch) (here : dispatch.main = .storeRunning) :
    AtRest graph { dispatch with running := true, main := .idle } := by
  have stage := starting.stage
  rw [here] at stage
  exact ⟨starting.bound, starting.registered, rfl, stage, rfl, starting.empty.queue, starting.count,
    fun worker => ⟨starting.empty.workers worker, starting.calm worker⟩⟩

/-- A new thread in a slot holds nothing. -/
theorem Starting.startWorker (starting : Starting graph dispatch) {index : Nat}
    (here : dispatch.main = .startWorker index) (more : index < dispatch.activeWorkerCount)
    (slot : index < maxHardwareWorkers) : Starting graph
      ((dispatch.setWorker ⟨index, slot⟩ .checkRunning).setMain (.startWorker (index + 1))) := by
  have stage := starting.stage
  rw [here] at stage
  have each : ∀ (holds : WorkerIndex → WorkerState → Prop), holds ⟨index, slot⟩ .checkRunning →
      (∀ other, holds other (dispatch.workers other)) → ∀ other,
      holds other (Function.update dispatch.workers ⟨index, slot⟩ .checkRunning other) := by
    intro holds started unchanged other
    by_cases same : other = ⟨index, slot⟩
    · rw [same, Function.update_self]
      exact started
    · rw [Function.update_of_ne same]
      exact unchanged other
  refine { starting with empty := ?_, calm := ?_, slots := ?_, stage := ⟨stage.1, more⟩ }
  · exact ⟨starting.empty.queue, each (fun _ state => state.task? = none) rfl starting.empty.workers⟩
  · exact each (fun _ state => state ≠ .fault) nofun starting.calm
  · refine ⟨starting.slots.few, each (fun other state => index + 1 ≤ other → state = .unstarted)
      (fun above => absurd above (Nat.not_succ_le_self index)) fun other above => ?_⟩
    apply starting.slots.beyond other
    rw [startedSlots, here]
    exact Nat.le_of_succ_le above

/-- A step of the runtime thread inside WorkerPool::Start. -/
theorem Starting.mainStep (starting : Starting graph dispatch)
    (moved : MainStep dispatch next event) :
    event ≠ .initialized true ∧ Starting graph next ∨
      event = .initialized true ∧ AtRest graph next ∧ next.Slots := by
  have stage := starting.stage
  have empty : dispatch.readyQueue.items = [] ∧ ∀ worker, (dispatch.workers worker).task? = none :=
    ⟨starting.empty.queue, starting.empty.workers⟩
  have slots := starting.slots
  cases moved with
  | startPoolRefused here refused =>
      rw [here] at stage
      exact absurd (stage.symm.trans refused) nofun
  | startPool here stopped =>
      refine .inl ⟨nofun, { starting with empty := ⟨empty.1, empty.2⟩, slots := ?_, stage := ?_ }⟩
      · refine ⟨workerCount_le _, fun worker _ => slots.beyond worker ?_⟩
        rw [startedSlots, here]
        exact Nat.zero_le _
      · exact ⟨rfl, Nat.zero_le _⟩
  | startWorker here more slot => exact .inl ⟨nofun, starting.startWorker here more slot⟩
  | startWorkerFault here more outside =>
      exact absurd (Nat.lt_of_lt_of_le more slots.few) outside
  | @startedWorkers index here done =>
      rw [here] at stage
      refine .inl ⟨nofun,
        { starting with empty := ⟨empty.1, empty.2⟩, slots := ?_, stage := stage.1 }⟩
      refine ⟨slots.few, fun worker above => slots.beyond worker ?_⟩
      rw [startedSlots, here]
      exact Nat.le_trans stage.2 above
  | storeRunning here =>
      refine .inr ⟨rfl, starting.atRest here, slots.few, fun worker above => slots.beyond worker ?_⟩
      rw [startedSlots, here]
      exact above
  | waitDone here =>
      rcases here with here | ⟨epoch, here⟩
      all_goals
        rw [here] at stage
        exact stage.elim
  | _ here =>
      rw [here] at stage
      exact stage.elim

/-! ## A running session -/

/-- Inside a session the slots are those of the whole pool. -/
theorem startedSlots_of_inTick (inTick : dispatch.main.inTick = true) :
    dispatch.startedSlots = dispatch.activeWorkerCount := by
  unfold startedSlots
  split
  · next here =>
    rw [here] at inTick
    cases inTick
  · next here =>
    rw [here] at inTick
    cases inTick
  · rfl

/-- A step inside ExecutePhase neither starts nor stops a session. -/
theorem MainStep.within_session (moved : MainStep dispatch next event)
    (inTick : dispatch.main.inTick = true) :
    next.activeWorkerCount = dispatch.activeWorkerCount ∧ event ≠ .initialized true ∧
      event ≠ .returnedShutdown := by
  cases moved with
  | startPool here | startPoolRefused here | storeRunning here | joined here | cleared here =>
      rw [here] at inTick
      cases inTick
  | _ => exact ⟨rfl, nofun, nofun⟩

theorem SystemStep.within_session (moved : SystemStep dispatch choice next event)
    (inTick : dispatch.main.inTick = true) (running : dispatch.running = true) :
    next.activeWorkerCount = dispatch.activeWorkerCount ∧ event ≠ .initialized true ∧
      event ≠ .returnedShutdown := by
  cases moved with
  | main moved => exact moved.within_session inTick
  | worker moved =>
      refine ⟨moved.frame.activeWorkerCount, ?_⟩
      cases moved <;> exact ⟨nofun, nofun⟩
  | initializeBound idle stopped => exact absurd (running.symm.trans stopped) nofun
  | _ => exact ⟨rfl, nofun, nofun⟩

/-- The pool keeps its size and its slots through a session. -/
theorem Slots.systemStep (slots : dispatch.Slots) (moved : SystemStep dispatch choice next event)
    (inTick : dispatch.main.inTick = true) (running : dispatch.running = true)
    (after : next.main.inTick = true) : next.Slots := by
  have size := (moved.within_session inTick running).1
  have keep : next.workers = dispatch.workers → next.Slots := by
    intro workers
    constructor
    · rw [size]
      exact slots.few
    · intro worker above
      rw [startedSlots_of_inTick after, size, ← startedSlots_of_inTick inTick] at above
      rw [workers]
      exact slots.beyond worker above
  cases moved with
  | worker moved => exact slots.workerStep moved
  | main moved => exact keep (moved.frame_of_inTick inTick).2.2.2.2
  | _ => exact keep rfl

/-- A session goes on until Shutdown is called. -/
theorem Up.step (up : Up graph events dispatch) (moved : SystemStep dispatch choice next event)
    (order : PhaseOrder events dispatch choice event)
    (guard : BarrierGuard events dispatch choice event) (notShutdown : event ≠ .calledShutdown) :
    Up graph (events ++ [event]) next := by
  have inTick := up.session.tick.schedule.main.inTick
  have running := up.session.tick.running
  have session : Session graph (currentSession events ++ [event]) next := by
    apply up.session.step up.wellFormed moved _ notShutdown guard
    rintro phase rfl
    exact order running
  constructor
  · exact up.wellFormed
  · rw [currentSession_concat, if_neg (moved.within_session inTick running).2.1]
    exact session
  · exact up.slots.systemStep moved inTick running session.tick.schedule.main.inTick

/-- Shutdown finds the dispatcher between two phases, with nothing left. -/
theorem Up.shutdown (up : Up graph events dispatch) (idle : dispatch.main = .idle) :
    Stopping { dispatch with running := false, main := .stopPool } := by
  obtain ⟨queue, _, workers⟩ := up.session.settled (by rw [idle]; rfl)
  constructor
  · rfl
  · exact ⟨queue, workers⟩
  · refine ⟨up.slots.few, fun worker above => up.slots.beyond worker ?_⟩
    rw [startedSlots, idle]
    exact above
  · trivial

/-! ## Shutdown -/

/-- After the join no slot holds a thread. -/
theorem Slots.unstarted (slots : dispatch.Slots) (none : dispatch.startedSlots = 0)
    (worker : WorkerIndex) : dispatch.workers worker = .unstarted :=
  slots.beyond worker (none ▸ Nat.zero_le _)

/-- A stage that touches neither the slots nor the queue. -/
theorem Stopping.advance (stopping : Stopping dispatch) (stopped : next.running = dispatch.running)
    (queue : next.readyQueue = dispatch.readyQueue) (workers : next.workers = dispatch.workers)
    (size : next.activeWorkerCount = dispatch.activeWorkerCount)
    (started : next.startedSlots = dispatch.startedSlots) (stage : next.StopStage) :
    Stopping next := by
  constructor
  · exact stopped.trans stopping.stopped
  · refine ⟨queue ▸ stopping.empty.queue, ?_⟩
    rw [workers]
    exact stopping.empty.workers
  · refine ⟨size ▸ stopping.slots.few, ?_⟩
    rw [workers, started]
    exact stopping.slots.beyond
  · exact stage

theorem Stopping.workerStep (stopping : Stopping dispatch)
    (moved : WorkerStep dispatch worker next event) : Stopping next := by
  have frame := moved.frame
  obtain ⟨empty, _⟩ := stopping.empty.workerStep moved
  constructor
  · exact frame.running.trans stopping.stopped
  · exact empty
  · exact stopping.slots.workerStep moved
  · have stage := stopping.stage
    unfold StopStage at stage ⊢
    rw [frame.main, frame.poolRunning]
    -- Once the pool is joined there is no worker left to move.
    have joined : dispatch.startedSlots = 0 → False := fun none =>
      frame.started (stopping.slots.unstarted none worker)
    cases here : dispatch.main <;> rw [here] at stage
    case stopPool => trivial
    case join index =>
      refine ⟨stage.1, fun other below => ?_⟩
      have different : other ≠ worker := by
        rintro rfl
        exact frame.started (stage.2 other below)
      rw [frame.others other different]
      exact stage.2 other below
    case clearActive =>
      exact (joined (by rw [startedSlots, here]; exact stage.2)).elim
    case clearEpoch | clearPhase | clearCounters =>
      exact (joined (by rw [startedSlots, here]; exact stage.2.1)).elim
    all_goals exact stage

/-- The join of a slot empties it. -/
theorem Stopping.join (stopping : Stopping dispatch) {index : Nat}
    (here : dispatch.main = .join index) (slot : index < maxHardwareWorkers) :
    Stopping ((dispatch.setWorker ⟨index, slot⟩ .unstarted).setMain (.join (index + 1))) := by
  have stage := stopping.stage
  rw [StopStage, here] at stage
  have each : ∀ (holds : WorkerIndex → WorkerState → Prop), (∀ other, holds other .unstarted) →
      (∀ other, other.val ≠ index → holds other (dispatch.workers other)) → ∀ other,
      holds other (Function.update dispatch.workers ⟨index, slot⟩ .unstarted other) := by
    intro holds gone unchanged other
    by_cases same : other = ⟨index, slot⟩
    · rw [same, Function.update_self]
      exact gone _
    · rw [Function.update_of_ne same]
      exact unchanged other fun value => same (Fin.ext value)
  constructor
  · exact stopping.stopped
  · exact ⟨stopping.empty.queue, each (fun _ state => state.task? = none) (fun _ => rfl)
      fun other _ => stopping.empty.workers other⟩
  · refine ⟨stopping.slots.few, each (fun other state => dispatch.activeWorkerCount ≤ other →
      state = .unstarted) (fun _ _ => rfl) fun other _ above => stopping.slots.beyond other ?_⟩
    rw [startedSlots, here]
    exact above
  · refine ⟨stage.1, each (fun other state => other < index + 1 → state = .unstarted)
      (fun _ _ => rfl) fun other different below => stage.2 other ?_⟩
    exact Nat.lt_of_le_of_ne (Nat.lt_succ_iff.mp below) different

/-- What Shutdown leaves when it returns. -/
theorem Stopping.cleared (stopping : Stopping dispatch) {index : Nat}
    (here : dispatch.main = .clearCounters index) (done : ¬ index < taskGraphMaxNodesV1) :
    { dispatch with taskGraph := none, registry := none, main := .idle } = fresh := by
  have stage := stopping.stage
  rw [StopStage, here] at stage
  obtain ⟨poolRunning, size, count, epoch, phase, counters⟩ := stage
  ext1
  · rfl
  · rfl
  · exact phase
  · exact BoundedQueue.ext stopping.empty.queue
  · funext cell
    exact counters cell (Nat.lt_of_lt_of_le cell.isLt (Nat.not_lt.mp done))
  · exact count
  · exact epoch
  · exact stopping.stopped
  · exact poolRunning
  · exact size
  · funext worker
    apply stopping.slots.unstarted
    rw [startedSlots, here]
    exact size
  · rfl

/-- A step of Shutdown; the last one leaves a fresh dispatcher. -/
theorem Stopping.mainStep (stopping : Stopping dispatch) (moved : MainStep dispatch next event) :
    event ≠ .returnedShutdown ∧ Stopping next ∨ event = .returnedShutdown ∧ next = fresh := by
  have stage := stopping.stage
  unfold StopStage at stage
  cases moved with
  | stopPool here =>
      exact .inl ⟨by rintro ⟨⟩, stopping.advance rfl rfl rfl rfl (by simp only [startedSlots, here])
        ⟨rfl, fun worker below => absurd below (Nat.not_lt_zero worker)⟩⟩
  | joinSkip here more slot unstarted =>
      have same := stopping.join here slot
      rw [setWorker, ← unstarted, Function.update_eq_self] at same
      exact .inl ⟨by rintro ⟨⟩, same⟩
  | join here more slot finished => exact .inl ⟨by rintro ⟨⟩, stopping.join here slot⟩
  | joinFault here more outside =>
      exact absurd (Nat.lt_of_lt_of_le more stopping.slots.few) outside
  | @joined index here done =>
      rw [here] at stage
      have gone : ∀ worker, dispatch.workers worker = .unstarted := by
        intro worker
        by_cases below : worker < index
        · exact stage.2 worker below
        · apply stopping.slots.beyond worker
          rw [startedSlots, here]
          dsimp only
          omega
      exact .inl ⟨by rintro ⟨⟩, stopping.stopped, ⟨stopping.empty.queue, stopping.empty.workers⟩,
        ⟨Nat.zero_le _, fun worker _ => gone worker⟩, stage.1, rfl⟩
  | clearActive here =>
      rw [here] at stage
      exact .inl ⟨by rintro ⟨⟩, stopping.advance rfl rfl rfl rfl (by simp only [startedSlots, here])
        ⟨stage.1, stage.2, rfl⟩⟩
  | clearEpoch here =>
      rw [here] at stage
      exact .inl ⟨by rintro ⟨⟩, stopping.advance rfl rfl rfl rfl (by simp only [startedSlots, here])
        ⟨stage.1, stage.2.1, stage.2.2, rfl⟩⟩
  | clearPhase here =>
      rw [here] at stage
      obtain ⟨poolRunning, size, count, epoch⟩ := stage
      exact .inl ⟨by rintro ⟨⟩, stopping.advance rfl rfl rfl rfl (by simp only [startedSlots, here])
        ⟨poolRunning, size, count, epoch, rfl, fun cell below => absurd below (Nat.not_lt_zero cell)⟩⟩
  | @clearCounters index here more =>
      rw [here] at stage
      obtain ⟨poolRunning, size, count, epoch, phase, counters⟩ := stage
      refine .inl ⟨by rintro ⟨⟩, stopping.advance rfl rfl rfl rfl (by simp only [startedSlots, here])
        ⟨poolRunning, size, count, epoch, phase, fun cell below => ?_⟩⟩
      simp only [FixedArray.set_apply]
      split
      · rfl
      · next different =>
        exact counters cell (Nat.lt_of_le_of_ne (Nat.lt_succ_iff.mp below) different)
  | cleared here done => exact .inr ⟨rfl, stopping.cleared here done⟩
  | waitDone here =>
      rcases here with here | ⟨epoch, here⟩
      all_goals
        rw [here] at stage
        exact stage.elim
  | _ here =>
      rw [here] at stage
      exact stage.elim

/-! ## All stages -/

/-- A broken dispatcher has no session, and stays broken. -/
theorem Broken.step (broken : Broken dispatch) (moved : SystemStep dispatch choice next event) :
    Broken next ∧ event ≠ .initialized true ∧ event ≠ .returnedShutdown := by
  have stage := broken.stage
  cases moved with
  | initializeRefused | ignoredShutdown => exact ⟨broken, nofun, nofun⟩
  | initializeFault | initializeBound | calledPhase =>
      exact ⟨⟨broken.stopped, broken.poolRunning, trivial⟩, nofun, nofun⟩
  | calledShutdown idle running => exact absurd (broken.stopped.symm.trans running) nofun
  | threadFailure here =>
      rw [here] at stage
      exact stage.elim
  | worker moved =>
      have frame := moved.frame
      refine ⟨⟨frame.running.trans broken.stopped, frame.poolRunning.trans broken.poolRunning, ?_⟩, ?_⟩
      · rw [frame.main]
        exact stage
      · cases moved <;> exact ⟨nofun, nofun⟩
  | main moved =>
      cases moved with
      | startPoolRefused | loadRunningRefused =>
          exact ⟨⟨broken.stopped, broken.poolRunning, trivial⟩, nofun, nofun⟩
      | startPool here stopped => exact absurd (broken.poolRunning.symm.trans stopped) nofun
      | loadRunning here running => exact absurd (broken.stopped.symm.trans running) nofun
      | waitDone here =>
          rcases here with here | ⟨epoch, here⟩
          all_goals
            rw [here] at stage
            exact stage.elim
      | _ here =>
          rw [here] at stage
          exact stage.elim

/-- The steps of a dispatcher without a session. -/
theorem Lifecycle.step_fresh (moved : SystemStep fresh choice next event)
    (wellFormed : choice.WellFormed) :
    Lifecycle (events ++ [event]) next ∧ (event = .returnedShutdown → next = fresh) := by
  rcases moved.of_fresh with ⟨rfl, same⟩ | ⟨phase, rfl, rfl⟩ |
    ⟨graph, registry, hardwareConcurrency, rfl, outcome⟩
  · exact ⟨.down (.inl rfl), fun _ => rfl⟩
  · exact ⟨.down (.inr ⟨phase, rfl⟩), nofun⟩
  · rcases outcome with ⟨outside, _⟩ | ⟨valid, rfl, rfl⟩
    · have large := (TaskRegistry.validate_eq_none_iff.mp outside).1
      exact absurd (TaskGraph.WellFormed.nodeCount_le wellFormed) (Nat.not_le.mpr large)
    · exact ⟨.starting (.initial wellFormed valid _), nofun⟩

/-- The steps of a dispatcher that is starting its pool. -/
theorem Starting.step (starting : Starting graph dispatch)
    (moved : SystemStep dispatch choice next event) :
    Lifecycle (events ++ [event]) next ∧ (event = .returnedShutdown → next = fresh) := by
  have stage := starting.stage
  cases moved with
  | worker moved =>
      refine ⟨.starting (starting.workerStep moved), ?_⟩
      cases moved <;> nofun
  | main moved =>
      rcases starting.mainStep moved with ⟨_, same⟩ | ⟨rfl, rest, slots⟩
      · refine ⟨.starting same, ?_⟩
        rintro rfl
        cases moved with
        | cleared here =>
            rw [here] at stage
            exact stage.elim
      · refine ⟨.up ⟨starting.wellFormed, ?_, slots⟩, nofun⟩
        rw [currentSession_concat, if_pos rfl]
        exact .initial rest
  | threadFailure here =>
      rw [here] at stage
      exact ⟨.broken ⟨starting.stopped, stage.1, trivial⟩, nofun⟩
  | _ idle =>
      rw [idle] at stage
      exact stage.elim

/-- The steps of a dispatcher that shuts down. -/
theorem Stopping.step (stopping : Stopping dispatch)
    (moved : SystemStep dispatch choice next event) :
    Lifecycle (events ++ [event]) next ∧ (event = .returnedShutdown → next = fresh) := by
  have stage := stopping.stage
  cases moved with
  | worker moved =>
      refine ⟨.stopping (stopping.workerStep moved), ?_⟩
      cases moved <;> nofun
  | main moved =>
      rcases stopping.mainStep moved with ⟨notReturned, same⟩ | ⟨rfl, same⟩
      · exact ⟨.stopping same, fun returned => absurd returned notReturned⟩
      · exact ⟨.down (.inl same), fun _ => same⟩
  | _ idle =>
      rw [StopStage, idle] at stage
      exact stage.elim

/-- Under the barrier guard every step leads from stage to stage, and the step
in which Shutdown returns leaves a fresh dispatcher. -/
theorem Lifecycle.step (lifecycle : Lifecycle events dispatch)
    (moved : SystemStep dispatch choice next event)
    (permitted : SessionGuard events dispatch choice event) :
    Lifecycle (events ++ [event]) next ∧ (event = .returnedShutdown → next = fresh) := by
  obtain ⟨⟨order, wellFormed⟩, guard⟩ := permitted
  cases lifecycle with
  | down same =>
      rcases same with rfl | ⟨phase, rfl⟩
      · exact step_fresh moved wellFormed
      · obtain ⟨rfl, rfl⟩ := moved.of_refused
        exact ⟨.down (.inl rfl), nofun⟩
  | starting starting => exact starting.step moved
  | up up =>
      have inTick := up.session.tick.schedule.main.inTick
      have within := moved.within_session inTick up.session.tick.running
      refine ⟨?_, fun returned => absurd returned within.2.2⟩
      by_cases shutdown : event = .calledShutdown
      · subst shutdown
        cases moved with
        | calledShutdown idle => exact .stopping (up.shutdown idle)
        | main moved => cases moved
        | worker moved => cases moved
      · exact .up (up.step moved order guard shutdown)
  | stopping stopping => exact stopping.step moved
  | broken broken =>
      obtain ⟨same, _, notReturned⟩ := broken.step moved
      exact ⟨.broken same, fun returned => absurd returned notReturned⟩

end JobDispatch
end MmoServer.Runtime
