import Mathlib.Tactic.Ring
import MmoServer.Runtime.JobDispatch.Steps
import MmoServer.Semantics.Tally

/-!
# What the active count counts

`m_activeTaskCount` is incremented after the Enqueue that makes a task visible
and decremented by whoever finishes the task, so it lags behind the queue. The
lag is exact: up to `2 ^ 32` it is the number of queued tasks, plus one for each
worker that holds a task and is not itself between an Enqueue and the increment
that belongs to it, less the increment the runtime thread still owes. A refused
Enqueue is counted although nothing was queued.

`no_lost_wakeup` draws the first consequence: the last operation that brings
the count to zero while the runtime thread waits is always followed by an epoch
increment.
-/

namespace MmoServer.Runtime

open MmoServer.Std MmoServer.Semantics

/-- A worker's share of the active count: one for the task it holds, less one
while the task it has just enqueued is not counted yet. -/
def WorkerState.active : WorkerState → Nat
  | .execute _ | .executing _ | .loadPhase _ | .release _ _ _ | .enqueue _ _ _ _ => 1
  | .subActive _ | .fault => 1
  | .unstarted | .checkRunning | .dequeue | .addActive _ _ _ => 0
  | .bumpEpoch | .notifyAll | .finished => 0

/-- The increment the runtime thread owes for the task it has just enqueued. -/
def MainState.uncounted : MainState → Nat
  | .seedAdd _ _ => 1
  | _ => 0

/-- A worker between two iterations of its loop. -/
def WorkerState.Idle (state : WorkerState) : Prop :=
  state = .unstarted ∨ state = .checkRunning ∨ state = .dequeue ∨ state = .finished

/-- The runtime thread is inside Shutdown. -/
def MainState.inShutdown : MainState → Bool
  | .stopPool | .join _ | .clearActive | .clearEpoch | .clearPhase | .clearCounters _ => true
  | _ => false

/-- Enqueue has found the ready queue full. -/
def Event.isFailedEnqueue : Event → Bool
  | .enqueued _ accepted => !accepted
  | _ => false

/-- OnTaskCompleted has moved the epoch on. -/
def Event.isEpochBump : Event → Bool
  | .bumpedEpoch => true
  | _ => false

namespace JobDispatch

/-- The number of Enqueue calls that found the queue full. -/
def failedEnqueues (events : List Event) : Nat := tally Event.isFailedEnqueue events

/-- The number of epoch increments. -/
def epochBumps (events : List Event) : Nat := tally Event.isEpochBump events

/-- The active count up to what is queued, held, owed and lost. -/
structure Accounts (events : List Event) (dispatch : JobDispatch) : Prop where
  word : dispatch.activeTaskCount < 2 ^ 32
  balance : (dispatch.activeTaskCount + dispatch.main.uncounted) % 2 ^ 32 =
    (dispatch.readyQueue.items.length + threadSum WorkerState.active dispatch.workers +
      failedEnqueues events) % 2 ^ 32

/-- Slots the pool has not started hold no thread, while no Shutdown runs. -/
structure PoolShape (dispatch : JobDispatch) : Prop where
  open_ : dispatch.main.inShutdown = false
  stopped : dispatch.poolRunning = false → ∀ worker, dispatch.workers worker = .unstarted
  starting : ∀ index, dispatch.main = .startWorker index → dispatch.poolRunning = true ∧
    ∀ worker : WorkerIndex, index ≤ worker → dispatch.workers worker = .unstarted

variable {dispatch next : JobDispatch} {events : List Event} {event : Event} {choice : Choice}
  {worker : WorkerIndex}

@[simp] theorem failedEnqueues_append (events : List Event) (event : Event) :
    failedEnqueues (events ++ [event]) =
      failedEnqueues events + if event.isFailedEnqueue then 1 else 0 := by
  simp [failedEnqueues]

@[simp] theorem epochBumps_append (events : List Event) (event : Event) :
    epochBumps (events ++ [event]) = epochBumps events + if event.isEpochBump then 1 else 0 := by
  simp [epochBumps]

/-- A thread of the pool moves without touching queue, count or its share. -/
theorem Accounts.workerMove (accounts : Accounts events dispatch) {state : WorkerState}
    (share : state.active = (dispatch.workers worker).active)
    (accepted : event.isFailedEnqueue = false)
    (moved : next.workers = Function.update dispatch.workers worker state)
    (count : next.activeTaskCount = dispatch.activeTaskCount)
    (queue : next.readyQueue = dispatch.readyQueue) (main : next.main = dispatch.main) :
    Accounts (events ++ [event]) next := by
  have trade := threadSum_update WorkerState.active dispatch.workers worker state
  have total : threadSum WorkerState.active next.workers =
      threadSum WorkerState.active dispatch.workers := by
    rw [moved]
    omega
  refine ⟨count ▸ accounts.word, ?_⟩
  rw [count, main, queue, total, failedEnqueues_append, accepted]
  simpa using accounts.balance

/-- A worker step trades its own share for a queue item or an increment. -/
theorem Accounts.workerStep (moved : WorkerStep dispatch worker next event)
    (accounts : Accounts events dispatch) : Accounts (events ++ [event]) next := by
  have word := accounts.word
  have balance := accounts.balance
  have trade := threadSum_update WorkerState.active dispatch.workers worker
  cases moved with
  | checkRunning here =>
      refine accounts.workerMove ?_ rfl rfl rfl rfl rfl
      rw [here]
      split <;> rfl
  | dequeueEmpty here none => exact accounts.workerMove (by rw [here]; rfl) rfl rfl rfl rfl rfl
  | @dequeue task rest here taken =>
      have share := trade (.execute task)
      have items := congrArg List.length (BoundedQueue.dequeue_eq_some taken)
      refine ⟨word, ?_⟩
      simp only [here, WorkerState.active, List.length_cons] at share items
      simp only [setWorker, failedEnqueues_append, Event.isFailedEnqueue]
      simp only [Bool.false_eq_true, if_false]
      omega
  | execute here bound => exact accounts.workerMove (by rw [here]; rfl) rfl rfl rfl rfl rfl
  | executing here => exact accounts.workerMove (by rw [here]; rfl) rfl rfl rfl rfl rfl
  | loadPhase here found => exact accounts.workerMove (by rw [here]; rfl) rfl rfl rfl rfl rfl
  | releaseDone here found done =>
      exact accounts.workerMove (by rw [here]; rfl) rfl rfl rfl rfl rfl
  | releaseHeld here bound found more named loaded held =>
      exact accounts.workerMove (by rw [here]; rfl) rfl rfl rfl rfl rfl
  | releaseReady here bound found more named loaded foundChild current =>
      exact accounts.workerMove (by rw [here]; rfl) rfl rfl rfl rfl rfl
  | @enqueue task phase position child here =>
      have share := trade (.addActive task phase position)
      simp only [here, WorkerState.active] at share
      refine ⟨word, ?_⟩
      simp only [setWorker, failedEnqueues_append, Event.isFailedEnqueue]
      rcases BoundedQueue.enqueue_cases dispatch.readyQueue child with
        ⟨_, accepted, items⟩ | ⟨_, refused, same⟩
      · simp only [accepted, items, List.length_append, List.length_singleton]
        simp only [Bool.not_true, Bool.false_eq_true, if_false]
        omega
      · simp only [refused, same, Bool.not_false, if_true]
        omega
  | @addActive task phase position here =>
      have share := trade (.release task phase (position + 1))
      simp only [here, WorkerState.active] at share
      refine ⟨increment32_lt _, ?_⟩
      simp only [setWorker, failedEnqueues_append, Event.isFailedEnqueue, increment32]
      simp only [Bool.false_eq_true, if_false]
      omega
  | @subActive task here =>
      have share := trade (if dispatch.activeTaskCount = 1 then .bumpEpoch else .checkRunning)
      have idle : WorkerState.active
          (if dispatch.activeTaskCount = 1 then .bumpEpoch else .checkRunning) = 0 := by
        split <;> rfl
      rw [here, idle] at share
      simp only [WorkerState.active] at share
      refine ⟨decrement32_lt _, ?_⟩
      simp only [setWorker, failedEnqueues_append, Event.isFailedEnqueue, decrement32]
      simp only [Bool.false_eq_true, if_false]
      omega
  | bumpEpoch here => exact accounts.workerMove (by rw [here]; rfl) rfl rfl rfl rfl rfl
  | notifyAll here => exact accounts.workerMove (by rw [here]; rfl) rfl rfl rfl rfl rfl
  | fault task counters cause =>
      refine accounts.workerMove ?_ rfl rfl rfl rfl rfl
      rcases cause with ⟨here, _⟩ | ⟨here, _⟩ | ⟨phase, position, here, _⟩ <;> rw [here] <;> rfl

/-- The runtime thread moves without touching queue, count, workers or its debt. -/
theorem Accounts.mainMove (accounts : Accounts events dispatch)
    (owed : next.main.uncounted = dispatch.main.uncounted)
    (accepted : event.isFailedEnqueue = false)
    (workers : next.workers = dispatch.workers)
    (count : next.activeTaskCount = dispatch.activeTaskCount)
    (queue : next.readyQueue = dispatch.readyQueue) : Accounts (events ++ [event]) next := by
  refine ⟨count ▸ accounts.word, ?_⟩
  rw [count, owed, queue, workers, failedEnqueues_append, accepted]
  simpa using accounts.balance

/-- A step of the runtime thread outside Shutdown keeps the balance. -/
theorem Accounts.mainStep (moved : MainStep dispatch next event) (shape : PoolShape dispatch)
    (accounts : Accounts events dispatch) : Accounts (events ++ [event]) next := by
  have word := accounts.word
  have balance := accounts.balance
  have running := shape.open_
  cases moved with
  | startPoolRefused here | startPool here | startedWorkers here | storeRunning here
  | loadRunning here | loadRunningRefused here | build here | buildDone here | loadSeedPhase here
  | seedDone here | waitBusy here | waitEpoch here | waitRecheck here | waitReturned here
  | startWorkerFault here | buildFault here | seedFault here =>
      exact accounts.mainMove (by rw [here]; rfl) rfl rfl rfl rfl
  | storePhase here =>
      refine accounts.mainMove ?_ rfl rfl rfl rfl
      rw [here]
      dsimp only
      split <;> rfl
  | seed here =>
      refine accounts.mainMove ?_ rfl rfl rfl rfl
      rw [here]
      dsimp only [setMain]
      split <;> rfl
  | waitDone here =>
      refine accounts.mainMove ?_ rfl rfl rfl rfl
      rcases here with here | ⟨epoch, here⟩
      all_goals simp only [here, setMain, MainState.uncounted]
  | @startWorker index here more slot =>
      have unstarted := (shape.starting index here).2 ⟨index, slot⟩ (Nat.le_refl _)
      have trade := threadSum_update WorkerState.active dispatch.workers ⟨index, slot⟩ .checkRunning
      simp only [unstarted, WorkerState.active] at trade
      refine ⟨word, ?_⟩
      simp only [here, MainState.uncounted] at balance
      simp only [setMain, setWorker, MainState.uncounted, failedEnqueues_append,
        Event.isFailedEnqueue, Bool.false_eq_true, if_false]
      omega
  | @seedEnqueue phase position task here =>
      refine ⟨word, ?_⟩
      simp only [here, MainState.uncounted] at balance
      simp only [MainState.uncounted, failedEnqueues_append, Event.isFailedEnqueue]
      rcases BoundedQueue.enqueue_cases dispatch.readyQueue task with
        ⟨_, accepted, items⟩ | ⟨_, refused, same⟩
      · simp only [accepted, items, List.length_append, List.length_singleton]
        simp only [Bool.not_true, Bool.false_eq_true, if_false]
        omega
      · simp only [refused, same, Bool.not_false, if_true]
        omega
  | seedAdd here =>
      refine ⟨increment32_lt _, ?_⟩
      simp only [here, MainState.uncounted] at balance
      simp only [MainState.uncounted, failedEnqueues_append, Event.isFailedEnqueue, increment32]
      simp only [Bool.false_eq_true, if_false]
      omega
  | stopPool here | joinSkip here | join here | joinFault here | joined here | clearActive here
  | clearEpoch here | clearPhase here | clearCounters here | cleared here =>
      rw [here] at running
      cases running

/-- Every step outside Shutdown keeps the balance. -/
theorem Accounts.step (moved : SystemStep dispatch choice next event) (shape : PoolShape dispatch)
    (accounts : Accounts events dispatch) : Accounts (events ++ [event]) next := by
  cases moved with
  | initializeRefused | ignoredShutdown => exact accounts.mainMove rfl rfl rfl rfl rfl
  | initializeFault idle | initializeBound idle | calledPhase idle
  | calledShutdown idle | threadFailure idle =>
      exact accounts.mainMove (by rw [idle]; rfl) rfl rfl rfl rfl
  | main moved => exact accounts.mainStep moved shape
  | worker moved => exact accounts.workerStep moved

/-- The runtime thread moves outside Shutdown and outside WorkerPool::Start. -/
theorem PoolShape.mainMove (shape : PoolShape dispatch) (workers : next.workers = dispatch.workers)
    (poolRunning : next.poolRunning = dispatch.poolRunning)
    (outside : next.main.inShutdown = false) (notStarting : ∀ index, next.main ≠ .startWorker index) :
    PoolShape next := by
  refine ⟨outside, fun stopped worker => ?_, fun index here => absurd here (notStarting index)⟩
  rw [workers]
  exact shape.stopped (poolRunning ▸ stopped) worker

/-- The runtime thread keeps the shape of the pool. -/
theorem PoolShape.mainStep (moved : MainStep dispatch next event) (shape : PoolShape dispatch) :
    PoolShape next := by
  have running := shape.open_
  cases moved with
  | startPoolRefused here | startedWorkers here | storeRunning here
  | loadRunning here | loadRunningRefused here | build here | buildDone here | loadSeedPhase here
  | seedDone here | waitBusy here | waitEpoch here | waitRecheck here | waitReturned here
  | startWorkerFault here | buildFault here | seedFault here | seedEnqueue here | seedAdd here
  | waitDone here =>
      exact shape.mainMove rfl rfl rfl nofun
  | @storePhase phase here =>
      refine shape.mainMove rfl rfl ?_ ?_
      all_goals dsimp only; split
      all_goals first | rfl | nofun
  | @seed phase position graph node remaining here =>
      refine shape.mainMove rfl rfl ?_ ?_
      all_goals dsimp only [setMain]; split
      all_goals first | rfl | nofun
  | startPool here stopped =>
      exact ⟨rfl, nofun, fun index _ => ⟨rfl, fun worker _ => shape.stopped stopped worker⟩⟩
  | @startWorker index here more slot =>
      obtain ⟨poolRunning, unstarted⟩ := shape.starting index here
      refine ⟨rfl, fun stopped => ?_, fun later same => ⟨poolRunning, fun worker above => ?_⟩⟩
      · exact absurd (poolRunning.symm.trans stopped) nofun
      · cases same
        have above' : index < worker := above
        have different : worker ≠ ⟨index, slot⟩ := by
          rintro rfl
          exact Nat.lt_irrefl _ above'
        simp only [setMain, setWorker]
        rw [Function.update_of_ne different]
        exact unstarted worker (Nat.le_of_lt above')
  | stopPool here | joinSkip here | join here | joinFault here | joined here | clearActive here
  | clearEpoch here | clearPhase here | clearCounters here | cleared here =>
      rw [here] at running
      cases running

/-- The slots keep their shape as long as Shutdown is not entered. -/
theorem PoolShape.step (moved : SystemStep dispatch choice next event) (shape : PoolShape dispatch)
    (notShutdown : event ≠ .calledShutdown) : PoolShape next := by
  cases moved with
  | initializeRefused | ignoredShutdown => exact shape
  | initializeFault | initializeBound | calledPhase | threadFailure =>
      exact shape.mainMove rfl rfl rfl nofun
  | calledShutdown => exact absurd rfl notShutdown
  | main moved => exact shape.mainStep moved
  | @worker index _ _ moved =>
      have frame := moved.frame
      refine ⟨frame.main ▸ shape.open_, fun stopped => ?_, fun start here => ?_⟩
      · exact absurd (shape.stopped (frame.poolRunning ▸ stopped) index) frame.started
      · rw [frame.main] at here
        obtain ⟨poolRunning, starting⟩ := shape.starting start here
        refine ⟨frame.poolRunning ▸ poolRunning, fun worker above => ?_⟩
        have unstarted := starting worker above
        have different : worker ≠ index := by
          rintro rfl
          exact frame.started unstarted
        rw [frame.others worker different]
        exact unstarted

/-- A new dispatcher has no worker. -/
theorem PoolShape.fresh : PoolShape fresh :=
  ⟨rfl, fun _ _ => rfl, nofun⟩

/-- Nothing is counted on a new dispatcher. -/
theorem Accounts.fresh : Accounts [] fresh := by
  refine ⟨by decide, ?_⟩
  have idle : threadSum WorkerState.active JobDispatch.fresh.workers = 0 :=
    threadSum_eq_zero_iff.mpr fun _ => rfl
  rw [idle]
  rfl

/-- A worker has at most one share of the active count. -/
theorem WorkerState.active_le (state : WorkerState) : state.active ≤ 1 := by
  cases state <;> simp [WorkerState.active]

/-- With no refused Enqueue the counted total is far below the word size, so a
zero count means that nothing is queued, held or owed. -/
theorem Accounts.exact (accounts : Accounts events dispatch) (owes : dispatch.main.uncounted = 0)
    (small : failedEnqueues events < 2 ^ 31) :
    dispatch.activeTaskCount = dispatch.readyQueue.items.length +
      threadSum WorkerState.active dispatch.workers + failedEnqueues events := by
  have word := accounts.word
  have balance := accounts.balance
  have queued := dispatch.readyQueue.bounded
  have held : threadSum WorkerState.active dispatch.workers ≤ maxHardwareWorkers :=
    threadSum_le_count fun worker => WorkerState.active_le _
  have slots : maxHardwareWorkers = 32 := rfl
  have capacity : taskGraphMaxNodesV1 = 256 := rfl
  rw [owes] at balance
  omega

/-! ## No lost wakeup -/

/-- What the wait loop relies on: an epoch it has loaded is not ahead of the
increments made, and while it is blocked on the current epoch either tasks are
still counted or the worker that counted the last one is about to increment. -/
structure Wakeup (events : List Event) (dispatch : JobDispatch) : Prop where
  epoch : dispatch.phaseEpoch = epochBumps events % 2 ^ 64
  loaded : ∀ epoch, dispatch.main = .waitRecheck epoch ∨ dispatch.main = .waitBlocked epoch →
    epoch ≤ epochBumps events
  pending : ∀ epoch, dispatch.main = .waitBlocked epoch → epochBumps events = epoch →
    dispatch.activeTaskCount ≠ 0 ∨ ∃ worker, dispatch.workers worker = .bumpEpoch

/-- The runtime thread is outside the guarded part of the wait loop. -/
theorem Wakeup.mainMove (wakeup : Wakeup events dispatch)
    (epoch : next.phaseEpoch = dispatch.phaseEpoch) (quiet : event.isEpochBump = false)
    (outside : ∀ epoch, next.main ≠ .waitRecheck epoch ∧ next.main ≠ .waitBlocked epoch) :
    Wakeup (events ++ [event]) next := by
  refine ⟨?_, fun epoch here => ?_, fun epoch here => absurd here (outside epoch).2⟩
  · rw [epoch, epochBumps_append, quiet]
    simpa using wakeup.epoch
  · rcases here with here | here
    · exact absurd here (outside epoch).1
    · exact absurd here (outside epoch).2

/-- The runtime thread sleeps only where somebody will wake it. -/
theorem Wakeup.mainStep (moved : MainStep dispatch next event)
    (open_ : dispatch.main.inShutdown = false) (wakeup : Wakeup events dispatch) :
    Wakeup (events ++ [event]) next := by
  cases moved with
  | startPoolRefused here | startPool here | startWorker here | startedWorkers here
  | storeRunning here | loadRunning here | loadRunningRefused here | build here | buildDone here
  | loadSeedPhase here | seedDone here | waitBusy here | waitDone here | waitReturned here
  | startWorkerFault here | buildFault here | seedFault here | seedEnqueue here | seedAdd here =>
      exact wakeup.mainMove rfl rfl fun epoch => ⟨nofun, nofun⟩
  | storePhase here | seed here =>
      refine wakeup.mainMove rfl rfl fun epoch => ?_
      simp only [setMain]
      split <;> exact ⟨nofun, nofun⟩
  | waitEpoch here =>
      refine ⟨?_, fun epoch same => ?_, nofun⟩
      · rw [epochBumps_append]
        simpa [Event.isEpochBump, setMain] using wakeup.epoch
      · rcases same with same | same
        · cases same
          rw [wakeup.epoch, epochBumps_append]
          exact Nat.le_trans (Nat.mod_le _ _) (Nat.le_add_right _ _)
        · cases same
  | @waitRecheck loaded here busy =>
      have bounded := wakeup.loaded loaded (.inl here)
      refine ⟨?_, fun epoch same => ?_, fun epoch same current => .inl busy⟩
      · rw [epochBumps_append]
        simpa [Event.isEpochBump, setMain] using wakeup.epoch
      · rcases same with same | same
        · cases same
        · cases same
          rw [epochBumps_append]
          exact Nat.le_trans bounded (Nat.le_add_right _ _)
  | stopPool here | joinSkip here | join here | joinFault here | joined here | clearActive here
  | clearEpoch here | clearPhase here | clearCounters here | cleared here =>
      rw [here] at open_
      cases open_

/-- A worker that moves without touching the active count or the epoch. -/
theorem Wakeup.workerMove (wakeup : Wakeup events dispatch) (quiet : event.isEpochBump = false)
    (main : next.main = dispatch.main) (epoch : next.phaseEpoch = dispatch.phaseEpoch)
    (count : next.activeTaskCount = dispatch.activeTaskCount)
    (others : ∀ other, other ≠ worker → next.workers other = dispatch.workers other)
    (leaving : dispatch.workers worker ≠ .bumpEpoch) : Wakeup (events ++ [event]) next := by
  have bumps : epochBumps (events ++ [event]) = epochBumps events := by simp [quiet]
  refine ⟨?_, fun epoch here => ?_, fun epoch here current => ?_⟩
  · rw [epoch, bumps]
    exact wakeup.epoch
  · rw [main] at here
    rw [bumps]
    exact wakeup.loaded epoch here
  · rw [main] at here
    rw [bumps] at current
    rcases wakeup.pending epoch here current with busy | ⟨bumping, there⟩
    · exact .inl (count ▸ busy)
    · refine .inr ⟨bumping, ?_⟩
      rw [others bumping fun same => leaving (same ▸ there)]
      exact there

/-- The worker that takes the count to zero wakes it. -/
theorem Wakeup.workerStep (moved : WorkerStep dispatch worker next event)
    (word : dispatch.activeTaskCount < 2 ^ 32) (accounts : Accounts (events ++ [event]) next)
    (accepted : failedEnqueues (events ++ [event]) = 0) (wakeup : Wakeup events dispatch) :
    Wakeup (events ++ [event]) next := by
  have frame := moved.frame
  cases moved with
  | checkRunning here | dequeueEmpty here | dequeue here | execute here | executing here
  | loadPhase here | releaseDone here | releaseHeld here | releaseReady here | enqueue here
  | notifyAll here =>
      exact wakeup.workerMove rfl rfl rfl rfl frame.others (by simp [here])
  | fault task counters cause =>
      refine wakeup.workerMove rfl rfl rfl rfl frame.others ?_
      rcases cause with ⟨here, _⟩ | ⟨here, _⟩ | ⟨phase, position, here, _⟩ <;> simp [here]
  | @addActive task phase position here =>
      -- The worker now counts as one, and the count cannot have wrapped to zero.
      have bumps : epochBumps (events ++ [.silent]) = epochBumps events := by
        simp [Event.isEpochBump]
      refine ⟨bumps ▸ wakeup.epoch, fun epoch there => bumps ▸ wakeup.loaded epoch there,
        fun epoch there _ => .inl ?_⟩
      have owes := congrArg MainState.uncounted there
      have total := accounts.exact owes (accepted ▸ by decide)
      have held := weight_le_threadSum WorkerState.active
        (Function.update dispatch.workers worker (.release task phase (position + 1))) worker
      rw [Function.update_self] at held
      simp only [setWorker, WorkerState.active] at total held ⊢
      omega
  | @subActive task here =>
      have bumps : epochBumps (events ++ [.completedTask worker task]) = epochBumps events := by
        simp [Event.isEpochBump]
      refine ⟨bumps ▸ wakeup.epoch, fun epoch there => bumps ▸ wakeup.loaded epoch there,
        fun epoch there _ => ?_⟩
      by_cases last : dispatch.activeTaskCount = 1
      · exact .inr ⟨worker, by simp [setWorker, last]⟩
      · refine .inl ?_
        simp only [setWorker, decrement32]
        omega
  | bumpEpoch here =>
      have bumps : epochBumps (events ++ [.bumpedEpoch]) = epochBumps events + 1 := by
        simp [Event.isEpochBump]
      refine ⟨?_, fun epoch there => ?_, fun epoch there current => ?_⟩
      · simp only [setWorker, bumps, wakeup.epoch]
        omega
      · have bounded := wakeup.loaded epoch there
        omega
      · have bounded := wakeup.loaded epoch (.inr there)
        omega

/-- Nobody sleeps on a new dispatcher. -/
theorem Wakeup.fresh : Wakeup [] fresh :=
  ⟨rfl, fun _ here => (here.elim nofun nofun), nofun⟩

/-- No step loses the wake-up. -/
theorem Wakeup.step (moved : SystemStep dispatch choice next event) (shape : PoolShape dispatch)
    (word : dispatch.activeTaskCount < 2 ^ 32) (accounts : Accounts (events ++ [event]) next)
    (accepted : failedEnqueues (events ++ [event]) = 0) (wakeup : Wakeup events dispatch) :
    Wakeup (events ++ [event]) next := by
  cases moved with
  | initializeRefused idle | ignoredShutdown idle =>
      exact wakeup.mainMove rfl rfl fun epoch => by simp [idle]
  | initializeFault | initializeBound | calledPhase | calledShutdown | threadFailure =>
      exact wakeup.mainMove rfl rfl fun epoch => ⟨nofun, nofun⟩
  | main moved => exact wakeup.mainStep moved shape.open_
  | worker moved => exact wakeup.workerStep moved word accounts accepted

/-- The three invariants of a session, along every run in which no Enqueue was
refused and Shutdown was not entered. -/
theorem session_invariant (run : system.Runs fresh events dispatch)
    (accepted : failedEnqueues events = 0) (running : .calledShutdown ∉ events) :
    PoolShape dispatch ∧ Accounts events dispatch ∧ Wakeup events dispatch := by
  have every : ∀ event ∈ events, event.isFailedEnqueue = false ∧ event ≠ .calledShutdown := by
    intro event member
    exact ⟨tally_eq_zero_iff.mp accepted event member, fun same => running (same ▸ member)⟩
  have invariant := (run.restrict _ every).invariant (fun events dispatch =>
    PoolShape dispatch ∧ Accounts events dispatch ∧ Wakeup events dispatch ∧
      failedEnqueues events = 0) ⟨PoolShape.fresh, Accounts.fresh, Wakeup.fresh, rfl⟩ ?_
  · exact ⟨invariant.1, invariant.2.1, invariant.2.2.1⟩
  · rintro events dispatch choice next event - ⟨shape, accounts, wakeup, none⟩ transition
      ⟨-, notFailed, notShutdown⟩
    have moved := step_sound transition
    have accounts' := accounts.step moved shape
    have none' : failedEnqueues (events ++ [event]) = 0 := by simp [none, notFailed]
    exact ⟨shape.step moved notShutdown, accounts',
      wakeup.step moved shape accounts.word accounts' none', none'⟩

/-- The runtime thread is blocked on the current epoch although the queue is
empty and every worker is between two loop iterations. -/
def Stalled (dispatch : JobDispatch) : Prop :=
  dispatch.main = .waitBlocked dispatch.phaseEpoch ∧ dispatch.readyQueue.items = [] ∧
    ∀ worker, (dispatch.workers worker).Idle

/-- As long as every Enqueue succeeded, Shutdown was not entered and the epoch
did not wrap, the barrier never misses its wakeup: whatever the graph, the
worker count and the order of phases and steps. -/
theorem no_lost_wakeup (run : system.Runs fresh events dispatch)
    (accepted : failedEnqueues events = 0) (running : .calledShutdown ∉ events)
    (fewer : epochBumps events < 2 ^ 64) : ¬ dispatch.Stalled := by
  rintro ⟨blocked, empty, idle⟩
  obtain ⟨_, accounts, wakeup⟩ := session_invariant run accepted running
  have bumps : epochBumps events = dispatch.phaseEpoch := by
    rw [wakeup.epoch, Nat.mod_eq_of_lt fewer]
  have held : threadSum WorkerState.active dispatch.workers = 0 := by
    refine threadSum_eq_zero_iff.mpr fun worker => ?_
    rcases idle worker with here | here | here | here <;> rw [here] <;> rfl
  have zero : dispatch.activeTaskCount = 0 := by
    rw [accounts.exact (by rw [blocked]; rfl) (accepted ▸ by decide), empty, held, accepted]
    rfl
  rcases wakeup.pending _ blocked bumps with busy | ⟨worker, bumping⟩
  · exact busy zero
  · rcases idle worker with here | here | here | here <;> rw [bumping] at here <;> cases here

/-- The chain run until its worker is idle again, with the runtime thread still
inside the wait for the epoch that the worker has bumped. -/
theorem linear_no_lost_wakeup : ∃ events finish, system.Runs fresh events finish ∧
    finish.main = .waitBlocked 0 ∧ finish.phaseEpoch = 1 ∧ ¬ finish.Stalled := by
  obtain ⟨events, finish, run, blocked, bumped, accepted, notShutdown, fewer⟩ :=
    system.runs_of_exec (fun _ _ _ _ => True) fresh
    (.call (.initializeWith .linearGraph .full 1) :: List.replicate 4 .main ++
      callThen .input 16 ++ work 0 31)
    (fun finish events => finish.main = .waitBlocked 0 ∧ finish.phaseEpoch = 1 ∧
      failedEnqueues events = 0 ∧ Event.calledShutdown ∉ events ∧ epochBumps events < 2 ^ 64)
    (by decide +kernel)
  exact ⟨events, finish, run, blocked, bumped, no_lost_wakeup run accepted notShutdown fewer⟩

end JobDispatch
end MmoServer.Runtime
