import MmoServer.Runtime.JobDispatch.QueuedRefinement

/-!
# Sessions on the real ready queue

Every run of a dispatcher on its own `MPMCQueue` is one of a dispatcher on an atomic queue, for
which the sequence store of Enqueue appends the task and the successful compare-exchange of
Dequeue takes the oldest one (`Simulated`). So what holds of the sessions of a layered graph
holds of the real ones, and no step of either call has to be assumed indivisible.
-/

namespace MmoServer.Runtime

open MmoServer.LockfreeQueue MmoServer.Semantics MmoServer.Std

namespace QueuedDispatch

variable {queued next : QueuedDispatch} {dispatch later start : JobDispatch}
  {worker : WorkerIndex} {nextQueue : MPMCQueue TaskId readyQueueCapacity}
  {storage : Fin readyQueueCapacity.value → TaskId} {thread : ThreadIndex} {spurious : Bool}
  {left : TaskId} {abstract more : List Runtime.Event} {events : List Event}

/-! ## Steps -/

/-- A run of the dispatcher on its own queue as one of the dispatcher on an atomic queue. -/
structure Simulated (start : JobDispatch) (storage : Fin readyQueueCapacity.value → TaskId)
    (events : List Event) (queued : QueuedDispatch) (abstract : List Runtime.Event)
    (dispatch : JobDispatch) : Prop where
  run : JobDispatch.system.Runs start abstract dispatch
  shown : observed abstract = observed (dispatchEvents events)
  represents : Represents queued dispatch
  placed : Placed queued
  fifo : queued.readyQueue.Fifo runtimeThread storage (queueEvents events)
  lap : Lap abstract queued.readyQueue

theorem dispatchEvents_concat (events : List Event) (event : Event) :
    dispatchEvents (events ++ [event]) = dispatchEvents events ++ dispatchEvents [event] :=
  List.filterMap_append

theorem queueEvents_concat (events : List Event) (event : Event) :
    queueEvents (events ++ [event]) = queueEvents events ++ queueEvents [event] :=
  List.filterMap_append

theorem observed_append (front rest : List Runtime.Event) :
    observed (front ++ rest) = observed front ++ observed rest := List.filter_append ..

/-- A step of the queue that the atomic queue does not take. -/
theorem Simulated.stutter (simulated : Simulated start storage events queued abstract dispatch)
    (shown : MPMCQueue.Event TaskId) (next : QueuedDispatch)
    (only : next.readyQueue.Fifo runtimeThread storage (queueEvents events ++ [shown]))
    (transition : ∃ choice, queued.readyQueue.step choice = some (next.readyQueue, shown))
    (serves : queued.readyQueue.Serves runtimeThread next.readyQueue shown)
    (quiet : publishes shown = 0) (represents : Represents next dispatch)
    (placed : Placed next) :
    Simulated start storage (events ++ [.queue shown]) next abstract dispatch where
  run := simulated.run
  shown := by
    rw [dispatchEvents_concat]
    exact simulated.shown.trans (congrArg observed (List.append_nil _).symm)
  represents := represents
  placed := placed
  fifo := by
    rw [queueEvents_concat]
    exact only
  lap := simulated.lap.queueStep simulated.fifo only transition serves (by rw [quiet]; rfl)

/-- A step of the queue that the atomic queue takes at the same time. -/
theorem Simulated.serve (simulated : Simulated start storage events queued abstract dispatch)
    (shown : MPMCQueue.Event TaskId) (next : QueuedDispatch)
    (only : next.readyQueue.Fifo runtimeThread storage (queueEvents events ++ [shown]))
    (transition : ∃ choice, queued.readyQueue.step choice = some (next.readyQueue, shown))
    (serves : queued.readyQueue.Serves runtimeThread next.readyQueue shown)
    {choice : Runtime.Choice} {event : Runtime.Event}
    (moved : dispatch.step choice = some (later, event)) (hidden : event.ofQueue = true)
    (counted : (if event.isEnqueued then 1 else 0) = publishes shown)
    (represents : Represents next later) (placed : Placed next) :
    Simulated start storage (events ++ [.queue shown]) next (abstract ++ [event]) later where
  run := .step simulated.run moved trivial
  shown := by
    have nothing : observed [event] = [] := by
      rw [observed, List.filter_cons_of_neg (by simp [hidden]), List.filter_nil]
    rw [dispatchEvents_concat, observed_append, nothing, simulated.shown, List.append_nil]
    exact congrArg observed (List.append_nil _).symm
  represents := represents
  placed := placed
  fifo := by
    rw [queueEvents_concat]
    exact only
  lap := by
    refine simulated.lap.queueStep simulated.fifo only transition serves ?_
    rw [JobDispatch.currentTick_concat, if_neg (by rintro rfl; cases hidden), tally_concat, counted]

/-- A step outside of the calls of the queue. -/
theorem Simulated.dispatched (simulated : Simulated start storage events queued abstract dispatch)
    {graph : TaskGraph} (session : JobDispatch.Session graph abstract dispatch)
    {choice : Runtime.Choice} {event : Event}
    (moved : queued.step (.dispatch choice) = some (next, event)) :
    ∃ shown later, event = .dispatch shown ∧
      Simulated start storage (events ++ [event]) next (abstract ++ [shown]) later := by
  simp only [step] at moved
  split at moved
  · cases moved
  · next off =>
    obtain ⟨⟨after, event⟩, advanced, same⟩ := Option.map_eq_some_iff.mp moved
    cases same
    have outside := Bool.eq_false_iff.mpr off
    have main : queued.dispatch.main = dispatch.main :=
      (congrArg JobDispatch.main simulated.represents.same).symm
    have inTick : queued.dispatch.main.inTick = true := by
      rw [main]
      exact session.tick.schedule.main.inTick
    obtain ⟨later, taken, represents, placed⟩ :=
      simulated.represents.dispatchStep simulated.placed inTick outside advanced
    refine ⟨event, later, rfl, .step simulated.run taken trivial, ?_, represents, placed, ?_, ?_⟩
    · rw [dispatchEvents_concat, observed_append, observed_append, simulated.shown]
      rfl
    · rw [queueEvents_concat]
      exact (List.append_nil _).symm ▸ simulated.fifo
    · exact simulated.lap.dispatchStep simulated.represents simulated.placed session
        (JobDispatch.step_sound taken)
        (isEnqueued_eq_false outside (JobDispatch.step_sound advanced))

/-- An Enqueue takes effect when it stores the sequence of its slot. -/
theorem Simulated.published (simulated : Simulated start storage events queued abstract dispatch)
    {phase : RuntimePhaseId} {position : Nat} {task : TaskId} {pos : QueueSequence}
    (here : queued.dispatch.main = .seedEnqueue phase position task)
    (only : nextQueue.Fifo runtimeThread storage
      (queueEvents events ++ [.enqueue runtimeThread (.published pos task)]))
    (transition : ∃ choice, queued.readyQueue.step choice =
      some (nextQueue, .enqueue runtimeThread (.published pos task)))
    (serves : queued.readyQueue.Serves runtimeThread nextQueue
      (.enqueue runtimeThread (.published pos task)))
    (placed : Placed ⟨queued.dispatch.setMain (.seedAdd phase position), nextQueue⟩) :
    ∃ more later, Simulated start storage
      (events ++ [.queue (.enqueue runtimeThread (.published pos task))])
      ⟨queued.dispatch.setMain (.seedAdd phase position), nextQueue⟩ more later := by
  have room : (nextQueue.waiting runtimeThread).length ≤ taskGraphMaxNodesV1 :=
    only.length_waiting_le
  have taken : ∃ later, dispatch.step .main = some (later, .enqueued task true) ∧
      Represents ⟨queued.dispatch.setMain (.seedAdd phase position), nextQueue⟩ later :=
    simulated.represents.enqueue here rfl serves.1 serves.2 room
  obtain ⟨later, accepted, represents⟩ := taken
  refine ⟨abstract ++ [.enqueued task true], later, ?_⟩
  exact simulated.serve (.enqueue runtimeThread (.published pos task))
    ⟨queued.dispatch.setMain (.seedAdd phase position), nextQueue⟩ only transition serves accepted
    rfl rfl represents placed

theorem claims_lt {history : List (MPMCQueue.Event TaskId)}
    (few : tally MPMCQueue.Event.claimsTail history + readyQueueCapacity.value ≤ 2 ^ 63) :
    tally MPMCQueue.Event.claimsTail history < 2 ^ 63 :=
  Nat.lt_of_lt_of_le (Nat.lt_add_of_pos_right (by decide)) few

/-- An Enqueue that is refused would be one behind a consumer of the lap before, which belongs
to an earlier tick. -/
theorem Simulated.not_refused (simulated : Simulated start storage events queued abstract dispatch)
    {graph : TaskGraph} (kept : JobDispatch.LayeredSession graph abstract dispatch)
    (wellFormed : graph.WellFormed)
    (few : tally MPMCQueue.Event.claimsTail (queueEvents events) + readyQueueCapacity.value ≤
      2 ^ 63)
    {phase : RuntimePhaseId} {position : Nat} {task : TaskId}
    (here : queued.dispatch.main = .seedEnqueue phase position task)
    {choice : MPMCQueue.Choice TaskId}
    (refused : queued.readyQueue.step choice = some (nextQueue, .enqueue thread .refused)) :
    False := by
  have count := enqueued_lt kept wellFormed
    ((congrArg JobDispatch.main simulated.represents.same).trans here)
  obtain ⟨first, low, readers, counted⟩ := simulated.lap
  have size : readyQueueCapacity.value = taskGraphMaxNodesV1 := rfl
  rcases simulated.fifo.enqueue_refused few simulated.placed.oneProducer refused with
    full | ⟨consumer, pos, reads, lap⟩
  · omega
  · have recent := readers consumer pos reads
    omega

/-- The runtime thread takes a step of Enqueue, which is not refused. -/
theorem Simulated.enqueued (simulated : Simulated start storage events queued abstract dispatch)
    {graph : TaskGraph} (kept : JobDispatch.LayeredSession graph abstract dispatch)
    (wellFormed : graph.WellFormed)
    (few : tally MPMCQueue.Event.claimsTail (queueEvents events) + readyQueueCapacity.value ≤
      2 ^ 63)
    {event : Event} (moved : queued.step (.main spurious left) = some (next, event)) :
    (∃ more later, Simulated start storage (events ++ [event]) next more later) ∧
      ∀ thread, event ≠ .queue (.enqueue thread .refused) := by
  simp only [step] at moved
  obtain ⟨call, called, inner⟩ := Option.bind_eq_some_iff.mp moved
  obtain ⟨⟨nextQueue, shown⟩, advanced, same⟩ := Option.map_eq_some_iff.mp inner
  cases same
  obtain ⟨phase, position, task, here, rfl⟩ := main_call called
  obtain ⟨choice, taken⟩ := queueStep_choice advanced
  obtain ⟨only, serves⟩ :=
    simulated.fifo.step (claims_lt few) simulated.placed.oneProducer taken
  rcases queueStep_cases advanced with ⟨idle, rfl, threads⟩ | ⟨state, inside, rfl, threads⟩ |
    ⟨state, inside, -, -⟩
  · refine ⟨⟨abstract, dispatch, simulated.stutter _ _ only ⟨choice, taken⟩ serves rfl
      (simulated.represents.keep rfl serves) ?_⟩, by rintro _ ⟨⟩⟩
    refine simulated.placed.mainQueue threads (.inr ⟨_, rfl, ?_⟩)
    rw [here]
    rfl
  · obtain ⟨enqueuing, there, offered⟩ := simulated.placed.main.resolve_left fun idle => by
      cases idle.symm.trans inside
    cases there.symm.trans inside
    obtain rfl : task = MPSCQueue.offering state := by
      rw [here] at offered
      cases offered
      rfl
    have outcome := MPMCQueue.enqueue_cases state queued.readyQueue.slots queued.readyQueue.tail
      spurious
    generalize (state.step queued.readyQueue.slots queued.readyQueue.tail spurious).event = event
      at outcome only taken serves threads ⊢
    generalize (state.step queued.readyQueue.slots queued.readyQueue.tail spurious).state = after
      at outcome threads
    rcases outcome with ⟨later, rfl, offers, notRefused, notPublished⟩ | ⟨rfl, rfl | ⟨pos, rfl⟩⟩
    · -- The call goes on: the atomic queue does not change before the sequence store.
      cases event with
      | refused => exact absurd rfl notRefused
      | published pos item => exact absurd rfl (notPublished pos item)
      | _ =>
          refine ⟨⟨abstract, dispatch, simulated.stutter _ _ only ⟨choice, taken⟩ serves rfl
            (simulated.represents.keep rfl serves) (simulated.placed.mainQueue threads
              (.inr ⟨later, rfl, ?_⟩))⟩, by rintro _ ⟨⟩⟩
          exact offered.trans (by rw [offers])
    · exact (simulated.not_refused kept wellFormed few here taken).elim
    · rw [here]
      exact ⟨simulated.published here only ⟨choice, taken⟩ serves
        (simulated.placed.mainQueue threads (.inl rfl)), by rintro _ ⟨⟩⟩
  · rcases simulated.placed.main with idle | ⟨enqueuing, there, -⟩
    · cases idle.symm.trans inside
    · cases there.symm.trans inside

/-- A Dequeue takes effect when it claims a position. -/
theorem Simulated.claimed (simulated : Simulated start storage events queued abstract dispatch)
    {pos : QueueSequence} (here : queued.dispatch.workers worker = .dequeue)
    (same : next.dispatch = queued.dispatch)
    (only : next.readyQueue.Fifo runtimeThread storage
      (queueEvents events ++ [.dequeue (workerThread worker) (.claimed pos)]))
    (transition : ∃ choice, queued.readyQueue.step choice =
      some (next.readyQueue, .dequeue (workerThread worker) (.claimed pos)))
    (serves : queued.readyQueue.Serves runtimeThread next.readyQueue
      (.dequeue (workerThread worker) (.claimed pos)))
    (placed : Placed next) :
    ∃ more later, Simulated start storage
      (events ++ [.queue (.dequeue (workerThread worker) (.claimed pos))]) next more later := by
  obtain ⟨free, task, taken, due⟩ := id serves
  obtain ⟨later, moved, represents⟩ := simulated.represents.claim here same free taken due
  exact ⟨abstract ++ [.dequeued worker task], later,
    simulated.serve (.dequeue (workerThread worker) (.claimed pos)) next only transition serves
      moved rfl rfl represents placed⟩

/-- A Dequeue that is refused finds the atomic queue empty. -/
theorem Simulated.refused (simulated : Simulated start storage events queued abstract dispatch)
    (here : queued.dispatch.workers worker = .dequeue)
    (only : nextQueue.Fifo runtimeThread storage
      (queueEvents events ++ [.dequeue (workerThread worker) .refused]))
    (transition : ∃ choice, queued.readyQueue.step choice =
      some (nextQueue, .dequeue (workerThread worker) .refused))
    (serves : queued.readyQueue.Serves runtimeThread nextQueue
      (.dequeue (workerThread worker) .refused))
    (nothing : queued.readyQueue.waiting runtimeThread = [])
    (threads : nextQueue.threads =
      Function.update queued.readyQueue.threads (workerThread worker) .idle) :
    ∃ more later, Simulated start storage
      (events ++ [.queue (.dequeue (workerThread worker) .refused)])
      ⟨queued.dispatch.setWorker worker .checkRunning, nextQueue⟩ more later := by
  obtain ⟨waiting, due⟩ := id serves
  have free : queued.readyQueue.due (workerThread worker) = none := by
    rw [← due]
    exact due_of_idle (by rw [threads, Function.update_self])
  obtain ⟨later, moved, represents⟩ : ∃ later, dispatch.step (.worker worker) =
      some (later, .silent) ∧
      Represents ⟨queued.dispatch.setWorker worker .checkRunning, nextQueue⟩ later :=
    simulated.represents.empty here free nothing rfl waiting due
  exact ⟨abstract ++ [.silent], later,
    simulated.serve (.dequeue (workerThread worker) .refused)
      ⟨queued.dispatch.setWorker worker .checkRunning, nextQueue⟩ only transition serves moved rfl
      rfl represents (simulated.placed.workerQueue threads (.inl rfl))⟩

/-- A worker takes a step of Dequeue, which is refused only by an empty queue. -/
theorem Simulated.dequeued (simulated : Simulated start storage events queued abstract dispatch)
    {graph : TaskGraph} (kept : JobDispatch.LayeredSession graph abstract dispatch)
    (layered : graph.Layered)
    (few : tally MPMCQueue.Event.claimsTail (queueEvents events) + readyQueueCapacity.value ≤
      2 ^ 63)
    {event : Event} (moved : queued.step (.worker worker spurious left) = some (next, event)) :
    (∃ more later, Simulated start storage (events ++ [event]) next more later) ∧
      ∀ thread, event ≠ .queue (.enqueue thread .refused) := by
  simp only [step] at moved
  obtain ⟨call, called, inner⟩ := Option.bind_eq_some_iff.mp moved
  obtain ⟨⟨nextQueue, shown⟩, advanced, same⟩ := Option.map_eq_some_iff.mp inner
  cases same
  obtain ⟨here, rfl⟩ := simulated.represents.worker_call simulated.placed kept layered called
  have stays : queued.dispatch.setWorker worker .dequeue = queued.dispatch := by
    rw [← here]
    exact setWorker_self ..
  obtain ⟨choice, taken⟩ := queueStep_choice advanced
  obtain ⟨only, serves⟩ :=
    simulated.fifo.step (claims_lt few) simulated.placed.oneProducer taken
  rw [here]
  rcases queueStep_cases advanced with ⟨idle, rfl, threads⟩ | ⟨state, inside, -, -⟩ |
    ⟨state, inside, rfl, threads⟩
  · refine ⟨⟨abstract, dispatch, simulated.stutter _ _ only ⟨choice, taken⟩ serves rfl
      (simulated.represents.keep stays serves)
      (simulated.placed.workerQueue threads (.inr ⟨_, rfl, rfl⟩))⟩, by rintro _ ⟨⟩⟩
  · rcases simulated.placed.worker worker with idle | ⟨dequeuing, there, -⟩
    · cases idle.symm.trans inside
    · cases there.symm.trans inside
  · refine ⟨?_, by rintro _ ⟨⟩⟩
    have outcome := MPMCQueue.dequeue_cases state queued.readyQueue.slots queued.readyQueue.head
      spurious left
    generalize (state.step queued.readyQueue.slots queued.readyQueue.head spurious left).event =
      event at outcome only taken serves threads ⊢
    generalize (state.step queued.readyQueue.slots queued.readyQueue.head spurious left).state =
      after at outcome threads
    rcases outcome with ⟨later, rfl, notRefused, notReleased⟩ | ⟨rfl, rfl | ⟨pos, task, rfl⟩⟩
    · -- The call goes on, and of its steps only the claim changes the atomic queue.
      have placed : Placed ⟨queued.dispatch.setWorker worker .dequeue, nextQueue⟩ :=
        simulated.placed.workerQueue threads (.inr ⟨later, rfl, rfl⟩)
      cases event with
      | refused => exact absurd rfl notRefused
      | released pos item => exact absurd rfl (notReleased pos item)
      | claimed pos =>
          exact simulated.claimed here stays only ⟨choice, taken⟩ serves placed
      | _ =>
          exact ⟨abstract, dispatch, simulated.stutter _ _ only ⟨choice, taken⟩ serves rfl
            (simulated.represents.keep stays serves) placed⟩
    · exact simulated.refused here only ⟨choice, taken⟩ serves
        (simulated.fifo.waiting_eq_nil few taken) threads
    · exact ⟨abstract, dispatch, simulated.stutter _ _ only ⟨choice, taken⟩ serves rfl
        (simulated.represents.release serves.1 rfl serves.2.1 serves.2.2)
        (simulated.placed.workerQueue threads (.inl rfl))⟩

/-! ## What a run shows -/

/-- What does not look at the calls of the queue is the same for both runs. -/
theorem filterMap_observed {Shown : Type} (shown? : Runtime.Event → Option Shown)
    (blind : ∀ event, event.ofQueue = true → shown? event = none)
    (same : observed abstract = observed more) :
    abstract.filterMap shown? = more.filterMap shown? := by
  have seen : ∀ events, (observed events).filterMap shown? = events.filterMap shown? := by
    intro events
    rw [observed, List.filterMap_filter]
    refine List.filterMap_congr fun event _ => ?_
    cases queue : event.ofQueue with
    | false => rfl
    | true => exact (blind event queue).symm
  rw [← seen abstract, same, seen more]

/-- The order of the calls can be observed. -/
theorem inPhaseOrder_observed (same : observed abstract = observed more)
    (inOrder : JobDispatch.InPhaseOrder more) : JobDispatch.InPhaseOrder abstract := by
  have called : JobDispatch.calledPhases abstract = JobDispatch.calledPhases more :=
    filterMap_observed _ (by rintro (_ | _) hidden <;> first | rfl | cases hidden) same
  rw [JobDispatch.InPhaseOrder, called]
  exact inOrder

/-- So can what has ended. -/
theorem endedTasks_observed (same : observed abstract = observed more) :
    JobDispatch.endedTasks abstract = JobDispatch.endedTasks more :=
  filterMap_observed _ (by rintro (_ | _) hidden <;> first | rfl | cases hidden) same

/-- What is no operation of the queue can be observed. -/
theorem mem_observed {event : Runtime.Event} (outside : event.ofQueue = false) :
    event ∈ observed abstract ↔ event ∈ abstract := by
  rw [observed, List.mem_filter, outside]
  exact and_iff_left rfl

/-- So can the number of ticks. -/
theorem ticks_observed (same : observed abstract = observed more) :
    JobDispatch.ticks abstract = JobDispatch.ticks more := by
  have seen : ∀ events, JobDispatch.ticks (observed events) = JobDispatch.ticks events := by
    intro events
    rw [JobDispatch.ticks, JobDispatch.ticks, tally, tally, observed, List.countP_filter]
    refine List.countP_congr fun event _ => ?_
    cases event <;> simp [Event.ofQueue]
  rw [← seen abstract, same, seen more]

/-! ## Runs -/

/-- Nothing waits in a new queue. -/
theorem waiting_started : (started dispatch storage).readyQueue.waiting runtimeThread = [] := by
  have full : _ = _ + _ := (MPMCQueue.fifo_constructed runtimeThread storage).tail_eq rfl
  exact List.length_eq_zero_iff.mp (Nat.add_left_cancel full).symm

/-- Before the first step nobody is in a call of the queue. -/
theorem Simulated.initial {graph : TaskGraph} (rest : JobDispatch.AtRest graph dispatch)
    (storage : Fin readyQueueCapacity.value → TaskId) :
    Simulated dispatch storage [] (started dispatch storage) [] dispatch where
  run := .refl
  shown := rfl
  represents := ⟨rest.queue.trans waiting_started.symm, rfl⟩
  placed := ⟨.inl rfl, fun _ => .inl rfl, fun _ busy => absurd rfl busy⟩
  fifo := MPMCQueue.fifo_constructed ..
  lap := ⟨0, Nat.zero_le _, by rintro _ _ ⟨⟩, by rw [waiting_started]; rfl⟩

/-- Every step of a dispatcher on its own queue is none or one of a dispatcher on an atomic
queue, and no Enqueue is refused. -/
theorem Simulated.step (simulated : Simulated start storage events queued abstract dispatch)
    {graph : TaskGraph} (kept : JobDispatch.LayeredSession graph abstract dispatch)
    (wellFormed : graph.WellFormed) (layered : graph.Layered)
    (few : tally MPMCQueue.Event.claimsTail (queueEvents events) + readyQueueCapacity.value ≤
      2 ^ 63)
    {choice : Choice} {event : Event} (moved : queued.step choice = some (next, event)) :
    (∃ more later, Simulated start storage (events ++ [event]) next more later) ∧
      ∀ thread, event ≠ .queue (.enqueue thread .refused) := by
  cases choice with
  | dispatch choice =>
      obtain ⟨shown, later, rfl, simulated⟩ := simulated.dispatched kept.session moved
      exact ⟨⟨_, later, simulated⟩, by rintro _ ⟨⟩⟩
  | main spurious left => exact simulated.enqueued kept wellFormed few moved
  | worker index spurious left => exact simulated.dequeued kept layered few moved

/-- Along every run the session on the real queue is one on the atomic queue. -/
theorem simulated_of_runs {graph : TaskGraph} {finish : QueuedDispatch}
    (wellFormed : graph.WellFormed) (layered : graph.Layered)
    (rest : JobDispatch.AtRest graph start)
    (run : system.Runs (started start storage) events finish)
    (inOrder : JobDispatch.InPhaseOrder (dispatchEvents events))
    (notShutdown : .calledShutdown ∉ dispatchEvents events)
    (few : tally MPMCQueue.Event.claimsTail (queueEvents events) + readyQueueCapacity.value ≤
      2 ^ 63) :
    (∃ abstract dispatch, Simulated start storage events finish abstract dispatch) ∧
      ∀ thread, .queue (.enqueue thread .refused) ∉ events := by
  have along := run.invariant (fun before queued => before <+: events →
    (∃ abstract dispatch, Simulated start storage before queued abstract dispatch) ∧
      ∀ thread, .queue (.enqueue thread .refused) ∉ before)
    (fun _ => ⟨⟨[], start, .initial rest storage⟩, fun _ => List.not_mem_nil⟩) ?_
  · exact along List.prefix_rfl
  · rintro before queued choice next event prior ih transition - segment
    have earlier := (List.prefix_append before [event]).trans segment
    obtain ⟨⟨abstract, dispatch, simulated⟩, accepted⟩ := ih earlier
    have called := inOrder.of_prefix (List.IsPrefix.filterMap _ earlier)
    have running : .calledShutdown ∉ dispatchEvents before := fun member =>
      notShutdown ((List.IsPrefix.filterMap _ earlier).subset member)
    have kept := JobDispatch.layeredSession_of_runs wellFormed layered rest simulated.run
      (inPhaseOrder_observed simulated.shown called)
      (by rwa [← mem_observed rfl, simulated.shown, mem_observed rfl])
    have fewer : tally MPMCQueue.Event.claimsTail (queueEvents before) ≤
        tally MPMCQueue.Event.claimsTail (queueEvents events) :=
      List.Sublist.countP_le (List.IsPrefix.filterMap _ earlier).sublist
    obtain ⟨simulates, notRefused⟩ := simulated.step kept wellFormed layered (by omega) transition
    refine ⟨simulates, fun thread member => ?_⟩
    rcases List.mem_append.mp member with old | new
    · exact accepted thread old
    · exact notRefused thread (List.mem_singleton.mp new).symm

/-- An event of the dispatcher comes from a step outside of the calls of the queue. -/
theorem choice_of_dispatch {choice : Choice} {event : Runtime.Event}
    (moved : queued.step choice = some (next, .dispatch event)) :
    ∃ outside, choice = .dispatch outside := by
  cases choice with
  | dispatch outside => exact ⟨outside, rfl⟩
  | main spurious left =>
      simp only [step] at moved
      obtain ⟨call, -, inner⟩ := Option.bind_eq_some_iff.mp moved
      obtain ⟨served, -, same⟩ := Option.map_eq_some_iff.mp inner
      cases same
  | worker index spurious left =>
      simp only [step] at moved
      obtain ⟨call, -, inner⟩ := Option.bind_eq_some_iff.mp moved
      obtain ⟨served, -, same⟩ := Option.map_eq_some_iff.mp inner
      cases same

/-- When ExecutePhase returns, the queue is empty and the tasks have had their effect. -/
theorem Simulated.returned {graph : TaskGraph} {phase : RuntimePhaseId}
    (simulated : Simulated start storage (events ++ [.dispatch (.returnedPhase phase)]) queued
      (abstract ++ [.returnedPhase phase]) dispatch)
    (shown : observed abstract = observed (dispatchEvents events))
    (wellFormed : graph.WellFormed) (layered : graph.Layered)
    (rest : JobDispatch.AtRest graph start)
    (inOrder : JobDispatch.InPhaseOrder (abstract ++ [.returnedPhase phase]))
    (notShutdown : .calledShutdown ∉ abstract) :
    queued.readyQueue.waiting runtimeThread = [] ∧
    ∀ (World : Type) (effect : World → TaskId → World), JobDispatch.PhaseCommutes effect graph →
      ∀ world, (JobDispatch.endedTasks (dispatchEvents events)).foldl effect world =
        JobDispatch.sequential effect graph phase
          ((JobDispatch.sequential effect graph .output)^[
            JobDispatch.ticks (dispatchEvents events) - 1] world) := by
  have running : .calledShutdown ∉ abstract ++ [.returnedPhase phase] := by
    simpa using notShutdown
  have kept := JobDispatch.layeredSession_of_runs wellFormed layered rest simulated.run inOrder
    running
  obtain ⟨idle, called⟩ := JobDispatch.calls_of_returned wellFormed layered rest simulated.run
    inOrder notShutdown
  constructor
  · rw [← simulated.represents.items]
    exact (kept.session.settled (by rw [idle]; rfl)).1
  · intro World effect commutes world
    obtain ⟨order, ticked⟩ := JobDispatch.effect_of_runs wellFormed layered commutes rest
      simulated.run inOrder running
    have ended : JobDispatch.endedTasks (abstract ++ [.returnedPhase phase]) =
        JobDispatch.endedTasks (dispatchEvents events) :=
      (JobDispatch.endedTasks_concat ..).trans
        ((List.append_nil _).trans (endedTasks_observed shown))
    have same : JobDispatch.ticks (abstract ++ [.returnedPhase phase]) =
        JobDispatch.ticks (dispatchEvents events) := (tally_concat ..).trans (ticks_observed shown)
    rw [← ended, ← same, ticked.applied,
      order.foldl_ended kept wellFormed commutes idle called]

/-- In every session of a layered graph on the real ready queue, however the steps of Enqueue
and Dequeue interleave, no Enqueue is refused, and outside of these calls the session is one on
an atomic queue, which holds the tasks that are published and not claimed. When ExecutePhase
returns the queue is empty, and what has been executed has the effect of the ticks one after
the other. -/
theorem queued_session (graph : TaskGraph) (start : JobDispatch)
    (storage : Fin readyQueueCapacity.value → TaskId) (finish : QueuedDispatch)
    (events : List Event) (wellFormed : graph.WellFormed) (layered : graph.Layered)
    (rest : JobDispatch.AtRest graph start)
    (run : system.Runs (started start storage) events finish)
    (inOrder : JobDispatch.InPhaseOrder (dispatchEvents events))
    (notShutdown : .calledShutdown ∉ dispatchEvents events)
    (few : tally MPMCQueue.Event.claimsTail (queueEvents events) + readyQueueCapacity.value ≤
      2 ^ 63) :
    (∀ thread, .queue (.enqueue thread .refused) ∉ events) ∧
    (∃ abstract dispatch, JobDispatch.system.Runs start abstract dispatch ∧
      observed abstract = observed (dispatchEvents events) ∧ Represents finish dispatch) ∧
    ∀ before phase, events = before ++ [.dispatch (.returnedPhase phase)] →
      finish.readyQueue.waiting runtimeThread = [] ∧
      ∀ (World : Type) (effect : World → TaskId → World), JobDispatch.PhaseCommutes effect graph →
        ∀ world, (JobDispatch.endedTasks (dispatchEvents before)).foldl effect world =
          JobDispatch.sequential effect graph phase
            ((JobDispatch.sequential effect graph .output)^[
              JobDispatch.ticks (dispatchEvents before) - 1] world) := by
  obtain ⟨⟨abstract, dispatch, simulated⟩, accepted⟩ :=
    simulated_of_runs wellFormed layered rest run inOrder notShutdown few
  refine ⟨accepted, ⟨abstract, dispatch, simulated.run, simulated.shown, simulated.represents⟩, ?_⟩
  rintro before phase rfl
  obtain ⟨queued, choice, prior, transition, -⟩ := run.last
  obtain ⟨choice, rfl⟩ := choice_of_dispatch transition
  rw [dispatchEvents_concat] at inOrder notShutdown
  rw [queueEvents_concat, show queueEvents [.dispatch (.returnedPhase phase)] = [] from rfl,
    List.append_nil] at few
  have earlier := inOrder.of_prefix (List.prefix_append _ _)
  have running : .calledShutdown ∉ dispatchEvents before := fun member =>
    notShutdown (List.mem_append_left _ member)
  obtain ⟨⟨abstract, dispatch, simulated⟩, -⟩ :=
    simulated_of_runs wellFormed layered rest prior earlier running few
  have stopped : .calledShutdown ∉ abstract := by
    rwa [← mem_observed rfl, simulated.shown, mem_observed rfl]
  have kept := JobDispatch.layeredSession_of_runs wellFormed layered rest simulated.run
    (inPhaseOrder_observed simulated.shown earlier) stopped
  obtain ⟨shown, later, same, returned⟩ := simulated.dispatched kept.session transition
  cases same
  have called : JobDispatch.InPhaseOrder (abstract ++ [.returnedPhase phase]) := by
    refine inPhaseOrder_observed ?_ inOrder
    rw [observed_append, observed_append, simulated.shown]
    rfl
  exact returned.returned simulated.shown wellFormed layered rest called stopped

/-- Worker 1 runs a whole Dequeue while worker 0 has claimed its position and not yet moved the
item out, and the join has the effect of the sequential one. -/
theorem queued_join_session : ∃ events finish,
    system.Runs (started (.started .joinGraph .full 2) fun _ => 0)
      (events ++ [.dispatch (.returnedPhase .simulation)]) finish ∧
    JobDispatch.endedTasks (dispatchEvents events) = [1, 0, 2] ∧
    finish.readyQueue.waiting runtimeThread = [] ∧
    (JobDispatch.endedTasks (dispatchEvents events)).foldl JobDispatch.joinEffect (0, 0) =
      JobDispatch.sequential JobDispatch.joinEffect .joinGraph .simulation (0, 0) := by
  obtain ⟨events, finish, run, ⟨oneTick, notShutdown, few⟩, last, order, one⟩ := system.runs_of_exec
    (fun _ _ _ _ => True) (started (.started .joinGraph .full 2) fun _ => 0)
    (callThen .input 8 ++ enqueue ++ [.dispatch .main, .dispatch .main] ++ enqueue ++
      [.dispatch .main, .dispatch .main] ++ work 0 1 ++ dequeue 0 4 ++ work 1 1 ++ dequeue 1 6 ++
      work 1 6 ++ dequeue 0 2 ++ work 0 6 ++ [.dispatch .main] ++ callThen .simulation 4 ++
      enqueue ++ [.dispatch .main, .dispatch .main] ++ work 1 1 ++ dequeue 1 6 ++ work 1 5 ++
      [.dispatch .main])
    (fun _ events => (JobDispatch.OneTick (dispatchEvents events) ∧
      Runtime.Event.calledShutdown ∉ dispatchEvents events ∧
      tally MPMCQueue.Event.claimsTail (queueEvents events) + readyQueueCapacity.value ≤ 2 ^ 63) ∧
      events.getLast? = some (.dispatch (.returnedPhase .simulation)) ∧
      JobDispatch.endedTasks (dispatchEvents events.dropLast) = [1, 0, 2] ∧
      JobDispatch.ticks (dispatchEvents events.dropLast) = 1)
    (by decide +kernel)
  obtain ⟨before, rfl⟩ := List.getLast?_eq_some_iff.mp last
  rw [List.dropLast_concat] at order one
  obtain ⟨-, -, returned⟩ := queued_session .joinGraph _ (fun _ => 0) finish _
    TaskGraph.joinGraph_wellFormed TaskGraph.joinGraph_layered
    (JobDispatch.started_atRest (TaskRegistry.validate_full TaskGraph.joinGraph_wellFormed) 2) run
    oneTick.inPhaseOrder notShutdown few
  obtain ⟨empty, effects⟩ := returned before .simulation rfl
  have effect := effects _ _ JobDispatch.joinEffect_commutes (0, 0)
  rw [one] at effect
  exact ⟨before, finish, run, order, empty, effect⟩

end QueuedDispatch
end MmoServer.Runtime
