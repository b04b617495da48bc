import MmoServer.Net.NetServer

/-!
# What one step of a NetServer does

The io thread and the callers of Send and PollPacket start and end no call, and take on no
connection but one they accept: `Aside`, `others_spec`. The statements of Start and Stop
never start a stopped context again: `advance_kept`.
-/

namespace MmoServer.Net

open MmoServer.Semantics MmoServer.Std

namespace NetServer

variable {drainedStops : Bool} {server middle next : NetServer} {event : Event} {move : Move}
  {handler : Handler} {result : AcceptResult} {acceptor : Acceptor} {connectionId : ConnectionId}

/-- A session begins where Start has bound its port. -/
def Event.opens : Event → Bool
  | .bound _ => true
  | _ => false

/-- The events that leave the io_context stopped: a Stop that finds the server running,
and a Start that lets go of the work guard where this stops the context. -/
def Event.endsContext (drainedStops : Bool) : Event → Bool
  | .calledStop => true
  | .bindFailed _ => drainedStops
  | _ => false

/-- The acceptor is open with an accept pending. -/
def Accepting (server : NetServer) : Prop :=
  ∃ acceptor, server.acceptor = some acceptor ∧ acceptor.isOpen = true ∧ 0 < acceptor.accepts

/-! ## What the other threads do -/

/-- A step of the other threads: it starts and ends no call, and connections, reads and
packets are of connections that were there before or that it has accepted. -/
structure Aside (server next : NetServer) (event : Event) : Prop where
  running : next.running = server.running
  point : next.point = server.point
  stopped : server.stopped = true → next.stopped = true
  opens : event.opens = false
  endsContext : ∀ drainedStops, event.endsContext drainedStops = false
  connections : ∀ connectionId ∈ next.connections,
    connectionId ∈ server.connections ∨ event = .accepted connectionId
  reads : ∀ read ∈ next.reads,
    (∃ earlier ∈ server.reads, earlier.connectionId = read.connectionId) ∨
      event = .accepted read.connectionId
  packets : ∀ packet ∈ next.inboundQueue.items, packet ∈ server.inboundQueue.items ∨
    ∃ earlier ∈ server.reads, earlier.connectionId = packet.connectionId

/-- One move aside after another. -/
theorem Aside.after (second : Aside middle next event) (first : Aside server middle .silent) :
    Aside server next event where
  running := second.running.trans first.running
  point := second.point.trans first.point
  stopped stopped := second.stopped (first.stopped stopped)
  opens := second.opens
  endsContext := second.endsContext
  connections connectionId member := by
    rcases second.connections connectionId member with earlier | accepted
    · rcases first.connections connectionId earlier with earlier | ⟨⟨⟩⟩
      exact .inl earlier
    · exact .inr accepted
  reads read member := by
    rcases second.reads read member with ⟨earlier, there, same⟩ | accepted
    · rcases first.reads earlier there with ⟨earliest, there, before⟩ | ⟨⟨⟩⟩
      exact .inl ⟨earliest, there, before.trans same⟩
    · exact .inr accepted
  packets packet member := by
    rcases second.packets packet member with earlier | ⟨earlier, there, same⟩
    · exact first.packets packet earlier
    · rcases first.reads earlier there with ⟨earliest, there, before⟩ | ⟨⟨⟩⟩
      exact .inr ⟨earliest, there, before.trans same⟩

/-- A step that shows nothing and takes on no connection, read or packet. -/
theorem Aside.of_subset (running : next.running = server.running)
    (point : next.point = server.point) (stopped : server.stopped = true → next.stopped = true)
    (connections : next.connections ⊆ server.connections) (reads : next.reads ⊆ server.reads)
    (packets : next.inboundQueue.items ⊆ server.inboundQueue.items) (opens : event.opens = false)
    (endsContext : ∀ drainedStops, event.endsContext drainedStops = false) :
    Aside server next event where
  running := running
  point := point
  stopped := stopped
  opens := opens
  endsContext := endsContext
  connections _ member := .inl (connections member)
  reads read member := .inl ⟨read, reads member, rfl⟩
  packets _ member := .inl (packets member)

/-- A move that touches nothing of these is aside. -/
theorem Aside.of_same (running : next.running = server.running)
    (point : next.point = server.point) (stopped : server.stopped = true → next.stopped = true)
    (connections : next.connections = server.connections) (reads : next.reads = server.reads)
    (queue : next.inboundQueue = server.inboundQueue) : Aside server next .silent :=
  .of_subset running point stopped (connections ▸ Finset.Subset.refl _)
    (reads ▸ List.Subset.refl _) (queue ▸ List.Subset.refl _) rfl fun _ => rfl

/-- The end of the handler changes the acceptor and nothing else. -/
theorem acceptAgain_eq (server : NetServer) :
    ∃ acceptor, server.acceptAgain = { server with acceptor } := by
  rw [acceptAgain]
  split
  · exact ⟨_, rfl⟩
  · exact ⟨server.acceptor, rfl⟩

/-- The handler of an accept moves aside. -/
theorem acceptHandler_aside (server : NetServer) (result : AcceptResult) :
    Aside server (server.acceptHandler result).1 (server.acceptHandler result).2 := by
  cases result with
  | operationAborted => exact .of_same rfl rfl id rfl rfl rfl
  | failed =>
      obtain ⟨acceptor, same⟩ := server.acceptAgain_eq
      rw [acceptHandler, same]
      exact .of_same rfl rfl id rfl rfl rfl
  | connected =>
      obtain ⟨acceptor, same⟩ := acceptAgain_eq
        (({ server with
          nextConnectionId := server.nextConnectionId + 1
          connections := insert server.nextConnectionId server.connections } : NetServer).startReadLoop
            { connectionId := server.nextConnectionId, receiveBuffer := [] })
      rw [acceptHandler, same]
      refine ⟨rfl, rfl, id, rfl, fun _ => rfl, ?_, ?_, fun packet member => .inl member⟩
      · intro connectionId member
        rcases Finset.mem_insert.mp member with rfl | earlier
        · exact .inr rfl
        · exact .inl earlier
      · intro read member
        rcases List.mem_append.mp member with earlier | new
        · exact .inl ⟨read, earlier, rfl⟩
        · rw [List.mem_singleton.mp new]
          exact .inr rfl

/-- It leaves the io thread and the context. -/
theorem acceptHandler_thread (server : NetServer) (result : AcceptResult) :
    (server.acceptHandler result).1.ioThread = server.ioThread ∧
      (server.acceptHandler result).1.stopped = server.stopped := by
  cases result with
  | operationAborted => exact ⟨rfl, rfl⟩
  | failed | connected =>
      rw [acceptHandler]
      dsimp only
      rw [(acceptAgain_eq _).choose_spec]
      exact ⟨rfl, rfl⟩

/-- An open acceptor keeps its accepts, and the handler of one that was not aborted adds
one. -/
theorem acceptHandler_accepts (server : NetServer) (here : server.acceptor = some acceptor)
    (isOpen : acceptor.isOpen = true) (result : AcceptResult) : ∃ later,
    (server.acceptHandler result).1.acceptor = some later ∧ later.isOpen = true ∧
      acceptor.accepts ≤ later.accepts ∧
      (result ≠ .operationAborted → acceptor.accepts < later.accepts) := by
  have again (server : NetServer) (here : server.acceptor = some acceptor) :
      server.acceptAgain.acceptor = some { acceptor with accepts := acceptor.accepts + 1 } := by
    simp [acceptAgain, startAccept, here, isOpen]
  cases result with
  | operationAborted => exact ⟨acceptor, here, isOpen, Nat.le_refl _, fun aborts => absurd rfl aborts⟩
  | failed =>
      exact ⟨_, again server here, isOpen, Nat.le_succ _, fun _ => Nat.lt_succ_self _⟩
  | connected =>
      exact ⟨_, again _ here, isOpen, Nat.le_succ _, fun _ => Nat.lt_succ_self _⟩

/-- The packets of a stream carry the id of its connection. -/
theorem connectionId_of_mem_readLoop {fuel : Nat} {buffer : ByteBuffer} {packet : ReceivedPacket}
    (member : packet ∈ (readLoop connectionId fuel buffer).1) :
    packet.connectionId = connectionId := by
  induction fuel generalizing buffer with
  | zero => cases member
  | succ fuel ih =>
      simp only [readLoop] at member
      split at member
      · rcases List.mem_cons.mp member with rfl | later
        · rfl
        · exact ih later
      · cases member

/-- The handler of a read moves aside. -/
theorem readHandler_aside {read : PendingRead} (chunk : Option ByteBuffer)
    (member : read ∈ server.reads) {rest : List PendingRead} (fewer : rest ⊆ server.reads) :
    Aside server ({ server with reads := rest }.readHandler read chunk) .silent := by
  cases chunk with
  | none =>
      exact .of_subset rfl rfl id (Finset.erase_subset _ _) fewer (List.Subset.refl _) rfl
        fun _ => rfl
  | some chunk =>
      refine ⟨rfl, rfl, id, rfl, fun _ => rfl, fun _ member => .inl member, ?_, ?_⟩
      · intro later there
        rcases List.mem_append.mp there with earlier | new
        · exact .inl ⟨later, fewer earlier, rfl⟩
        · rw [List.mem_singleton.mp new]
          exact .inl ⟨read, member, rfl⟩
      · intro packet there
        rcases BoundedQueue.mem_of_enqueued there with before | handed
        · exact .inl before
        · exact .inr ⟨read, member, (connectionId_of_mem_readLoop handed).symm⟩

/-- The handler of a write moves aside. -/
theorem writeHandler_aside (server : NetServer) (writes : List ConnectionId)
    (connectionId : ConnectionId) (result : WriteResult) :
    Aside server ({ server with writes }.writeHandler connectionId result) .silent := by
  cases result with
  | failed =>
      exact .of_subset rfl rfl id (Finset.erase_subset _ _) (List.Subset.refl _)
        (List.Subset.refl _) rfl fun _ => rfl
  | again | done => exact .of_same rfl rfl id rfl rfl rfl

/-- What a handler does: the io thread and the context stay as they are, and an open
acceptor that has an accept pending has one again. -/
structure Handled (server next : NetServer) (event : Event) : Prop where
  aside : Aside server next event
  thread : next.ioThread = server.ioThread
  stopped : next.stopped = server.stopped
  accepting : server.Accepting → next.Accepting

/-- A handler that leaves the acceptor. -/
theorem Handled.of_acceptor (aside : Aside server next event)
    (thread : next.ioThread = server.ioThread) (stopped : next.stopped = server.stopped)
    (acceptor : next.acceptor = server.acceptor) : Handled server next event :=
  ⟨aside, thread, stopped, by
    rw [Accepting, Accepting, acceptor]
    exact id⟩

/-- The handler of an accept of the open acceptor. -/
theorem handled_accept {port : UInt16} {isOpen : Bool} {accepts : Nat}
    (here : server.acceptor = some { port, isOpen, accepts := accepts + 1 })
    (waits : result ≠ .operationAborted)
    (called : { server with acceptor := some { port, isOpen, accepts } }.acceptHandler result =
      (next, event)) : Handled server next event := by
  have aside := acceptHandler_aside { server with acceptor := some { port, isOpen, accepts } } result
  obtain ⟨thread, stopped⟩ :=
    acceptHandler_thread { server with acceptor := some { port, isOpen, accepts } } result
  rw [called] at aside thread stopped
  refine ⟨aside.after (.of_same rfl rfl id rfl rfl rfl), thread, stopped, ?_⟩
  rintro ⟨acceptor, there, opened, -⟩
  obtain rfl : acceptor = ⟨port, isOpen, accepts + 1⟩ := Option.some.inj (there.symm.trans here)
  obtain ⟨later, after, openedToo, -, more⟩ := acceptHandler_accepts
    { server with acceptor := some { port, isOpen, accepts } } rfl opened result
  rw [called] at after
  exact ⟨later, after, openedToo, Nat.zero_lt_of_lt (more waits)⟩

/-- The handler of an accept of a closed one. -/
theorem handled_acceptClosed {closedAccepts : Nat}
    (called : { server with closedAccepts }.acceptHandler result = (next, event)) :
    Handled server next event := by
  have aside := acceptHandler_aside { server with closedAccepts } result
  obtain ⟨thread, stopped⟩ := acceptHandler_thread { server with closedAccepts } result
  rw [called] at aside thread stopped
  refine ⟨aside.after (.of_same rfl rfl id rfl rfl rfl), thread, stopped, ?_⟩
  rintro ⟨acceptor, there, opened, pending⟩
  obtain ⟨later, after, openedToo, more, -⟩ :=
    acceptHandler_accepts { server with closedAccepts } there opened result
  rw [called] at after
  exact ⟨later, after, openedToo, Nat.lt_of_lt_of_le pending more⟩

/-- Every handler leaves the server as `Handled` says. -/
theorem handle_spec (handled : server.handle handler = some (next, event)) :
    Handled server next event := by
  cases handler with
  | accept connected =>
      simp only [handle] at handled
      split at handled
      · next here =>
        exact handled_accept here (by split <;> rintro ⟨⟩) (Option.some.inj handled)
      · cases handled
  | acceptClosed result =>
      simp only [handle] at handled
      split at handled
      · cases handled
      · exact handled_acceptClosed (Option.some.inj handled)
  | read index chunk =>
      simp only [handle] at handled
      split at handled
      · cases handled
      · next read here =>
        split at handled
        · cases handled
          have aside := readHandler_aside chunk (List.mem_of_getElem? here)
            (List.eraseIdx_subset : server.reads.eraseIdx index ⊆ server.reads)
          cases chunk <;> exact .of_acceptor aside rfl rfl rfl
        · cases handled
  | write index result =>
      simp only [handle] at handled
      split at handled
      · cases handled
      · next connectionId here =>
        cases handled
        have aside := writeHandler_aside server (server.writes.eraseIdx index) connectionId result
        cases result <;> exact .of_acceptor aside rfl rfl rfl

/-- The steps of the other threads. The io thread leaves `run()`, or returns from it at once,
only when the context is stopped or has no work left. -/
theorem others_spec (moved : server.others move = some (next, event)) :
    Aside server next event ∧ (server.Accepting → next.Accepting) ∧
      (¬ server.runReturns → next.stopped = server.stopped ∧
        (server.ioThread = .created ∨ server.ioThread = .running →
          next.ioThread = .created ∨ next.ioThread = .running)) := by
  cases move with
  | enterRun =>
      simp only [others] at moved
      split at moved
      · split at moved
        · next returns =>
          cases moved
          exact ⟨.of_same rfl rfl (fun _ => rfl) rfl rfl rfl, id,
            fun waits => absurd returns waits⟩
        · cases moved
          exact ⟨.of_same rfl rfl id rfl rfl rfl, id, fun _ => ⟨rfl, fun _ => .inr rfl⟩⟩
      · cases moved
  | leaveRun =>
      simp only [others] at moved
      split at moved
      · next leaves =>
        cases moved
        exact ⟨.of_same rfl rfl (fun _ => rfl) rfl rfl rfl, id,
          fun waits => absurd leaves.2 waits⟩
      · cases moved
  | handler handler =>
      simp only [others] at moved
      split at moved
      · have handled := handle_spec moved
        exact ⟨handled.aside, handled.accepting, fun _ =>
          ⟨handled.stopped, fun alive => handled.thread ▸ alive⟩⟩
      · cases moved
  | pollPacket =>
      simp only [others, pollPacket] at moved
      split at moved
      · cases moved
        exact ⟨.of_subset rfl rfl id (Finset.Subset.refl _) (List.Subset.refl _)
          (List.Subset.refl _) rfl fun _ => rfl, id, fun _ => ⟨rfl, id⟩⟩
      · next packet queue taken =>
        cases moved
        have fewer : queue.items ⊆ server.inboundQueue.items := by
          rw [BoundedQueue.dequeue_eq_some taken]
          exact List.subset_cons_self _ _
        exact ⟨.of_subset rfl rfl id (Finset.Subset.refl _) (List.Subset.refl _) fewer rfl
          fun _ => rfl, id, fun _ => ⟨rfl, id⟩⟩
  | send connectionId =>
      simp only [others] at moved
      split at moved <;> cases moved <;>
        exact ⟨.of_same rfl rfl id rfl rfl rfl, id, fun _ => ⟨rfl, id⟩⟩
  | endSend index writes =>
      simp only [others] at moved
      split at moved
      · cases moved
      · cases writes <;> cases moved <;>
          exact ⟨.of_same rfl rfl id rfl rfl rfl, id, fun _ => ⟨rfl, id⟩⟩

/-! ## What the calls keep -/

/-- The work guard goes, and nothing that has stopped starts again. -/
theorem resetWorkGuard_kept (drainedStops : Bool) (server : NetServer) :
    (server.resetWorkGuard drainedStops).running = server.running ∧
      (server.stopped = true → (server.resetWorkGuard drainedStops).stopped = true) := by
  rw [resetWorkGuard]
  dsimp only
  split
  · exact ⟨rfl, fun _ => rfl⟩
  · exact ⟨rfl, id⟩

/-- The acceptor is closed, and the context is left. -/
theorem closeAcceptor_kept (server : NetServer) :
    server.closeAcceptor.running = server.running ∧
      server.closeAcceptor.stopped = server.stopped := by
  rw [closeAcceptor]
  split
  · exact ⟨rfl, rfl⟩
  · split <;> exact ⟨rfl, rfl⟩

/-- No statement of Start or Stop starts a stopped context again. -/
theorem advance_kept {binds : Bool}
    (moved : server.advance drainedStops binds = some (next, event)) :
    (server.stopped = true → next.stopped = true) ∧
      (next.running = server.running ∨ next.point = .outside) := by
  cases point : server.point with
  | outside =>
      rw [advance, point] at moved
      cases moved
  | emplaceGuard | startAccept | clearConnections =>
      rw [advance, point] at moved
      cases moved
      exact ⟨id, .inl rfl⟩
  | stopContext =>
      rw [advance, point] at moved
      cases moved
      exact ⟨fun _ => rfl, .inl rfl⟩
  | storeRunning =>
      rw [advance, point] at moved
      cases moved
      exact ⟨id, .inr rfl⟩
  | makeAcceptor port =>
      rw [advance, point] at moved
      cases binds <;> cases moved <;> exact ⟨id, .inl rfl⟩
  | startThread =>
      simp only [advance, point] at moved
      split at moved
      · cases moved
        exact ⟨id, .inl rfl⟩
      · cases moved
  | giveUp | resetGuard =>
      rw [advance, point] at moved
      cases moved
      obtain ⟨running, stopped⟩ := resetWorkGuard_kept drainedStops server
      exact ⟨stopped, .inl running⟩
  | closeAcceptor =>
      rw [advance, point] at moved
      cases moved
      obtain ⟨running, stopped⟩ := server.closeAcceptor_kept
      exact ⟨stopped.trans, .inl running⟩
  | join =>
      simp only [advance, point] at moved
      split at moved <;> cases moved <;> exact ⟨id, .inl rfl⟩
  | drainQueue =>
      simp only [advance, point] at moved
      split at moved <;> cases moved <;> exact ⟨id, .inl rfl⟩

/-- Outside of Start and Stop the owner has no step. -/
theorem advance_of_outside {binds : Bool} (outside : server.point = .outside) :
    server.advance drainedStops binds = none := by
  rw [advance, outside]

theorem resetWorkGuard_false (server : NetServer) :
    server.resetWorkGuard false = { server with workGuard := false } := by
  simp [resetWorkGuard]

end NetServer
end MmoServer.Net
