import MmoServer.Net.ServerSteps
import MmoServer.Semantics.Tally

/-!
# Starting and stopping a NetServer

A running server accepts and serves connections as long as nothing has stopped its
io_context: `live_iff`. Stop leaves the context stopped for every later Start, whose
thread returns from `run()` at once, and Start answers true all the same.
-/

namespace MmoServer.Net

open MmoServer.Semantics MmoServer.Std

namespace NetServer

variable {drainedStops : Bool} {server next : NetServer} {events : List Event} {event : Event}
  {choice : Choice} {move : Move} {acceptor : Acceptor} {connectionId : ConnectionId}

/-- The connection was accepted in the session that the trace ends in. -/
def AcceptedSince (events : List Event) (connectionId : ConnectionId) : Prop :=
  0 < (tallySince Event.opens (fun event => event = .accepted connectionId) events).1

/-- What a running server is expected to be: it accepts, its io thread executes handlers,
and its connections and packets are of the session. -/
structure Live (events : List Event) (server : NetServer) : Prop where
  accepting : server.Accepting
  executing : server.ioThread = .created ∨ server.ioThread = .running
  notStopped : server.stopped = false
  connections : ∀ connectionId ∈ server.connections, AcceptedSince events connectionId
  packets : ∀ packet ∈ server.inboundQueue.items, AcceptedSince events packet.connectionId

/-- Nothing has stopped the io_context. -/
def Lasting (drainedStops : Bool) (events : List Event) : Prop :=
  ∀ event ∈ events, event.endsContext drainedStops = false

theorem lasting_nil : Lasting drainedStops [] := fun _ member => absurd member List.not_mem_nil

/-- The context lasts as long as nothing ends it. -/
theorem Lasting.concat (lasting : Lasting drainedStops events)
    (plain : event.endsContext drainedStops = false) : Lasting drainedStops (events ++ [event]) := by
  intro each member
  rcases List.mem_append.mp member with earlier | last
  · exact lasting each earlier
  · rw [List.mem_singleton.mp last]
    exact plain

/-- Once it has ended it has ended for good. -/
theorem not_lasting_concat (ended : ¬ Lasting drainedStops events) :
    ¬ Lasting drainedStops (events ++ [event]) := fun lasting =>
  ended fun each member => lasting each (List.mem_append_left _ member)

/-- It ends with the event that ends it. -/
theorem not_lasting_of_last (ends : event.endsContext drainedStops = true) :
    ¬ Lasting drainedStops (events ++ [event]) := fun lasting =>
  absurd (ends.symm.trans (lasting event (by simp))) (by decide)

/-- A connection stays accepted until the server is opened again. -/
theorem AcceptedSince.concat (since : AcceptedSince events connectionId)
    (plain : event.opens = false) : AcceptedSince (events ++ [event]) connectionId := by
  rw [AcceptedSince, tallySince_unmarked plain]
  exact Nat.lt_of_lt_of_le since (Nat.le_add_right _ _)

theorem acceptedSince_accepted (events : List Event) (connectionId : ConnectionId) :
    AcceptedSince (events ++ [.accepted connectionId]) connectionId := by
  rw [AcceptedSince, tallySince_unmarked rfl]
  simp

/-! ## A server in session -/

/-- A live server, with reads for connections of the session only. -/
structure Serving (events : List Event) (server : NetServer) : Prop extends
    Live events server where
  reads : ∀ read ∈ server.reads, AcceptedSince events read.connectionId

/-- An accept pending keeps `run()` from returning. -/
theorem Accepting.waits (accepting : server.Accepting) (notStopped : server.stopped = false) :
    ¬ server.runReturns := by
  obtain ⟨acceptor, here, -, pending⟩ := accepting
  rintro (stopped | none)
  · exact absurd (notStopped.symm.trans stopped) (by decide)
  · rw [outstandingWork, here, Option.elim_some] at none
    omega

/-- A serving server goes on until it is opened again. -/
theorem Serving.concat (serving : Serving events server) (plain : event.opens = false) :
    Serving (events ++ [event]) server where
  accepting := serving.accepting
  executing := serving.executing
  notStopped := serving.notStopped
  connections id member := (serving.connections id member).concat plain
  packets packet member := (serving.packets packet member).concat plain
  reads read member := (serving.reads read member).concat plain

/-- No move of the other threads ends it. -/
theorem Serving.others (serving : Serving events server)
    (moved : server.others move = some (next, event)) : Serving (events ++ [event]) next := by
  obtain ⟨aside, accepting, runs⟩ := others_spec moved
  obtain ⟨stopped, thread⟩ := runs (serving.accepting.waits serving.notStopped)
  have accepted {connectionId : ConnectionId} (same : event = .accepted connectionId) :
      AcceptedSince (events ++ [event]) connectionId :=
    same ▸ acceptedSince_accepted events connectionId
  refine { accepting := accepting serving.accepting, executing := thread serving.executing,
           notStopped := stopped.trans serving.notStopped, connections := ?_, packets := ?_,
           reads := ?_ }
  · intro connectionId member
    rcases aside.connections connectionId member with earlier | new
    · exact (serving.connections connectionId earlier).concat aside.opens
    · exact accepted new
  · intro packet member
    rcases aside.packets packet member with earlier | ⟨read, there, same⟩
    · exact (serving.packets packet earlier).concat aside.opens
    · exact same ▸ (serving.reads read there).concat aside.opens
  · intro read member
    rcases aside.reads read member with ⟨earlier, there, same⟩ | new
    · exact same ▸ (serving.reads earlier there).concat aside.opens
    · exact accepted new

/-! ## From call to call -/

/-- A server that has never accepted anything and has no io thread. -/
structure Quiet (server : NetServer) : Prop where
  notRunning : server.running = false
  notStopped : server.stopped = false
  noThread : server.ioThread = .notJoinable
  noAccepts : server.closedAccepts = 0
  noConnections : server.connections = ∅
  noReads : server.reads = []
  noSends : server.sends = []
  noWrites : server.writes = []
  noPackets : server.inboundQueue.items = []

/-- There is nothing for the other threads to do. -/
theorem Quiet.others (quiet : server.Quiet) (moved : server.others move = some (next, event)) :
    next = server := by
  cases move with
  | enterRun | leaveRun =>
      simp [NetServer.others, quiet.noThread] at moved
  | handler handler =>
      simp [NetServer.others, runsHandlers, quiet.noThread] at moved
  | pollPacket =>
      simp only [NetServer.others, pollPacket] at moved
      split at moved
      · cases moved
        rfl
      · next packet queue taken =>
        have some := BoundedQueue.dequeue_eq_some taken
        rw [quiet.noPackets] at some
        cases some
  | send connectionId =>
      simp only [NetServer.others, quiet.noConnections, Finset.notMem_empty, if_false] at moved
      cases moved
      rfl
  | endSend index writes =>
      simp [NetServer.others, quiet.noSends] at moved

/-- The stages of a history of starts and stops. -/
inductive Stage (drainedStops : Bool) (events : List Event) (server : NetServer) : Prop where
  /-- Before Start has an acceptor, and after the catch of a Start that failed. -/
  | idle (lasting : Lasting drainedStops events) (quiet : server.Quiet)
      (bare : server.acceptor = none)
      (here : server.point = .outside ∨ (∃ port, server.point = .emplaceGuard port) ∨
        ∃ port, server.point = .makeAcceptor port ∧ server.workGuard = true)
  | failed (history : Lasting drainedStops events ↔ drainedStops = false)
      (quiet : server.Quiet) (bare : server.acceptor = none) (guarded : server.workGuard = true)
      (here : server.point = .giveUp)
  | opened (lasting : Lasting drainedStops events) (quiet : server.Quiet) (acceptor : Acceptor)
      (bound : server.acceptor = some acceptor) (isOpen : acceptor.isOpen = true)
      (here : server.point = .startAccept ∨ server.point = .startThread ∧ 0 < acceptor.accepts)
  | serving (lasting : Lasting drainedStops events) (serving : Serving events server)
      (here : server.point = .storeRunning ∧ server.running = false ∨
        server.point = .outside ∧ server.running = true)
  | stopping (ended : ¬ Lasting drainedStops events) (notRunning : server.running = false)
      (here : server.point = .resetGuard ∨ server.point = .closeAcceptor ∨
        server.point = .stopContext)
  /-- From here on the io_context stays stopped. -/
  | stopped (ended : ¬ Lasting drainedStops events) (stopped : server.stopped = true)
      (here : server.running = true → server.point = .outside)

/-- An event that neither opens a session nor ends the context, and no change. -/
theorem Stage.concat (stage : Stage drainedStops events server) (opens : event.opens = false)
    (plain : event.endsContext drainedStops = false) :
    Stage drainedStops (events ++ [event]) server := by
  cases stage with
  | idle lasting quiet bare here => exact .idle (lasting.concat plain) quiet bare here
  | failed history quiet bare guarded here =>
      refine .failed ⟨fun lasting => history.mp fun each member => ?_, fun keeps =>
        (history.mpr keeps).concat plain⟩ quiet bare guarded here
      exact lasting each (List.mem_append_left _ member)
  | opened lasting quiet acceptor bound isOpen here =>
      exact .opened (lasting.concat plain) quiet acceptor bound isOpen here
  | serving lasting serving here =>
      exact .serving (lasting.concat plain) (serving.concat opens) here
  | stopping ended notRunning here => exact .stopping (not_lasting_concat ended) notRunning here
  | stopped ended stopped here => exact .stopped (not_lasting_concat ended) stopped here

/-- A step of the other threads leaves the server in its stage. -/
theorem Stage.others (stage : Stage drainedStops events server)
    (moved : server.others move = some (next, event)) :
    Stage drainedStops (events ++ [event]) next := by
  obtain ⟨aside, -, -⟩ := others_spec moved
  have plain := aside.endsContext drainedStops
  have concat := stage.concat aside.opens plain
  cases stage with
  | idle _ quiet | failed _ quiet | opened _ quiet =>
      rw [quiet.others moved]
      exact concat
  | serving lasting serving here =>
      exact .serving (lasting.concat plain) (serving.others moved)
        (by rw [aside.point, aside.running]; exact here)
  | stopping ended notRunning here =>
      exact .stopping (not_lasting_concat ended) (aside.running.trans notRunning)
        (by rw [aside.point]; exact here)
  | stopped ended stopped here =>
      exact .stopped (not_lasting_concat ended) (aside.stopped stopped)
        (by rw [aside.point, aside.running]; exact here)

/-! ## The calls -/

/-- The catch of Start lets go of the work guard: the context stops, where that stops it. -/
theorem stopped_resetWorkGuard (quiet : server.Quiet) (bare : server.acceptor = none)
    (guarded : server.workGuard = true) :
    (server.resetWorkGuard true).stopped = true := by
  simp [resetWorkGuard, outstandingWork, guarded, bare, quiet.noAccepts, quiet.noReads,
    quiet.noWrites]

/-- Start goes on up to its acceptor. -/
theorem advance_idle {binds : Bool} (lasting : Lasting drainedStops events)
    (quiet : server.Quiet) (bare : server.acceptor = none)
    (here : server.point = .outside ∨ (∃ port, server.point = .emplaceGuard port) ∨
      ∃ port, server.point = .makeAcceptor port ∧ server.workGuard = true)
    (moved : server.advance drainedStops binds = some (next, event)) :
    Stage drainedStops (events ++ [event]) next := by
  rcases here with outside | ⟨port, here⟩ | ⟨port, here, guarded⟩
  · rw [advance_of_outside outside] at moved
    cases moved
  · rw [NetServer.advance, here] at moved
    cases moved
    exact .idle (lasting.concat rfl) { quiet with } bare (.inr (.inr ⟨port, rfl, rfl⟩))
  · rw [NetServer.advance, here] at moved
    cases binds with
    | true =>
        cases moved
        exact .opened (lasting.concat rfl)
          { quiet with noAccepts := by simp [openAcceptor, bare, quiet.noAccepts] }
          _ rfl rfl (.inl rfl)
    | false =>
        cases moved
        refine .failed ?_ { quiet with } bare guarded rfl
        cases drainedStops with
        | true => exact iff_of_false (not_lasting_of_last rfl) (by decide)
        | false => exact iff_of_true (lasting.concat rfl) rfl

/-- Start gives up where the port cannot be bound. -/
theorem advance_failed {binds : Bool} (history : Lasting drainedStops events ↔ drainedStops = false)
    (quiet : server.Quiet) (bare : server.acceptor = none) (guarded : server.workGuard = true)
    (here : server.point = .giveUp)
    (moved : server.advance drainedStops binds = some (next, event)) :
    Stage drainedStops (events ++ [event]) next := by
  rw [NetServer.advance, here] at moved
  cases moved
  cases drainedStops with
  | true =>
      exact .stopped (not_lasting_concat fun lasting => Bool.noConfusion (history.mp lasting))
        (stopped_resetWorkGuard quiet bare guarded) fun _ => rfl
  | false =>
      rw [resetWorkGuard_false]
      exact .idle ((history.mpr rfl).concat rfl) { quiet with } bare (.inl rfl)

/-- Start goes on with an open acceptor. -/
theorem advance_opened {binds : Bool} (lasting : Lasting drainedStops events)
    (quiet : server.Quiet) (bound : server.acceptor = some acceptor)
    (isOpen : acceptor.isOpen = true)
    (here : server.point = .startAccept ∨ server.point = .startThread ∧ 0 < acceptor.accepts)
    (moved : server.advance drainedStops binds = some (next, event)) :
    Stage drainedStops (events ++ [event]) next := by
  rcases here with here | ⟨here, pending⟩
  · rw [NetServer.advance, here] at moved
    cases moved
    exact .opened (lasting.concat rfl) { quiet with }
      { acceptor with accepts := acceptor.accepts + 1 } (by simp [startAccept, bound]) isOpen
      (.inr ⟨rfl, Nat.succ_pos _⟩)
  · simp only [NetServer.advance, here, quiet.noThread, if_true] at moved
    cases moved
    refine .serving (lasting.concat rfl) ?_ (.inl ⟨rfl, quiet.notRunning⟩)
    refine { accepting := ⟨acceptor, bound, isOpen, pending⟩, executing := .inl rfl,
             notStopped := quiet.notStopped, connections := ?_, packets := ?_, reads := ?_ }
    · simp [quiet.noConnections]
    · simp [quiet.noPackets]
    · simp [quiet.noReads]

/-- Stop goes on. -/
theorem advance_stopping {binds : Bool} (ended : ¬ Lasting drainedStops events)
    (notRunning : server.running = false)
    (here : server.point = .resetGuard ∨ server.point = .closeAcceptor ∨
      server.point = .stopContext)
    (moved : server.advance drainedStops binds = some (next, event)) :
    Stage drainedStops (events ++ [event]) next := by
  have endedToo : ¬ Lasting drainedStops (events ++ [event]) := not_lasting_concat ended
  rcases here with here | here | here
  · rw [NetServer.advance, here] at moved
    cases moved
    obtain ⟨running, -⟩ := resetWorkGuard_kept drainedStops server
    exact .stopping endedToo (running.trans notRunning) (.inr (.inl rfl))
  · rw [NetServer.advance, here] at moved
    cases moved
    exact .stopping endedToo (server.closeAcceptor_kept.1.trans notRunning) (.inr (.inr rfl))
  · rw [NetServer.advance, here] at moved
    cases moved
    exact .stopped endedToo rfl fun running => absurd (notRunning.symm.trans running) (by decide)

/-- A statement of Start or Stop leads from stage to stage. -/
theorem Stage.advance {binds : Bool} (stage : Stage drainedStops events server)
    (moved : server.advance drainedStops binds = some (next, event)) :
    Stage drainedStops (events ++ [event]) next := by
  cases stage with
  | idle lasting quiet bare here => exact advance_idle lasting quiet bare here moved
  | failed history quiet bare guarded here =>
      exact advance_failed history quiet bare guarded here moved
  | opened lasting quiet acceptor bound isOpen here =>
      exact advance_opened lasting quiet bound isOpen here moved
  | serving lasting serving here =>
      rcases here with ⟨here, -⟩ | ⟨outside, -⟩
      · rw [NetServer.advance, here] at moved
        cases moved
        have kept : Serving (events ++ [.started]) server := serving.concat rfl
        exact .serving (lasting.concat rfl) { kept with } (.inr ⟨rfl, rfl⟩)
      · rw [advance_of_outside outside] at moved
        cases moved
  | stopping ended notRunning here => exact advance_stopping ended notRunning here moved
  | stopped ended stopped here =>
      obtain ⟨keeps, same | outside⟩ := advance_kept moved
      · refine .stopped (not_lasting_concat ended) (keeps stopped) fun running => ?_
        rw [advance_of_outside (here (same.symm.trans running))] at moved
        cases moved
      · exact .stopped (not_lasting_concat ended) (keeps stopped) fun _ => outside

/-- A call of Start. -/
theorem Stage.start (stage : Stage drainedStops events server) (port : UInt16)
    (outside : server.point = .outside) :
    Stage drainedStops (events ++ [(server.start port).2]) (server.start port).1 := by
  rw [NetServer.start]
  split
  · exact stage.concat rfl rfl
  · next notRunning =>
    cases stage with
    | idle lasting quiet bare _ =>
        exact .idle (lasting.concat rfl) { quiet with } bare (.inr (.inl ⟨port, rfl⟩))
    | failed _ _ _ _ here => exact absurd (outside.symm.trans here) (by decide)
    | opened _ _ _ _ _ here =>
        rcases here with here | ⟨here, -⟩ <;> exact absurd (outside.symm.trans here) (by decide)
    | serving _ _ here =>
        rcases here with ⟨here, -⟩ | ⟨-, running⟩
        · exact absurd (outside.symm.trans here) (by decide)
        · exact absurd running notRunning
    | stopping _ _ here =>
        rcases here with here | here | here <;> exact absurd (outside.symm.trans here) (by decide)
    | stopped ended stopped _ =>
        exact .stopped (not_lasting_concat ended) stopped fun running => absurd running notRunning

/-- A call of Stop. -/
theorem Stage.stop (stage : Stage drainedStops events server) :
    Stage drainedStops (events ++ [server.stop.2]) server.stop.1 := by
  rw [NetServer.stop]
  split
  · exact .stopping (not_lasting_of_last rfl) rfl (.inl rfl)
  · exact stage.concat rfl rfl

/-- Every step leads from one stage to another. -/
theorem Stage.step (stage : Stage drainedStops events server)
    (transition : (system drainedStops).step server choice = some (next, event)) :
    Stage drainedStops (events ++ [event]) next := by
  change server.step drainedStops choice = _ at transition
  cases choice with
  | start port =>
      simp only [NetServer.step] at transition
      split at transition
      · next outside =>
        have called := stage.start port outside
        rw [Option.some.inj transition] at called
        exact called
      · cases transition
  | stop =>
      simp only [NetServer.step] at transition
      split at transition
      · have called := stage.stop
        rw [Option.some.inj transition] at called
        exact called
      · cases transition
  | advance binds => exact stage.advance transition
  | other move => exact stage.others transition

/-- The server is at a stage along every run. -/
theorem stage_of_runs (run : (system drainedStops).Runs constructed events server) :
    Stage drainedStops events server := by
  apply run.invariant (Stage drainedStops)
  · exact .idle lasting_nil ⟨rfl, rfl, rfl, rfl, rfl, rfl, rfl, rfl, rfl⟩ rfl (.inl rfl)
  · intro _ _ _ _ _ _ stage transition _
    exact stage.step transition

/-! ## A running server -/

/-- A running server is live exactly when nothing has stopped its io_context: no Stop of
the server while it was running and, where a context stops with its last work, no Start
whose port could not be bound. -/
theorem live_iff (run : (system drainedStops).Runs constructed events server)
    (running : server.running = true) :
    Live events server ↔ ∀ event ∈ events, event.endsContext drainedStops = false := by
  have idle (notRunning : server.running = false) : False :=
    absurd (notRunning.symm.trans running) (by decide)
  cases stage_of_runs run with
  | idle _ quiet | failed _ quiet | opened _ quiet => exact (idle quiet.notRunning).elim
  | serving lasting serving _ => exact iff_of_true serving.toLive lasting
  | stopping _ notRunning _ => exact (idle notRunning).elim
  | stopped ended stopped _ =>
      exact iff_of_false (fun live => absurd (live.notStopped.symm.trans stopped) (by decide)) ended

/-- A call of Start that finds the server stopped and the port free. -/
def startThrough (port : UInt16) : List Choice :=
  .start port :: List.replicate 5 (.advance true)

/-- The first session of a server that has accepted a connection. -/
theorem first_session_live : ∃ events server,
    (system true).Runs constructed events server ∧ server.running = true ∧
      server.connections = {1} ∧ Live events server := by
  obtain ⟨events, server, run, running, connections, lasting⟩ := (system true).runs_of_exec
    (fun _ _ _ _ => True) constructed
    (startThrough 25000 ++ [.other .enterRun, .other (.handler (.accept true))])
    (fun server events => server.running = true ∧ server.connections = {1} ∧
      ∀ event ∈ events, event.endsContext true = false) (by decide)
  exact ⟨events, server, run, running, connections, (live_iff run running).mpr lasting⟩

/-- A server that is stopped and started again says that it runs, on a stopped context. -/
theorem restarted_on_stopped (drainedStops : Bool) : ∃ events server,
    (system drainedStops).Runs constructed events server ∧
      server.running = true ∧ ¬ Live events server := by
  obtain ⟨events, server, run, running, stopped⟩ := (system drainedStops).runs_of_exec
    (fun _ _ _ _ => True) constructed
    (startThrough 25000 ++ [.other .enterRun, .stop, .advance true, .advance true, .advance true,
      .other .leaveRun, .advance true, .advance true, .advance true] ++ startThrough 25000 ++
      [.other .enterRun])
    (fun server _ => server.running = true ∧ server.stopped = true)
    (by cases drainedStops <;> decide)
  exact ⟨events, server, run, running, fun live =>
    absurd (live.notStopped.symm.trans stopped) (by decide)⟩

/-- It is not live, in either kind of io_context. -/
theorem restarted_not_live :
    (¬ ∀ events server, (system false).Runs constructed events server → server.running = true →
      Live events server) ∧
    ¬ ∀ events server, (system true).Runs constructed events server → server.running = true →
      Live events server := by
  constructor
  · intro claim
    obtain ⟨events, server, run, running, dead⟩ := restarted_on_stopped false
    exact dead (claim events server run running)
  · intro claim
    obtain ⟨events, server, run, running, dead⟩ := restarted_on_stopped true
    exact dead (claim events server run running)

end NetServer
end MmoServer.Net
