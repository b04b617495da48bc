import Mathlib.Data.Finset.Basic
import MmoServer.Std.BoundedQueue
import MmoServer.Net.ReceiveBound
import MmoServer.Semantics.Transition

/-!
# NetServer

One thread calls Start and Stop, others call Send and PollPacket, and the io thread runs
the handlers of the io_context. A step is one statement of Start or Stop, one call of the
others or one handler.

The io_context runs handlers only while it is not stopped, and nothing here starts it
again. A context that is let go of by its last work outside of `run()` may stop as well:
`drainedStops` says whether it does.
-/

namespace MmoServer.Net

open MmoServer.Semantics MmoServer.Std

/-- The capacity of the inbound queue. -/
abbrev kInboundQueueCapacity : Nat := 65536

/-- Where the thread that calls Start and Stop is. -/
inductive CallPoint where
  | outside
  | emplaceGuard (port : UInt16)
  | makeAcceptor (port : UInt16)
  | startAccept
  | startThread
  | storeRunning
  /-- In the handler of Start's exceptions. -/
  | giveUp
  | resetGuard
  | closeAcceptor
  | stopContext
  | join
  | clearConnections
  | drainQueue
deriving DecidableEq

/-- Where `ioThread` is. -/
inductive IoThread where
  | notJoinable
  /-- Before its call of `run()`. -/
  | created
  | running
  | finished
deriving DecidableEq

/-- An open or closed `tcp::acceptor`. -/
structure Acceptor where
  port : UInt16
  isOpen : Bool
  /-- How many calls of `async_accept` wait for their handler. -/
  accepts : Nat
deriving DecidableEq

/-- An `async_read_some` whose handler has not been called. -/
structure PendingRead where
  connectionId : ConnectionId
  receiveBuffer : ByteBuffer
deriving DecidableEq

/-- The server with its io_context, and the place of its owner in Start or Stop. -/
structure NetServer where
  running : Bool
  /-- The io_context is stopped. -/
  stopped : Bool
  workGuard : Bool
  acceptor : Option Acceptor
  /-- The accepts of closed acceptors that wait for their handler. -/
  closedAccepts : Nat
  ioThread : IoThread
  nextConnectionId : ConnectionId
  connections : Finset ConnectionId
  reads : List PendingRead
  /-- The calls of Send that have found their connection. -/
  sends : List ConnectionId
  /-- The connections of the `async_write` calls whose handler has not been called. -/
  writes : List ConnectionId
  inboundQueue : BoundedQueue ReceivedPacket kInboundQueueCapacity
  point : CallPoint

namespace NetServer

/-- What a handler is told of its operation. -/
inductive AcceptResult where
  | connected
  | failed
  | operationAborted

/-- How the handler of a write goes on. -/
inductive WriteResult where
  | failed
  /-- There is another packet to write. -/
  | again
  | done

/-- The handlers that the io thread may call. -/
inductive Handler where
  /-- Of an accept of the acceptor as it is. Only a closed one aborts it. -/
  | accept (connected : Bool)
  | acceptClosed (result : AcceptResult)
  /-- Of a read, with the bytes that were read. -/
  | read (index : Nat) (chunk : Option ByteBuffer)
  | write (index : Nat) (result : WriteResult)

/-- What the other threads do. -/
inductive Move where
  | enterRun
  | leaveRun
  | handler (handler : Handler)
  | pollPacket
  | send (connectionId : ConnectionId)
  /-- The rest of Send: whether it starts a write is for the send queue to say. -/
  | endSend (index : Nat) (writes : Bool)

/-- The owner moves, or one of the others. -/
inductive Choice where
  | start (port : UInt16)
  | stop
  /-- The next statement of Start or Stop. `binds` is whether the port can be bound. -/
  | advance (binds : Bool)
  | other (move : Move)

/-- What a step shows of itself. -/
inductive Event where
  | refusedStart
  | bound (port : UInt16)
  | bindFailed (port : UInt16)
  | started
  | gaveUp
  | calledStop
  | ignoredStop
  | returnedStop
  | polled (packet : Option ReceivedPacket)
  | accepted (connectionId : ConnectionId)
  | silent
deriving DecidableEq

/-- A server that has not been started. -/
def constructed : NetServer where
  running := false
  stopped := false
  workGuard := false
  acceptor := none
  closedAccepts := 0
  ioThread := .notJoinable
  nextConnectionId := 1
  connections := ∅
  reads := []
  sends := []
  writes := []
  inboundQueue := .empty
  point := .outside

/-- What keeps `run()` from returning. -/
def outstandingWork (server : NetServer) : Nat :=
  (if server.workGuard then 1 else 0) + server.acceptor.elim 0 Acceptor.accepts +
    server.closedAccepts + server.reads.length + server.writes.length

/-- `workGuard.reset()`. -/
def resetWorkGuard (drainedStops : Bool) (server : NetServer) : NetServer :=
  let released := { server with workGuard := false }
  if server.workGuard ∧ drainedStops ∧ released.outstandingWork = 0 then
    { released with stopped := true }
  else released

/-- The new acceptor takes the place of the old one, which is closed. -/
def openAcceptor (server : NetServer) (port : UInt16) : NetServer :=
  { server with
    acceptor := some { port, isOpen := true, accepts := 0 }
    closedAccepts := server.closedAccepts + server.acceptor.elim 0 Acceptor.accepts }

/-- `acceptor->close()`, if there is one and it is open. -/
def closeAcceptor (server : NetServer) : NetServer :=
  match server.acceptor with
  | none => server
  | some acceptor =>
    if acceptor.isOpen then
      { server with
        acceptor := some { acceptor with isOpen := false, accepts := 0 }
        closedAccepts := server.closedAccepts + acceptor.accepts }
    else server

/-- NetServer::Impl::StartAccept: one more accept waits. -/
def startAccept (server : NetServer) : NetServer :=
  { server with
    acceptor := server.acceptor.map fun acceptor =>
      { acceptor with accepts := acceptor.accepts + 1 } }

/-- NetServer::Impl::StartReadLoop: one more read waits. -/
def startReadLoop (server : NetServer) (read : PendingRead) : NetServer :=
  { server with reads := server.reads ++ [read] }

/-- NetServer::Impl::RemoveConnection. -/
def removeConnection (server : NetServer) (connectionId : ConnectionId) : NetServer :=
  { server with connections := server.connections.erase connectionId }

/-- The end of the handler of StartAccept. -/
def acceptAgain (server : NetServer) : NetServer :=
  if server.acceptor.any Acceptor.isOpen then server.startAccept else server

/-- The handler of StartAccept. -/
def acceptHandler (server : NetServer) : AcceptResult → NetServer × Event
  | .operationAborted => (server, .silent)
  | .failed => (server.acceptAgain, .silent)
  | .connected =>
    let connectionId := server.nextConnectionId
    let emplaced := { server with
      nextConnectionId := connectionId + 1
      connections := insert connectionId server.connections }
    ((emplaced.startReadLoop { connectionId, receiveBuffer := [] }).acceptAgain,
      .accepted connectionId)

/-- The handler of StartReadLoop. A packet that the inbound queue has no room for is
dropped. -/
def readHandler (server : NetServer) (read : PendingRead) : Option ByteBuffer → NetServer
  | none => server.removeConnection read.connectionId
  | some chunk =>
    let handed := onRead read.connectionId read.receiveBuffer chunk
    let delivered := { server with
      inboundQueue := handed.1.foldl (fun queue packet => (queue.enqueue packet).1)
        server.inboundQueue }
    delivered.startReadLoop { read with receiveBuffer := handed.2 }

/-- The handler of StartWriteLoop. -/
def writeHandler (server : NetServer) (connectionId : ConnectionId) : WriteResult → NetServer
  | .failed => server.removeConnection connectionId
  | .again => { server with writes := server.writes ++ [connectionId] }
  | .done => server

/-- `run()` returns at once when the context is stopped or has nothing to wait for. -/
def runReturns (server : NetServer) : Prop := server.stopped = true ∨ server.outstandingWork = 0

instance (server : NetServer) : Decidable server.runReturns :=
  inferInstanceAs (Decidable (_ ∨ _))

/-- The io thread is in `run()`, which calls handlers. -/
def runsHandlers (server : NetServer) : Prop :=
  server.ioThread = .running ∧ server.stopped = false

instance (server : NetServer) : Decidable server.runsHandlers :=
  inferInstanceAs (Decidable (_ ∧ _))

/-- A handler takes its operation off the outstanding ones and runs. -/
def handle (server : NetServer) : Handler → Option (NetServer × Event)
  | .accept connected =>
    match server.acceptor with
    | some { port, isOpen, accepts := accepts + 1 } =>
      let taken := { server with acceptor := some { port, isOpen, accepts } }
      some (taken.acceptHandler (if connected then .connected else .failed))
    | _ => none
  | .acceptClosed result =>
    match server.closedAccepts with
    | 0 => none
    | closedAccepts + 1 => some ({ server with closedAccepts }.acceptHandler result)
  | .read index chunk =>
    match server.reads[index]? with
    | none => none
    | some read =>
      if ∀ bytes ∈ chunk, bytes.length ≤ chunkSize then
        some ({ server with reads := server.reads.eraseIdx index }.readHandler read chunk, .silent)
      else none
  | .write index result =>
    match server.writes[index]? with
    | none => none
    | some connectionId =>
      some ({ server with writes := server.writes.eraseIdx index }.writeHandler connectionId result,
        .silent)

/-- NetServer::Start, up to its first effect. -/
def start (server : NetServer) (port : UInt16) : NetServer × Event :=
  if server.running then (server, .refusedStart)
  else ({ server with point := .emplaceGuard port }, .silent)

/-- NetServer::Stop, up to its first effect. -/
def stop (server : NetServer) : NetServer × Event :=
  if server.running then
    ({ server with running := false, point := .resetGuard }, .calledStop)
  else (server, .ignoredStop)

/-- The next statement of Start or Stop. A joinable thread cannot be replaced, and
`join` waits for the io thread. -/
def advance (drainedStops : Bool) (server : NetServer) (binds : Bool) :
    Option (NetServer × Event) :=
  match server.point with
  | .outside => none
  | .emplaceGuard port =>
    some ({ server with workGuard := true, point := .makeAcceptor port }, .silent)
  | .makeAcceptor port =>
    if binds then some ({ server.openAcceptor port with point := .startAccept }, .bound port)
    else some ({ server with point := .giveUp }, .bindFailed port)
  | .startAccept => some ({ server.startAccept with point := .startThread }, .silent)
  | .startThread =>
    if server.ioThread = .notJoinable then
      some ({ server with ioThread := .created, point := .storeRunning }, .silent)
    else none
  | .storeRunning => some ({ server with running := true, point := .outside }, .started)
  | .giveUp => some ({ server.resetWorkGuard drainedStops with point := .outside }, .gaveUp)
  | .resetGuard =>
    some ({ server.resetWorkGuard drainedStops with point := .closeAcceptor }, .silent)
  | .closeAcceptor => some ({ server.closeAcceptor with point := .stopContext }, .silent)
  | .stopContext => some ({ server with stopped := true, point := .join }, .silent)
  | .join =>
    match server.ioThread with
    | .notJoinable => some ({ server with point := .clearConnections }, .silent)
    | .finished =>
      some ({ server with ioThread := .notJoinable, point := .clearConnections }, .silent)
    | .created | .running => none
  | .clearConnections => some ({ server with connections := ∅, point := .drainQueue }, .silent)
  | .drainQueue =>
    match server.inboundQueue.dequeue with
    | none => some ({ server with point := .outside }, .returnedStop)
    | some (_, inboundQueue) => some ({ server with inboundQueue }, .silent)

/-- NetServer::PollPacket. -/
def pollPacket (server : NetServer) : NetServer × Event :=
  match server.inboundQueue.dequeue with
  | none => (server, .polled none)
  | some (packet, inboundQueue) => ({ server with inboundQueue }, .polled (some packet))

/-- A step of a thread that calls neither Start nor Stop. -/
def others (server : NetServer) : Move → Option (NetServer × Event)
  | .enterRun =>
    if server.ioThread = .created then
      if server.runReturns then
        some ({ server with ioThread := .finished, stopped := true }, .silent)
      else some ({ server with ioThread := .running }, .silent)
    else none
  | .leaveRun =>
    if server.ioThread = .running ∧ server.runReturns then
      some ({ server with ioThread := .finished, stopped := true }, .silent)
    else none
  | .handler handler => if server.runsHandlers then server.handle handler else none
  | .pollPacket => some server.pollPacket
  | .send connectionId =>
    if connectionId ∈ server.connections then
      some ({ server with sends := server.sends ++ [connectionId] }, .silent)
    else some (server, .silent)
  | .endSend index writes =>
    match server.sends[index]? with
    | none => none
    | some connectionId =>
      let ended := { server with sends := server.sends.eraseIdx index }
      some (if writes then { ended with writes := ended.writes ++ [connectionId] } else ended,
        .silent)

/-- The owner enters a call or goes on with it; the others move at any time. -/
def step (drainedStops : Bool) (server : NetServer) : Choice → Option (NetServer × Event)
  | .start port => if server.point = .outside then some (server.start port) else none
  | .stop => if server.point = .outside then some server.stop else none
  | .advance binds => server.advance drainedStops binds
  | .other move => server.others move

/-- The server and its threads, under an io_context of the given kind. -/
abbrev system (drainedStops : Bool) : TransitionSystem NetServer Choice Event where
  step := NetServer.step drainedStops

end NetServer
end MmoServer.Net
