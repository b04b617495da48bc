import MmoServer.Net.ReadLoop
import MmoServer.Semantics.Transition

/-!
# The send pipeline of a connection

Threads call Send while the io thread runs the handlers of `async_write`. A step is one
access to shared state: a section under a mutex, an operation on an atomic flag, the
start of a write or its completion. Send and StartWriteLoop are cut at these accesses;
the call of StartWriteLoop by itself is a jump back to its start.

The write that `async_write` starts takes its whole buffer and calls its handler once,
in the io thread, when that runs no other handler.
-/

namespace MmoServer.Net

open MmoServer.Semantics

/-- The bound of the send queue. -/
abbrev kMaxPendingSendPackets : Nat := 1024

/-- The threads that call Send, and the io thread. -/
inductive Agent (Thread : Type) where
  | sender (thread : Thread)
  | io
deriving DecidableEq

/-- Where a thread is. -/
inductive Point where
  | idle
  /-- In Send, before it looks the connection up. -/
  | lookup (packet : Packet)
  /-- In EnqueueSend, before it loads `connected_`. -/
  | load (packet : ByteBuffer)
  /-- In EnqueueSend, before it locks `sendMutex`. -/
  | push (packet : ByteBuffer)
  /-- In StartWriteLoop, before TryBeginWrite. -/
  | tryBegin
  /-- Before TryPopSend. -/
  | pop
  /-- Before `async_write`. -/
  | write (packet : ByteBuffer)
  /-- Before EndWrite, when there was nothing to pop. -/
  | endWrite
  /-- Before HasPendingSend. -/
  | recheck
  /-- In the handler of a write, before EndWrite. -/
  | completed
  /-- In the handler of a write that failed, before Disconnect. -/
  | disconnect
  /-- Before RemoveConnection. -/
  | remove
  /-- Before the EndWrite of a write that failed. -/
  | giveUp
  /-- Before the end of Send or of the handler. -/
  | leave (result : Bool)
deriving DecidableEq

/-- One connection on its way out: its queue, its flag and its writes. -/
structure SendPipeline (Thread : Type) where
  /-- The connection is among `connections`. -/
  registered : Bool
  connected : Bool
  /-- `sendQueue_`, its front first. -/
  sendQueue : List ByteBuffer
  writeInProgress : Bool
  /-- The buffers of the writes whose handler has not been called. -/
  outstanding : List ByteBuffer
  points : Agent Thread → Point

/-- Which thread moves, or what happens to the connection. -/
inductive Choice (Thread : Type) where
  | send (thread : Thread) (packet : Packet)
  | step (agent : Agent Thread)
  /-- The io thread calls the handler of a write. -/
  | complete (index : Nat) (failed : Bool)
  /-- Disconnect, from the handler of a read or from Stop. -/
  | disconnect
  /-- RemoveConnection, from there too. -/
  | remove

/-- What a step shows of itself. -/
inductive Event (Thread : Type) where
  | pushed (packet : ByteBuffer)
  /-- The packet is given to `async_write`. -/
  | handed (packet : ByteBuffer)
  | completed (failed : Bool)
  | returned (agent : Agent Thread) (result : Bool)
  | silent
deriving DecidableEq

namespace SendPipeline

variable {Thread : Type} [DecidableEq Thread]

/-- A connection that has just been accepted. -/
def accepted : SendPipeline Thread where
  registered := true
  connected := true
  sendQueue := []
  writeInProgress := false
  outstanding := []
  points := fun _ => .idle

/-- The thread comes to a place in its call. -/
def setPoint (pipeline : SendPipeline Thread) (agent : Agent Thread) (point : Point) :
    SendPipeline Thread :=
  { pipeline with points := Function.update pipeline.points agent point }

/-- The next step of a thread: NetServer::Send, EnqueueSend, StartWriteLoop and the handler
that StartWriteLoop gives to `async_write`. -/
def advance (pipeline : SendPipeline Thread) (agent : Agent Thread) :
    Option (SendPipeline Thread × Event Thread) :=
  match pipeline.points agent with
  | .idle => none
  | .lookup packet =>
    if pipeline.registered then some (pipeline.setPoint agent (.load packet.encode), .silent)
    else some (pipeline.setPoint agent (.leave false), .silent)
  | .load packet =>
    if pipeline.connected then some (pipeline.setPoint agent (.push packet), .silent)
    else some (pipeline.setPoint agent (.leave false), .silent)
  | .push packet =>
    if kMaxPendingSendPackets ≤ pipeline.sendQueue.length then
      some (pipeline.setPoint agent (.leave false), .silent)
    else
      some ({ pipeline with sendQueue := pipeline.sendQueue ++ [packet] }.setPoint agent .tryBegin,
        .pushed packet)
  | .tryBegin =>
    if pipeline.writeInProgress then some (pipeline.setPoint agent (.leave true), .silent)
    else some ({ pipeline with writeInProgress := true }.setPoint agent .pop, .silent)
  | .pop =>
    match pipeline.sendQueue with
    | [] => some (pipeline.setPoint agent .endWrite, .silent)
    | packet :: rest =>
      some ({ pipeline with sendQueue := rest }.setPoint agent (.write packet), .silent)
  | .endWrite =>
    some ({ pipeline with writeInProgress := false }.setPoint agent .recheck, .silent)
  | .recheck =>
    if pipeline.sendQueue = [] then some (pipeline.setPoint agent (.leave true), .silent)
    else some (pipeline.setPoint agent .tryBegin, .silent)
  | .write packet =>
    some
      ({ pipeline with outstanding := pipeline.outstanding ++ [packet] }.setPoint agent (.leave true),
        .handed packet)
  | .completed =>
    some ({ pipeline with writeInProgress := false }.setPoint agent .tryBegin, .silent)
  | .disconnect => some ({ pipeline with connected := false }.setPoint agent .remove, .silent)
  | .remove => some ({ pipeline with registered := false }.setPoint agent .giveUp, .silent)
  | .giveUp =>
    some ({ pipeline with writeInProgress := false }.setPoint agent (.leave false), .silent)
  | .leave result => some (pipeline.setPoint agent .idle, .returned agent result)

/-- A thread enters Send or takes its next step, or the io_context moves. -/
def step (pipeline : SendPipeline Thread) : Choice Thread →
    Option (SendPipeline Thread × Event Thread)
  | .send thread packet =>
    if pipeline.points (.sender thread) = .idle then
      some (pipeline.setPoint (.sender thread) (.lookup packet), .silent)
    else none
  | .step agent => pipeline.advance agent
  | .complete index failed =>
    if pipeline.points .io = .idle ∧ index < pipeline.outstanding.length then
      some
        ({ pipeline with outstanding := pipeline.outstanding.eraseIdx index }.setPoint .io
          (if failed then .disconnect else .completed), .completed failed)
    else none
  | .disconnect => some ({ pipeline with connected := false }, .silent)
  | .remove => some ({ pipeline with registered := false }, .silent)

/-- The pipeline under any interleaving of its threads. -/
def system (Thread : Type) [DecidableEq Thread] :
    TransitionSystem (SendPipeline Thread) (Choice Thread) (Event Thread) where
  step := step

/-- The packets that EnqueueSend has pushed, in the order of the pushes. -/
def pushed (events : List (Event Thread)) : List ByteBuffer :=
  events.filterMap fun
    | .pushed packet => some packet
    | _ => none

/-- The packets given to `async_write`, in that order. -/
def handed (events : List (Event Thread)) : List ByteBuffer :=
  events.filterMap fun
    | .handed packet => some packet
    | _ => none

end SendPipeline
end MmoServer.Net
