import MmoServer.Semantics.Transition
import MmoServer.Semantics.Tally
import MmoServer.Semantics.Explained
import MmoServer.Semantics.Simulation
import MmoServer.Std.FixedArray
import MmoServer.Std.BoundedQueue
import MmoServer.Std.QueueCalls
import MmoServer.Std.ThreadSum
import MmoServer.Std.LittleEndian
import MmoServer.Std.StreamDecoder
import MmoServer.Std.SlotRing
import MmoServer.Std.RingProtocol
import MmoServer.Std.RingHistory
import MmoServer.Std.PriorityQueue
import MmoServer.Std.Region
import MmoServer.Std.WireFormat
import MmoServer.Std.Ledger
import MmoServer.Std.Exclusive
import MmoServer.Std.Loop
import MmoServer.Std.Lines
import MmoServer.Std.Overwrite
import MmoServer.Std.AtomicCounter
import MmoServer.Std.LinearExtension
import MmoServer.Std.Printf
import MmoServer.Std.OutputStream
import MmoServer.Std.RingFifo
import MmoServer.Config.KeyValueConfigParser
import MmoServer.Config.ConfigSystem
import MmoServer.Logging.TextFormatter
import MmoServer.Logging.Logger
import MmoServer.Logging.Delivery
import MmoServer.Logging.LogFile
import MmoServer.MemoryPool.FixedBlockPool
import MmoServer.MemoryPool.LiveBlocks
import MmoServer.MemoryPool.Sizing
import MmoServer.LockfreeQueue.QueueSlot
import MmoServer.LockfreeQueue.Enqueue
import MmoServer.LockfreeQueue.MPMCQueue
import MmoServer.LockfreeQueue.MPMCDelivery
import MmoServer.LockfreeQueue.MPMCRefusal
import MmoServer.LockfreeQueue.MPSCQueue
import MmoServer.LockfreeQueue.MPSCDelivery
import MmoServer.LockfreeQueue.MPSCRefusal
import MmoServer.LockfreeQueue.WrapAround
import MmoServer.LockfreeQueue.Laps
import MmoServer.LockfreeQueue.MPMCLaps
import MmoServer.LockfreeQueue.MPSCLaps
import MmoServer.LockfreeQueue.ApproxSize
import MmoServer.LockfreeQueue.SingleProducer
import MmoServer.LockfreeQueue.MPMCFifo
import MmoServer.Events.EventBus
import MmoServer.Events.Steps
import MmoServer.Events.Topology
import MmoServer.Events.History
import MmoServer.Events.Publication
import MmoServer.Events.Subscribers
import MmoServer.Events.Delivery
import MmoServer.Events.Removal
import MmoServer.Events.Tokens
import MmoServer.Timer.TimerQueue
import MmoServer.Timer.Steps
import MmoServer.Timer.History
import MmoServer.Timer.Dispatch
import MmoServer.Timer.Cancellation
import MmoServer.Timer.Expiry
import MmoServer.Timer.Termination
import MmoServer.Timer.Deadline
import MmoServer.Packet.PacketBuffer
import MmoServer.Packet.PacketWriter
import MmoServer.Packet.PacketReader
import MmoServer.Serialization.StringSerializer
import MmoServer.Serialization.Agreement
import MmoServer.Serialization.Fields
import MmoServer.Serialization.RoundTrip
import MmoServer.Net.PacketCodec
import MmoServer.Net.ReadLoop
import MmoServer.Net.Segmentation
import MmoServer.Net.FrameGrammar
import MmoServer.Net.ReceiveBound
import MmoServer.Net.SendPipeline
import MmoServer.Net.SendOrder
import MmoServer.Net.NetServer
import MmoServer.Net.ServerSteps
import MmoServer.Net.ServerLifecycle
import MmoServer.Net.InboundPath
import MmoServer.Net.OutboundStream
import MmoServer.Net.Messages
import MmoServer.Runtime.TaskGraph
import MmoServer.Runtime.TaskRegistry
import MmoServer.Runtime.RuntimePipelineExecutor
import MmoServer.Runtime.JobDispatch.Model
import MmoServer.Runtime.JobDispatch.Steps
import MmoServer.Runtime.JobDispatch.Accounting
import MmoServer.Runtime.JobDispatch.Trace
import MmoServer.Runtime.JobDispatch.Flow
import MmoServer.Runtime.JobDispatch.Schedule
import MmoServer.Runtime.JobDispatch.Counters
import MmoServer.Runtime.JobDispatch.Tick
import MmoServer.Runtime.JobDispatch.Ticks
import MmoServer.Runtime.JobDispatch.Duplicate
import MmoServer.Runtime.JobDispatch.Barrier
import MmoServer.Runtime.JobDispatch.Completion
import MmoServer.Runtime.JobDispatch.Capacity
import MmoServer.Runtime.JobDispatch.Lifecycle
import MmoServer.Runtime.JobDispatch.Shutdown
import MmoServer.Runtime.JobDispatch.Addressing
import MmoServer.Runtime.JobDispatch.FailedInitialize
import MmoServer.Runtime.TickScheduler
import MmoServer.Runtime.TickShutdown
import MmoServer.Runtime.JobDispatch.Callers
import MmoServer.Runtime.JobDispatch.ReleaseOnce
import MmoServer.Runtime.JobDispatch.Layered
import MmoServer.Runtime.JobDispatch.TickEffect
import MmoServer.Runtime.PipelineOverDispatch
import MmoServer.Runtime.ExecutorRefinement
import MmoServer.Runtime.TickPacing
import MmoServer.Runtime.TickGrid
import MmoServer.Runtime.JobDispatch.QueuedModel
import MmoServer.Runtime.JobDispatch.QueuedRefinement
import MmoServer.Runtime.JobDispatch.QueuedSession
