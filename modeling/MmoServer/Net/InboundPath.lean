import MmoServer.LockfreeQueue.SingleProducer
import MmoServer.Net.NetServer

/-!
# From the bytes of a peer to PollPacket

The io thread runs the read handlers of all connections: it appends what was read to the
connection's receive buffer, and calls Decode and Enqueue in turn until Decode answers
false. Meanwhile the runtime thread calls PollPacket. A step is one access of the inbound
queue, or one Decode, which touches what only the io thread uses.

What is polled of a connection are the packets that its bytes decode to, in order, less
those that were refused by a full queue (`polled_of_read`). So a peer that sends what
Encode produces has its packets polled as it sent them, whatever other peers send
(`polled_of_sent`).
-/

namespace MmoServer.Net

open MmoServer.LockfreeQueue MmoServer.Semantics MmoServer.Std

/-- The template parameter of the inbound queue. -/
def inboundCapacity : QueueCapacity where
  value := kInboundQueueCapacity
  fitsSize := by decide
  atLeastTwo := by decide
  powerOfTwo := by decide

/-- The inbound queue knows the io thread as this producer. -/
abbrev ioProducer : Nat := 0

/-- Where the io thread is. -/
inductive ReadPoint where
  /-- In no read handler. -/
  | outside
  /-- Before Decode. -/
  | decode (connectionId : ConnectionId)
  /-- In Enqueue. -/
  | enqueue (connectionId : ConnectionId)
deriving DecidableEq

/-- The receive buffers, the io thread's place in a read handler, and the real inbound queue. -/
structure InboundPath where
  receiveBuffers : ConnectionId → ByteBuffer
  io : ReadPoint
  inboundQueue : MPSCQueue ReceivedPacket inboundCapacity

namespace InboundPath

/-- Whether the io thread moves or the caller of PollPacket. -/
inductive Choice where
  /-- The io thread calls the handler of a read. -/
  | read (connectionId : ConnectionId) (chunk : ByteBuffer)
  | decode
  /-- The next step of Enqueue. -/
  | enqueue (spurious : Bool)
  | callPollPacket
  /-- The next step of the Dequeue in PollPacket. -/
  | pollPacket (left : ReceivedPacket)

/-- What a step shows of itself. -/
inductive Event where
  | read (connectionId : ConnectionId) (chunk : ByteBuffer)
  /-- Decode answered true, and Enqueue was called. -/
  | decoded (packet : ReceivedPacket)
  /-- Decode answered false, and the handler returned. -/
  | returned
  | queue (event : MPSCQueue.Event ReceivedPacket)
deriving DecidableEq

/-- A server before its first read. -/
def started (storage : Fin inboundCapacity.value → ReceivedPacket) : InboundPath where
  receiveBuffers _ := []
  io := .outside
  inboundQueue := MPSCQueue.constructed storage

/-- A step of the inbound queue. -/
def onQueue (path : InboundPath) (choice : MPSCQueue.Choice ReceivedPacket) :
    Option (InboundPath × Event) :=
  match path.inboundQueue.step choice with
  | none => none
  | some (inboundQueue, event) => some ({ path with inboundQueue }, .queue event)

/-- The handlers of reads run one at a time, on the io thread. -/
def step (path : InboundPath) : Choice → Option (InboundPath × Event)
  | .read connectionId chunk =>
    if path.io = .outside ∧ chunk.length ≤ chunkSize then
      some ({ path with
          receiveBuffers := Function.update path.receiveBuffers connectionId
            (path.receiveBuffers connectionId ++ chunk)
          io := .decode connectionId },
        .read connectionId chunk)
    else none
  | .decode =>
    match path.io with
    | .decode connectionId =>
      let decoded := PacketCodec.decode (path.receiveBuffers connectionId) {}
      let receiveBuffers :=
        Function.update path.receiveBuffers connectionId decoded.receiveBuffer
      if decoded.accepted then
        let packet := { decoded.outPacket with connectionId }
        match path.inboundQueue.step (.callEnqueue ioProducer packet) with
        | none => none
        | some (inboundQueue, _) =>
          some ({ receiveBuffers, io := .enqueue connectionId, inboundQueue }, .decoded packet)
      else some ({ path with receiveBuffers, io := .outside }, .returned)
    | .outside | .enqueue _ => none
  | .enqueue spurious =>
    match path.io with
    | .enqueue connectionId =>
      match path.onQueue (.enqueue ioProducer spurious) with
      | none => none
      | some (next, event) =>
        -- Enqueue has returned when its producer is in no call any more.
        if (next.inboundQueue.producers ioProducer).isNone then
          some ({ next with io := .decode connectionId }, event)
        else some (next, event)
    | .outside | .decode _ => none
  | .callPollPacket => path.onQueue .callDequeue
  | .pollPacket left => path.onQueue (.dequeue left)

/-- The path under any interleaving of its two threads. -/
def system : TransitionSystem InboundPath Choice Event where
  step := step

/-! ## What a step can do -/

/-- The io thread with a packet that Decode has taken off a receive buffer. -/
def offer (path : InboundPath) (connectionId : ConnectionId) (rest : ByteBuffer)
    (packet : Packet) : InboundPath where
  receiveBuffers := Function.update path.receiveBuffers connectionId rest
  io := .enqueue connectionId
  inboundQueue := { path.inboundQueue with
    producers := Function.update path.inboundQueue.producers ioProducer
      (some (.loadTail (packet.received connectionId))) }

/-- The io thread after a handler. -/
def endRead (path : InboundPath) (connectionId : ConnectionId) (left : ByteBuffer) : InboundPath :=
  { path with
    receiveBuffers := Function.update path.receiveBuffers connectionId left
    io := .outside }

/-- The outcomes of one step, with their guards. -/
inductive Step (path : InboundPath) : InboundPath → Event → Prop
  | read (outside : path.io = .outside) (connectionId : ConnectionId) (chunk : ByteBuffer) :
      Step path
        { path with
          receiveBuffers := Function.update path.receiveBuffers connectionId
            (path.receiveBuffers connectionId ++ chunk)
          io := .decode connectionId }
        (.read connectionId chunk)
  | decoded {connectionId packet rest} (here : path.io = .decode connectionId)
      (taken : packetDecoder.decode (path.receiveBuffers connectionId) = .frame packet rest)
      (idle : path.inboundQueue.producers ioProducer = none) :
      Step path (path.offer connectionId rest packet) (.decoded (packet.received connectionId))
  | returned {connectionId} (here : path.io = .decode connectionId)
      (ends : packetDecoder.drain (path.receiveBuffers connectionId) =
        ([], (PacketCodec.decode (path.receiveBuffers connectionId) {}).receiveBuffer)) :
      Step path (path.endRead connectionId
        (PacketCodec.decode (path.receiveBuffers connectionId) {}).receiveBuffer) .returned
  | enqueue {connectionId spurious inboundQueue event io} (here : path.io = .enqueue connectionId)
      (moved : path.inboundQueue.step (.enqueue ioProducer spurious) = some (inboundQueue, event))
      (after : io = if (inboundQueue.producers ioProducer).isNone then .decode connectionId
        else .enqueue connectionId) :
      Step path { path with io, inboundQueue } (.queue event)
  | poll {choice inboundQueue event}
      (moved : path.inboundQueue.step choice = some (inboundQueue, event))
      (other : choice.producer? = none) :
      Step path { path with inboundQueue } (.queue event)

variable {path next : InboundPath} {choice : Choice} {event : Event} {events : List Event}
  {connectionId : ConnectionId} {buffer : ByteBuffer} {packets : List Packet}
  {storage : Fin inboundCapacity.value → ReceivedPacket}
  {queueChoice : MPSCQueue.Choice ReceivedPacket}

/-- A step of the queue leaves the rest of the path. -/
theorem onQueue_sound (moved : path.onQueue queueChoice = some (next, event)) :
    ∃ inboundQueue shown, path.inboundQueue.step queueChoice = some (inboundQueue, shown) ∧
      next = { path with inboundQueue } ∧ event = .queue shown := by
  simp only [onQueue] at moved
  split at moved
  · cases moved
  · next inboundQueue shown stepped =>
    cases moved
    exact ⟨inboundQueue, shown, stepped, rfl, rfl⟩

/-- Decode has taken a packet off the buffer. -/
theorem decode_accepted (accepted : (PacketCodec.decode buffer {}).accepted = true) :
    ∃ packet, packetDecoder.decode buffer =
        .frame packet (PacketCodec.decode buffer {}).receiveBuffer ∧
      { (PacketCodec.decode buffer {}).outPacket with connectionId } =
        packet.received connectionId := by
  have complete := PacketCodec.accepted_iff.mp accepted
  rw [PacketCodec.decode_of_complete complete]
  exact ⟨_, packetVerdict_of_complete complete, rfl⟩

/-- Decode has found no packet, and drained what it has rejected. -/
theorem decode_refused (refused : ¬ (PacketCodec.decode buffer {}).accepted = true) :
    packetDecoder.drain buffer = ([], (PacketCodec.decode buffer {}).receiveBuffer) := by
  have done : decodeRound 0 { handed := [], streamBuffer := buffer } = .returned
      { handed := [], streamBuffer := (PacketCodec.decode buffer {}).receiveBuffer } := by
    rw [decodeRound]
    exact if_neg refused
  exact (decodeRound_returned done).1

/-- Every step of the path is one of the listed outcomes. -/
theorem step_sound (transition : path.step choice = some (next, event)) :
    Step path next event := by
  cases choice with
  | read connectionId chunk =>
      simp only [step] at transition
      split at transition
      · next here =>
        cases transition
        exact .read here.1 connectionId chunk
      · cases transition
  | decode =>
      simp only [step] at transition
      split at transition
      · next connectionId here =>
        split at transition
        · next accepted =>
          obtain ⟨packet, taken, same⟩ := decode_accepted accepted
          rw [same] at transition
          split at transition
          · cases transition
          · next called =>
            cases transition
            cases MPSCQueue.step_sound called with
            | callEnqueue idle item => exact .decoded here taken idle
        · next refused =>
          cases transition
          exact .returned here (decode_refused refused)
      · cases transition
      · cases transition
  | enqueue spurious =>
      simp only [step] at transition
      split at transition
      · next connectionId here =>
        split at transition
        · cases transition
        · next moved =>
          obtain ⟨inboundQueue, shown, stepped, rfl, rfl⟩ := onQueue_sound moved
          split at transition
          · next ended =>
            cases transition
            exact .enqueue here stepped (if_pos ended).symm
          · next goesOn =>
            cases transition
            exact .enqueue here stepped (here.trans (if_neg goesOn).symm)
      · cases transition
      · cases transition
  | callPollPacket =>
      obtain ⟨inboundQueue, shown, stepped, rfl, rfl⟩ := onQueue_sound transition
      exact .poll stepped rfl
  | pollPacket left =>
      obtain ⟨inboundQueue, shown, stepped, rfl, rfl⟩ := onQueue_sound transition
      exact .poll stepped rfl

/-! ## What a run shows -/

/-- What the inbound queue is seen to do. -/
def Event.queue? : Event → Option (MPSCQueue.Event ReceivedPacket)
  | .decoded packet => some (.calledEnqueue ioProducer packet)
  | .queue event => some event
  | .read _ _ | .returned => none

/-- The packet that Decode has taken off a buffer. -/
def Event.decoded? : Event → Option ReceivedPacket
  | .decoded packet => some packet
  | _ => none

/-- The bytes that a read has brought of the connection. -/
def Event.chunk? (connectionId : ConnectionId) : Event → Option ByteBuffer
  | .read other chunk => if other = connectionId then some chunk else none
  | _ => none

/-- The steps of the inbound queue. -/
def queueEvents (events : List Event) : List (MPSCQueue.Event ReceivedPacket) :=
  events.filterMap Event.queue?

/-- What Decode has taken off the receive buffers. -/
def decoded (events : List Event) : List ReceivedPacket := events.filterMap Event.decoded?

/-- What has been read of a connection. -/
def chunksOf (connectionId : ConnectionId) (events : List Event) : List ByteBuffer :=
  events.filterMap (Event.chunk? connectionId)

/-- What calls of Enqueue and PollPacket have come to. -/
def answers (events : List Event) : List (QueueAnswer ReceivedPacket) :=
  MPSCQueue.answers (queueEvents events)

/-- The packets with which PollPacket has returned true. -/
def polled (events : List Event) : List ReceivedPacket :=
  (queueEvents events).filterMap MPSCQueue.Event.returned?

/-- The packets of a connection. -/
def ofConnection (connectionId : ConnectionId) (packets : List ReceivedPacket) :
    List ReceivedPacket :=
  packets.filter fun packet => packet.connectionId = connectionId

/-! ## The inbound queue has one producer -/

theorem queueEvents_concat (events : List Event) (event : Event) :
    queueEvents (events ++ [event]) = queueEvents events ++ event.queue?.toList :=
  filterMap_concat Event.queue? events event

/-- The io thread is the only producer of the inbound queue. -/
theorem queue_runs (run : system.Runs (started storage) events path) :
    (MPSCQueue.system ReceivedPacket inboundCapacity).RunsUnder
      (MPSCQueue.OneProducer ioProducer) (MPSCQueue.startedAt 0 storage) (queueEvents events)
      path.inboundQueue := by
  apply run.invariant fun events path =>
    (MPSCQueue.system ReceivedPacket inboundCapacity).RunsUnder
      (MPSCQueue.OneProducer ioProducer) (MPSCQueue.startedAt 0 storage) (queueEvents events)
      path.inboundQueue
  · exact .refl
  · intro events path choice next event _ prior transition _
    rw [queueEvents_concat]
    cases step_sound transition with
    | read | returned => exact (List.append_nil (queueEvents events)).symm ▸ prior
    | @decoded connectionId packet rest here taken idle =>
        have called : (MPSCQueue.system ReceivedPacket inboundCapacity).step path.inboundQueue
            (.callEnqueue ioProducer (packet.received connectionId)) =
              some ((path.offer connectionId rest packet).inboundQueue,
                .calledEnqueue ioProducer (packet.received connectionId)) := by
          simp only [MPSCQueue.system, MPSCQueue.step, idle, offer]
        exact .step prior called (by simp [MPSCQueue.OneProducer, MPSCQueue.Choice.producer?])
    | @enqueue connectionId spurious inboundQueue shown io here moved after =>
        have stepped : (MPSCQueue.system ReceivedPacket inboundCapacity).step path.inboundQueue
            (.enqueue ioProducer spurious) = some (inboundQueue, shown) := moved
        exact .step prior stepped (by simp [MPSCQueue.OneProducer, MPSCQueue.Choice.producer?])
    | poll moved other => exact .step prior moved (by simp [MPSCQueue.OneProducer, other])

/-- The io thread is in a call of Enqueue only where its handler is. -/
theorem idle_of_runs (run : system.Runs (started storage) events path)
    (elsewhere : ∀ connectionId, path.io ≠ .enqueue connectionId) :
    path.inboundQueue.producers ioProducer = none := by
  revert elsewhere
  apply run.invariant fun _ path => (∀ connectionId, path.io ≠ .enqueue connectionId) →
    path.inboundQueue.producers ioProducer = none
  · exact fun _ => rfl
  · intro events path choice next event _ idle transition _ elsewhere
    cases step_sound transition with
    | read outside => exact idle fun _ => by simp [outside]
    | decoded here => exact absurd rfl (elsewhere _)
    | returned here => exact idle fun _ => by simp [here]
    | enqueue here moved after =>
        by_contra calling
        refine elsewhere _ (after.trans (if_neg ?_))
        rwa [Option.isNone_iff_eq_none]
    | poll moved other =>
        have before := idle elsewhere
        cases MPSCQueue.step_sound moved with
        | callEnqueue | enqueue => cases other
        | callDequeue | dequeue => exact before

/-! ## What is decoded -/

/-- The io thread is in a handler of the connection. -/
def Reading (path : InboundPath) (connectionId : ConnectionId) : Prop :=
  path.io = .decode connectionId ∨ path.io = .enqueue connectionId

/-- What Decode has taken off the bytes of a connection, and what it has left of them. -/
structure Decodes (connectionId : ConnectionId) (events : List Event) (path : InboundPath)
    (frames : List Packet) : Prop where
  taken : ofConnection connectionId (decoded events) = frames.map (Packet.received connectionId)
  fed : packetDecoder.feed [] (chunksOf connectionId events) =
    (frames ++ (packetDecoder.drain (path.receiveBuffers connectionId)).1,
      (packetDecoder.drain (path.receiveBuffers connectionId)).2)
  waits : ¬ path.Reading connectionId →
    packetDecoder.decode (path.receiveBuffers connectionId) = .wait

variable {frames : List Packet}

theorem decoded_concat (events : List Event) (event : Event) :
    decoded (events ++ [event]) = decoded events ++ event.decoded?.toList :=
  filterMap_concat Event.decoded? events event

theorem chunksOf_concat (events : List Event) (event : Event) :
    chunksOf connectionId (events ++ [event]) =
      chunksOf connectionId events ++ (event.chunk? connectionId).toList :=
  filterMap_concat (Event.chunk? connectionId) events event

/-- A step that reads and decodes nothing of the connection. -/
theorem Decodes.keep (decodes : Decodes connectionId events path frames)
    (undecoded : ofConnection connectionId event.decoded?.toList = [])
    (unread : event.chunk? connectionId = none)
    (same : next.receiveBuffers connectionId = path.receiveBuffers connectionId)
    (still : ¬ next.Reading connectionId → ¬ path.Reading connectionId) :
    Decodes connectionId (events ++ [event]) next frames where
  taken := by
    rw [decoded_concat, ofConnection, List.filter_append, ← ofConnection, ← ofConnection,
      undecoded, List.append_nil, decodes.taken]
  fed := by
    rw [chunksOf_concat, unread, same, Option.toList_none, List.append_nil, decodes.fed]
  waits outside := by
    rw [same]
    exact decodes.waits (still outside)

/-- Every step keeps the connection's packets those of its bytes. -/
theorem Decodes.step (decodes : Decodes connectionId events path frames)
    (transition : path.step choice = some (next, event)) :
    ∃ frames, Decodes connectionId (events ++ [event]) next frames := by
  cases step_sound transition with
  | read outside other chunk =>
      have waits := decodes.waits (by simp [Reading, outside])
      by_cases same : other = connectionId
      · subst same
        refine ⟨frames, ?_, ?_, fun elsewhere => absurd (.inl rfl) elsewhere⟩
        · rw [decoded_concat]
          simpa [Event.decoded?] using decodes.taken
        · have fed := decodes.fed
          rw [StreamDecoder.drain_of_wait waits, List.append_nil] at fed
          rw [chunksOf_concat, Event.chunk?, if_pos rfl, StreamDecoder.feed_append, fed]
          simp [StreamDecoder.feed]
      · refine ⟨frames, decodes.keep rfl (by simp [Event.chunk?, same]) ?_ ?_⟩
        · exact Function.update_of_ne (Ne.symm same) _ _
        · intro _
          simp [Reading, outside]
  | @decoded other packet rest here taken idle =>
      by_cases same : other = connectionId
      · subst same
        refine ⟨frames ++ [packet], ?_, ?_, fun elsewhere => absurd (.inr rfl) elsewhere⟩
        · rw [decoded_concat, ofConnection, List.filter_append, ← ofConnection, decodes.taken]
          simp [Event.decoded?, Packet.received]
        · have unread : (Event.decoded (packet.received other)).chunk? other = none := rfl
          rw [chunksOf_concat, unread, Option.toList_none, List.append_nil, decodes.fed,
            StreamDecoder.drain_of_frame taken]
          simp [offer]
      · refine ⟨frames, decodes.keep ?_ rfl ?_ ?_⟩
        · simp [ofConnection, Event.decoded?, Packet.received, same]
        · exact Function.update_of_ne (Ne.symm same) _ _
        · intro _
          simp [Reading, here, same]
  | @returned other here ends =>
      by_cases same : other = connectionId
      · subst same
        have waits : packetDecoder.decode
            (PacketCodec.decode (path.receiveBuffers other) {}).receiveBuffer = .wait := by
          have left := StreamDecoder.drain_leaves_wait packetDecoder (path.receiveBuffers other)
          rwa [ends] at left
        refine ⟨frames, ?_, ?_, fun _ => by simpa [endRead] using waits⟩
        · rw [decoded_concat]
          simpa [Event.decoded?] using decodes.taken
        · have unread : Event.returned.chunk? other = none := rfl
          rw [chunksOf_concat, unread, Option.toList_none, List.append_nil, decodes.fed, ends]
          simp [endRead, StreamDecoder.drain_of_wait waits]
      · refine ⟨frames, decodes.keep rfl rfl ?_ ?_⟩
        · exact Function.update_of_ne (Ne.symm same) _ _
        · intro _
          simp [Reading, here, same]
  | @enqueue other spurious inboundQueue shown io here moved after =>
      refine ⟨frames, decodes.keep rfl rfl rfl ?_⟩
      intro elsewhere
      rw [Reading, after] at elsewhere
      rw [Reading, here]
      split at elsewhere <;> simpa using elsewhere
  | poll moved other => exact ⟨frames, decodes.keep rfl rfl rfl id⟩

/-- Along every run they are. -/
theorem decodes_of_runs (run : system.Runs (started storage) events path)
    (connectionId : ConnectionId) : ∃ frames, Decodes connectionId events path frames := by
  apply run.invariant fun events path => ∃ frames, Decodes connectionId events path frames
  · refine ⟨[], rfl, ?_, fun _ => packetDecoder.decode_nil⟩
    simp [started, chunksOf, StreamDecoder.feed, StreamDecoder.drain_nil]
  · rintro events path choice next event - ⟨frames, decodes⟩ transition -
    exact decodes.step transition

/-- What Decode has taken of a connection is what the read loop delivers of its chunks, all
of it outside the connection's handler. -/
theorem decoded_prefix (run : system.Runs (started storage) events path)
    (connectionId : ConnectionId) :
    ofConnection connectionId (decoded events) <+:
      (deliver connectionId [] (chunksOf connectionId events)).1 ∧
    (¬ path.Reading connectionId → ofConnection connectionId (decoded events) =
      (deliver connectionId [] (chunksOf connectionId events)).1) := by
  obtain ⟨frames, taken, fed, waits⟩ := decodes_of_runs run connectionId
  rw [deliver_eq_feed, fed, taken]
  refine ⟨(List.prefix_append _ _).map _, fun outside => ?_⟩
  rw [StreamDecoder.drain_of_wait (waits outside), List.append_nil]

/-! ## What is polled -/

/-- Enqueue is called with what Decode has taken. -/
theorem offered_queueEvents (run : system.Runs (started storage) events path) :
    MPSCQueue.offered (queueEvents events) = decoded events := by
  apply run.invariant fun events _ => MPSCQueue.offered (queueEvents events) = decoded events
  · rfl
  · intro events path choice next event _ before transition _
    rw [queueEvents_concat, decoded_concat, ← before, MPSCQueue.offered, List.filterMap_append,
      ← MPSCQueue.offered]
    congr 1
    cases step_sound transition with
    | read | decoded | returned => rfl
    | enqueue here moved after =>
        cases MPSCQueue.step_sound moved with
        | enqueue => rfl
    | poll moved other =>
        cases MPSCQueue.step_sound moved with
        | callEnqueue | enqueue => cases other
        | callDequeue | dequeue => rfl

/-- The packets between Decode and PollPacket. -/
structure Queued (events : List Event) (path : InboundPath)
    (fifo : BoundedQueue ReceivedPacket kInboundQueueCapacity) : Prop where
  answered : (BoundedQueue.system ReceivedPacket kInboundQueueCapacity).Runs .empty
    (answers events) fifo
  related : MPSCQueue.Related ioProducer path.inboundQueue fifo
  polled : polled events ++ (MPSCQueue.pending? path.inboundQueue.consumer).toList ++ fifo.items =
    BoundedQueue.enqueued (answers events)
  inOrder : (BoundedQueue.enqueued (answers events) ++
    (MPSCQueue.offering? (path.inboundQueue.producers ioProducer)).toList).Sublist (decoded events)
  counted : (BoundedQueue.enqueued (answers events)).length +
    tally QueueAnswer.refuses (answers events) +
    (MPSCQueue.offering? (path.inboundQueue.producers ioProducer)).toList.length =
      (decoded events).length

/-- Along every run the inbound queue is a bounded queue. -/
theorem queued_of_runs (run : system.Runs (started storage) events path) :
    ∃ fifo, Queued events path fifo := by
  have runs := queue_runs run
  obtain ⟨fifo, answered, related⟩ := MPSCQueue.answers_runs (Nat.dvd_zero _) runs
  obtain ⟨inOrder, counted⟩ := MPSCQueue.offered_of_runs runs
  rw [offered_queueEvents run] at inOrder counted
  refine ⟨fifo, answered, related, ?_, inOrder, counted⟩
  rw [answers, BoundedQueue.conserved answered, MPSCQueue.dequeued_answers runs]
  rfl

/-- Packets are polled in the order in which they are decoded, and none is lost but to a
full queue. What is decoded of a connection is what its chunks deliver. -/
theorem polled_of_read (storage : Fin inboundCapacity.value → ReceivedPacket)
    (events : List Event) (path : InboundPath) (run : system.Runs (started storage) events path) :
    ∃ fifo, (BoundedQueue.system ReceivedPacket kInboundQueueCapacity).Runs .empty
        (answers events) fifo ∧
      polled events ++ (MPSCQueue.pending? path.inboundQueue.consumer).toList ++ fifo.items =
        BoundedQueue.enqueued (answers events) ∧
      (BoundedQueue.enqueued (answers events)).Sublist (decoded events) ∧
      (decoded events).length = (BoundedQueue.enqueued (answers events)).length +
        tally QueueAnswer.refuses (answers events) +
        (MPSCQueue.offering? (path.inboundQueue.producers ioProducer)).toList.length ∧
      ∀ connectionId, ofConnection connectionId (decoded events) <+:
          (deliver connectionId [] (chunksOf connectionId events)).1 ∧
        (¬ path.Reading connectionId → ofConnection connectionId (decoded events) =
          (deliver connectionId [] (chunksOf connectionId events)).1) := by
  obtain ⟨fifo, queued⟩ := queued_of_runs run
  exact ⟨fifo, queued.answered, queued.polled, (List.sublist_append_left _ _).trans queued.inOrder,
    queued.counted.symm, decoded_prefix run⟩

/-- Of two packets in one chunk, the first is polled while the second is being enqueued. -/
theorem polled_while_enqueued : ∃ events path,
    system.Runs (started fun _ => {}) events path ∧ polled events = [⟨7, 1, [10]⟩] ∧
    (deliver 7 [] (chunksOf 7 events)).1 = [⟨7, 1, [10]⟩, ⟨7, 2, []⟩] ∧
    ∃ fifo, (BoundedQueue.system ReceivedPacket kInboundQueueCapacity).Runs .empty
      [.enqueued ⟨7, 1, [10]⟩, .dequeued ⟨7, 1, [10]⟩] fifo ∧
      [⟨7, 1, [10]⟩] ++ fifo.items = [⟨7, 1, [10]⟩] := by
  obtain ⟨events, path, run, shown, delivered, answered, outside⟩ :=
    system.runs_of_exec (fun _ _ _ _ => True) (started fun _ => {})
      (.read 7 [1, 0, 0, 0, 1, 0, 10, 0, 0, 0, 0, 2, 0] :: .decode ::
        List.replicate 5 (.enqueue false) ++ .decode :: List.replicate 4 (.enqueue false) ++
        .callPollPacket :: List.replicate 5 (.pollPacket {}))
      (fun path events => polled events = [⟨7, 1, [10]⟩] ∧
        (deliver 7 [] (chunksOf 7 events)).1 = [⟨7, 1, [10]⟩, ⟨7, 2, []⟩] ∧
        answers events = [.enqueued ⟨7, 1, [10]⟩, .dequeued ⟨7, 1, [10]⟩] ∧
        path.inboundQueue.consumer.isNone = true)
      (by decide +kernel)
  obtain ⟨fifo, runs, items, -⟩ := polled_of_read (fun _ => {}) events path run
  rw [answered] at runs items
  rw [shown, Option.isNone_iff_eq_none.mp outside] at items
  exact ⟨events, path, run, shown, delivered, fifo, runs, items⟩

/-! ## From peer to server -/

/-- No Enqueue was refused. -/
def Undropped (events : List Event) : Prop := tally QueueAnswer.refuses (answers events) = 0

instance (events : List Event) : Decidable (Undropped events) := inferInstanceAs (Decidable (_ = _))

/-- No thread is in a call, and the inbound queue is empty. -/
structure Quiescent (path : InboundPath) : Prop where
  outside : path.io = .outside
  consumer : path.inboundQueue.consumer = none
  empty : path.inboundQueue.enqueuePos = path.inboundQueue.dequeuePos

/-- Where nothing has been dropped, what was decoded has been enqueued or is being offered. -/
theorem Queued.eq_decoded {fifo : BoundedQueue ReceivedPacket kInboundQueueCapacity}
    (queued : Queued events path fifo) (undropped : Undropped events) :
    BoundedQueue.enqueued (answers events) ++
      (MPSCQueue.offering? (path.inboundQueue.producers ioProducer)).toList = decoded events := by
  have counted := queued.counted
  rw [undropped, Nat.add_zero, ← List.length_append] at counted
  exact queued.inOrder.eq_of_length counted

/-- A queue at rest that has answered with nothing is empty. -/
theorem Queued.empty {fifo : BoundedQueue ReceivedPacket kInboundQueueCapacity}
    (queued : Queued events path fifo) (idle : path.inboundQueue.producers ioProducer = none)
    (quiescent : path.Quiescent) : fifo.items = [] := by
  obtain ⟨slots, head, tail, represents⟩ := queued.related
  exact (represents.stores_of_quiescent idle quiescent.consumer).items_eq_nil quiescent.empty

/-- What is polled was decoded: some of it always, a front of it while nothing has been
dropped, and then all of it when nothing is left. -/
theorem polled_prefix (run : system.Runs (started storage) events path) :
    (polled events).Sublist (decoded events) ∧
    (Undropped events → polled events <+: decoded events) ∧
    (Undropped events → path.Quiescent → polled events = decoded events) := by
  obtain ⟨fifo, queued⟩ := queued_of_runs run
  have front : polled events <+: BoundedQueue.enqueued (answers events) := by
    rw [← queued.polled, List.append_assoc]
    exact List.prefix_append _ _
  refine ⟨?_, ?_, ?_⟩
  · exact front.sublist.trans ((List.sublist_append_left _ _).trans queued.inOrder)
  · intro undropped
    rw [← queued.eq_decoded undropped]
    exact front.trans (List.prefix_append _ _)
  · intro undropped quiescent
    have idle := idle_of_runs run fun _ => by simp [quiescent.outside]
    have whole := queued.polled
    rw [queued.empty idle quiescent, quiescent.consumer] at whole
    rw [← queued.eq_decoded undropped, ← whole, idle]
    simp [MPSCQueue.pending?, MPSCQueue.offering?]

/-- What has arrived of a stream of encoded packets is delivered packet by packet. -/
theorem deliver_of_sent (connectionId : ConnectionId) {packets : List Packet}
    {chunks : List ByteBuffer}
    (fits : ∀ packet ∈ packets, packet.payload.length ≤ PacketCodec.maxPacketSize)
    (arrived : chunks.flatten <+: packets.flatMap Packet.encode) :
    (deliver connectionId [] chunks).1 <+: packets.map (Packet.received connectionId) ∧
    (chunks.flatten = packets.flatMap Packet.encode →
      (deliver connectionId [] chunks).1 = packets.map (Packet.received connectionId)) := by
  have whole : ∀ packet ∈ packets, packetDecoder.decode packet.encode = .frame packet [] :=
    fun packet member => decode_encoded (fits packet member)
  obtain ⟨later, stream⟩ := arrived
  have clean : packetDecoder.Clean chunks.flatten := by
    have encoded := StreamDecoder.Clean.of_encoded whole
      (StreamDecoder.Clean.of_wait packetDecoder.decode_nil)
    rw [List.append_nil, ← stream] at encoded
    exact encoded.of_append
  have drained := StreamDecoder.feed_eq_drain_flatten clean
  rw [deliver_eq_feed, drained]
  constructor
  · obtain ⟨count, taken, -⟩ := StreamDecoder.drain_encoded_prefix whole stream
    rw [taken]
    exact (List.take_prefix count packets).map _
  · intro complete
    have all := StreamDecoder.drain_encoded whole []
    rw [List.append_nil, StreamDecoder.drain_nil, List.append_nil] at all
    rw [complete, all]

/-- What a peer sends with Encode is polled in the order in which it was sent, whatever
other peers send and however the bytes are cut: some of it always, a front of it while no
Enqueue has been refused, and all of it once it has all been read and nothing is left. -/
theorem polled_of_sent (storage : Fin inboundCapacity.value → ReceivedPacket)
    (events : List Event) (path : InboundPath) (run : system.Runs (started storage) events path)
    (connectionId : ConnectionId) (packets : List Packet)
    (fits : ∀ packet ∈ packets, packet.payload.length ≤ PacketCodec.maxPacketSize)
    (arrived : (chunksOf connectionId events).flatten <+: packets.flatMap Packet.encode) :
    (ofConnection connectionId (polled events)).Sublist
      (packets.map (Packet.received connectionId)) ∧
    (Undropped events → ofConnection connectionId (polled events) <+:
      packets.map (Packet.received connectionId)) ∧
    (Undropped events → path.Quiescent →
      (chunksOf connectionId events).flatten = packets.flatMap Packet.encode →
      ofConnection connectionId (polled events) = packets.map (Packet.received connectionId)) := by
  obtain ⟨inOrder, front, whole⟩ := polled_prefix run
  obtain ⟨delivered, all⟩ := deliver_of_sent connectionId fits arrived
  obtain ⟨decoded, outside⟩ := decoded_prefix run connectionId
  refine ⟨?_, ?_, ?_⟩
  · exact (inOrder.filter _).trans (decoded.trans delivered).sublist
  · exact fun undropped => ((front undropped).filter _).trans (decoded.trans delivered)
  · intro undropped quiescent complete
    have elsewhere : ¬ path.Reading connectionId := by simp [Reading, quiescent.outside]
    rw [whole undropped quiescent, outside elsewhere, all complete]

/-- Two packets in three reads, between which another peer sends a header that announces
too much. -/
theorem polled_beside_oversized : ∃ events path,
    system.Runs (started fun _ => {}) events path ∧
    (chunksOf 8 events).flatten = [255, 255, 255, 255, 0, 0] ∧
    ofConnection 7 (polled events) = [⟨7, 1, [10]⟩, ⟨7, 2, []⟩] := by
  obtain ⟨events, path, run, arrived, other, undropped, outside, consumer, empty⟩ :=
    system.runs_of_exec (fun _ _ _ _ => True) (started fun _ => {})
      (.read 7 [1, 0, 0] :: .decode :: .read 8 [255, 255, 255, 255, 0, 0] :: .decode ::
        .read 7 [0, 1, 0, 10, 0, 0, 0] :: .decode :: List.replicate 5 (.enqueue false) ++
        .decode :: .callPollPacket :: List.replicate 5 (.pollPacket {}) ++
        .read 7 [0, 2, 0] :: .decode :: List.replicate 5 (.enqueue false) ++
        .decode :: .callPollPacket :: List.replicate 5 (.pollPacket {}))
      (fun path events => (chunksOf 7 events).flatten = [1, 0, 0, 0, 1, 0, 10, 0, 0, 0, 0, 2, 0] ∧
        (chunksOf 8 events).flatten = [255, 255, 255, 255, 0, 0] ∧ Undropped events ∧
        path.io = .outside ∧ path.inboundQueue.consumer.isNone = true ∧
        path.inboundQueue.enqueuePos = path.inboundQueue.dequeuePos)
      (by decide +kernel)
  have stream : (chunksOf 7 events).flatten =
      [⟨1, [10]⟩, ⟨2, []⟩].flatMap Packet.encode := arrived.trans (by decide)
  have sent := polled_of_sent (fun _ => {}) events path run 7 [⟨1, [10]⟩, ⟨2, []⟩] (by decide)
    (stream ▸ List.prefix_rfl)
  have quiescent : path.Quiescent := ⟨outside, Option.isNone_iff_eq_none.mp consumer, empty⟩
  exact ⟨events, path, run, other, sent.2.2 undropped quiescent stream⟩

end InboundPath
end MmoServer.Net
