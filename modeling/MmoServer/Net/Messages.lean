import MmoServer.Net.OutboundStream
import MmoServer.Serialization.RoundTrip

/-!
# Messages between two servers

One process writes the fields of a message with BinaryWriter and hands the packet to Send;
another polls packets and reads the fields with BinaryReader. In between are the send queue
and its write loop, a TCP stream that delivers a front of what it was handed in chunks of its
own, the read loop and the inbound queue. `messages_read_by_peer` puts the guarantees of all
of them together: what is read are the fields that were written, message after message.
-/

namespace MmoServer.Net

open MmoServer.Packet MmoServer.Serialization MmoServer.Semantics MmoServer.Std

/-- A packet as its sender sees it. -/
structure Message where
  packetId : UInt16
  fields : List Field

/-- The packet's payload is what PacketWriter holds once all fields have been written. -/
def Message.WrittenAs (message : Message) (packet : Packet) : Prop :=
  packet.packetId = message.packetId ∧
    ∃ writer, Writes (.atStart .constructed) message.fields writer ∧
      packet.payload = writer.written ∧ packet.payload.length ≤ PacketCodec.maxPacketSize

/-- Wherever the payload lies, targets for fields of these shapes are read as these fields,
and nothing is left. -/
def ReadsBack (payload : ByteBuffer) (fields : List Field) : Prop :=
  ∀ (memory : ByteString) (view : PacketView) (targets : List FieldTarget), view.Inside memory →
    view.bytes memory = payload → targets.map FieldTarget.shape = fields.map Field.shape →
    (∀ target ∈ targets, target.Present) →
      ∃ last, Reads memory (.atStart view) targets fields last ∧ last.getRemainingBytes = 0

theorem Message.WrittenAs.readsBack {message : Message} {packet : Packet}
    (written : message.WrittenAs packet) : ReadsBack packet.payload message.fields := by
  obtain ⟨-, writer, writes, same, -⟩ := written
  intro memory view targets inside bytes shapes present
  exact writes.read_back inside (bytes.trans same) shapes present

/-- A packet that carries a message of some kind. -/
def Carries (kind : Message → Prop) (packet : Packet) : Prop :=
  ∃ message, kind message ∧ message.WrittenAs packet

theorem Carries.fits {kind : Message → Prop} {packet : Packet} (carries : Carries kind packet) :
    packet.payload.length ≤ PacketCodec.maxPacketSize := by
  obtain ⟨-, -, -, -, -, -, fits⟩ := carries
  exact fits

theorem Carries.read {kind : Message → Prop} {packet : Packet} (carries : Carries kind packet) :
    ∃ message, kind message ∧ message.packetId = packet.packetId ∧
      ReadsBack packet.payload message.fields := by
  obtain ⟨message, known, written⟩ := carries
  exact ⟨message, known, written.1.symm, written.readsBack⟩

/-- Threads of one process send messages to a peer while its write loop runs, and the peer
reads the connection among others, whatever the threads on both sides do. The packets that
were pushed carry messages, and those that the peer polls are some of them in the same
order: a front of them while its inbound queue has refused none, and, once both sides have
come to rest, nothing has failed and all has arrived, the packets of all Sends that have
answered true. Each of them is read as the fields it was written from. -/
theorem messages_read_by_peer (count : Nat) (kind : Message → Prop)
    (outbound : List (Event (Fin count))) (pipeline : SendPipeline (Fin count))
    (sending : (SendPipeline.system (Fin count)).RunsUnder
      (SendPipeline.OnlySends (Carries kind)) SendPipeline.accepted outbound pipeline)
    (storage : Fin inboundCapacity.value → ReceivedPacket)
    (inbound : List InboundPath.Event) (path : InboundPath)
    (polling : InboundPath.system.Runs (InboundPath.started storage) inbound path)
    (connectionId : ConnectionId)
    (arrived : (InboundPath.chunksOf connectionId inbound).flatten <+:
      (SendPipeline.handed outbound).flatten) :
    ∃ packets : List Packet, SendPipeline.pushed outbound = packets.map Packet.encode ∧
      (∀ packet ∈ packets, ∃ message, kind message ∧ message.packetId = packet.packetId ∧
        ReadsBack packet.payload message.fields) ∧
      (InboundPath.ofConnection connectionId (InboundPath.polled inbound)).Sublist
        (packets.map (Packet.received connectionId)) ∧
      (InboundPath.Undropped inbound →
        InboundPath.ofConnection connectionId (InboundPath.polled inbound) <+:
          packets.map (Packet.received connectionId)) ∧
      (InboundPath.Undropped inbound → path.Quiescent → .completed true ∉ outbound →
        pipeline.Quiescent → (InboundPath.chunksOf connectionId inbound).flatten =
          (SendPipeline.handed outbound).flatten →
        packets.length = tally Event.accepts outbound ∧
          InboundPath.ofConnection connectionId (InboundPath.polled inbound) =
            packets.map (Packet.received connectionId)) := by
  obtain ⟨-, -, ⟨packets, encoded, carried⟩, counted⟩ := SendPipeline.pushes_of_runs sending
  have stream : (SendPipeline.pushed outbound).flatten = packets.flatMap Packet.encode := by
    rw [encoded, List.flatMap_def]
  have written : (SendPipeline.handed outbound).flatten <+: packets.flatMap Packet.encode := by
    rw [← stream]
    exact List.IsPrefix.flatten ( SendPipeline.handed_prefix sending.runs)
  obtain ⟨delivered, all⟩ := InboundPath.deliver_of_sent connectionId
    (fun packet member => (carried packet member).fits) (arrived.trans written)
  obtain ⟨inOrder, front, whole⟩ := InboundPath.polled_prefix polling
  obtain ⟨decoded, outside⟩ := InboundPath.decoded_prefix polling connectionId
  refine ⟨packets, encoded, fun packet member => (carried packet member).read, ?_, ?_, ?_⟩
  · exact (inOrder.filter _).trans (decoded.trans delivered).sublist
  · exact fun undropped => ((front undropped).filter _).trans (decoded.trans delivered)
  · intro undropped resting succeeds quiescent everything
    constructor
    · rw [SendPipeline.tally_pushes, encoded, List.length_map] at counted
      rw [counted, quiescent.nobody_accepted, Nat.add_zero]
    · have elsewhere : ¬ path.Reading connectionId := by
        simp [InboundPath.Reading, resting.outside]
      have complete : (InboundPath.chunksOf connectionId inbound).flatten =
          packets.flatMap Packet.encode := by
        rw [everything, quiescent.handed_all sending.runs succeeds, stream]
      rw [whole undropped resting, outside elsewhere, all complete]

/-- A byte, a string of one byte and an empty block in a packet of six bytes, which arrives
in two reads. -/
theorem message_of_three_read : ∃ outbound pipeline inbound path,
    (SendPipeline.system (Fin 1)).RunsUnder (SendPipeline.OnlySends (· = ⟨9, [7, 1, 0, 0, 0, 65]⟩))
      SendPipeline.accepted outbound pipeline ∧
    InboundPath.system.Runs (InboundPath.started fun _ => {}) inbound path ∧
    ∃ packets : List Packet, packets.length = 1 ∧
      (∀ packet ∈ packets, ∃ message : Message,
        message = ⟨9, [.primitive ⟨[7], by decide⟩, .string ⟨[65], by decide⟩, .block .empty]⟩ ∧
          message.packetId = packet.packetId ∧ ReadsBack packet.payload message.fields) ∧
      InboundPath.ofConnection 3 (InboundPath.polled inbound) =
        packets.map (Packet.received 3) := by
  have first : writeField (.atStart .constructed) (.primitive ⟨[7], by decide⟩) =
      .ok (true, (PacketWriter.atStart .constructed).appended [7] (by decide)) := rfl
  have second : writeField ((PacketWriter.atStart .constructed).appended [7] (by decide))
      (.string ⟨[65], by decide⟩) =
        .ok (true, (PacketWriter.atStart .constructed).appended [7, 1, 0, 0, 0, 65] (by decide)) := rfl
  have writes := Writes.cons first (.cons second (.cons rfl .nil) : Writes _ [_, .block .empty] _)
  obtain ⟨outbound, pipeline, sending, answered, wrote, succeeds, nothing, sender, io⟩ :=
    (SendPipeline.system (Fin 1)).runs_of_exec
      (SendPipeline.OnlySends (· = ⟨9, [7, 1, 0, 0, 0, 65]⟩)) SendPipeline.accepted
      (.send 0 ⟨9, [7, 1, 0, 0, 0, 65]⟩ :: List.replicate 7 (.step (.sender 0)) ++
        .complete 0 false :: List.replicate 6 (.step .io))
      (fun pipeline events => tally Event.accepts events = 1 ∧
        (SendPipeline.handed events).flatten = [6, 0, 0, 0, 9, 0, 7, 1, 0, 0, 0, 65] ∧
        .completed true ∉ events ∧ pipeline.outstanding = [] ∧
        pipeline.points (.sender 0) = .idle ∧ pipeline.points .io = .idle)
      (by decide)
  obtain ⟨inbound, path, polling, arrived, undropped, outside, consumer, empty⟩ :=
    InboundPath.system.runs_of_exec (fun _ _ _ _ => True) (InboundPath.started fun _ => {})
      (.read 3 [6, 0, 0, 0, 9] :: .decode :: .read 3 [0, 7, 1, 0, 0, 0, 65] :: .decode ::
        List.replicate 5 (.enqueue false) ++ .decode :: .callPollPacket ::
        List.replicate 5 (.pollPacket {}))
      (fun path events => (InboundPath.chunksOf 3 events).flatten =
          [6, 0, 0, 0, 9, 0, 7, 1, 0, 0, 0, 65] ∧
        InboundPath.Undropped events ∧ path.io = .outside ∧
        path.inboundQueue.consumer.isNone = true ∧
        path.inboundQueue.enqueuePos = path.inboundQueue.dequeuePos)
      (by decide +kernel)
  have idle : ∀ agent, pipeline.points agent = .idle := by
    rintro (thread | _)
    · rw [Subsingleton.elim thread 0]
      exact sender
    · exact io
  have carries : ∀ (events : List (Event (Fin 1))) state choice event,
      SendPipeline.OnlySends (· = ⟨9, [7, 1, 0, 0, 0, 65]⟩) events state choice event →
        SendPipeline.OnlySends (Carries (· = ⟨9, [.primitive ⟨[7], by decide⟩,
          .string ⟨[65], by decide⟩, .block .empty]⟩)) events state choice event := by
    intro events state choice event only packet sent
    rw [only packet sent]
    exact ⟨_, rfl, rfl, _, writes, rfl, by decide⟩
  have same := arrived.trans wrote.symm
  obtain ⟨packets, -, read, -, -, whole⟩ := messages_read_by_peer 1 _ outbound pipeline
    (sending.mono carries) (fun _ => {}) inbound path polling 3 (same ▸ List.prefix_rfl)
  obtain ⟨length, polled⟩ := whole undropped ⟨outside, Option.isNone_iff_eq_none.mp consumer, empty⟩
    succeeds ⟨idle, nothing⟩ same
  exact ⟨outbound, pipeline, inbound, path, sending, polling, packets, length.trans answered, read,
    polled⟩

end MmoServer.Net
