import MmoServer.Net.PacketCodec

/-!
# The read loop of a connection

The handler of `async_read_some` appends what it has read to the receive buffer
and calls Decode until it answers false, handing every packet to the inbound
queue. `onRead` is that handler and `deliver` a sequence of its calls.

Decode is a stream decoder (`packetDecoder`), so well-formed streams come through
in whatever pieces they arrive: `stream_round_trip`.
-/

namespace MmoServer.Net

open MmoServer.Std PacketCodec

/-- What a sender gives to Encode. -/
structure Packet where
  packetId : UInt16
  payload : ByteBuffer
deriving DecidableEq

/-- The packet on the wire. -/
def Packet.encode (packet : Packet) : ByteBuffer :=
  PacketCodec.encode packet.packetId packet.payload

/-- The packet as a connection hands it on. -/
def Packet.received (connectionId : ConnectionId) (packet : Packet) : ReceivedPacket :=
  { connectionId, packetId := packet.packetId, payload := packet.payload }

/-- The decode loop of the read handler. Every round takes a header's worth of
bytes at least, so the length of the buffer is enough fuel. -/
def readLoop (connectionId : ConnectionId) : Nat → ByteBuffer → List ReceivedPacket × ByteBuffer
  | 0, streamBuffer => ([], streamBuffer)
  | fuel + 1, streamBuffer =>
    let decoded := decode streamBuffer {}
    if decoded.accepted then
      let later := readLoop connectionId fuel decoded.receiveBuffer
      ({ decoded.outPacket with connectionId } :: later.1, later.2)
    else ([], decoded.receiveBuffer)

/-- The read handler: what it hands to the inbound queue, and the buffer it leaves. -/
def onRead (connectionId : ConnectionId) (streamBuffer chunk : ByteBuffer) :
    List ReceivedPacket × ByteBuffer :=
  readLoop connectionId ((streamBuffer ++ chunk).length + 1) (streamBuffer ++ chunk)

/-- The read handler called for one chunk after the other. -/
def deliver (connectionId : ConnectionId) (streamBuffer : ByteBuffer) :
    List ByteBuffer → List ReceivedPacket × ByteBuffer
  | [] => ([], streamBuffer)
  | chunk :: chunks =>
    let read := onRead connectionId streamBuffer chunk
    let later := deliver connectionId read.2 chunks
    (read.1 ++ later.1, later.2)

/-- What Decode makes of a buffer, as a verdict. -/
def packetVerdict (buffer : ByteBuffer) : Verdict Byte Packet :=
  let decoded := decode buffer {}
  if decoded.accepted then
    .frame { packetId := decoded.outPacket.packetId, payload := decoded.outPacket.payload }
      decoded.receiveBuffer
  else if Oversized buffer then .reject
  else .wait

variable {buffer rest later : ByteBuffer} {packet : Packet} {connectionId : ConnectionId}
  {chunks : List ByteBuffer} {packets : List Packet}

theorem packetVerdict_eq_reject_iff : packetVerdict buffer = .reject ↔ Oversized buffer := by
  rw [packetVerdict]
  constructor
  · intro rejected
    split at rejected
    · cases rejected
    · split at rejected
      · next oversized => exact oversized
      · cases rejected
  · intro oversized
    rw [decode_of_oversized oversized]
    exact if_pos oversized

theorem packetVerdict_of_complete (complete : Complete buffer) :
    packetVerdict buffer = .frame
      { packetId := (PacketFrame.ofBytes buffer).packetId
        payload := (buffer.drop headerSize).take (PacketFrame.ofBytes buffer).payloadLength.toNat }
      (buffer.drop (headerSize + (PacketFrame.ofBytes buffer).payloadLength.toNat)) := by
  rw [packetVerdict, decode_of_complete complete]
  rfl

theorem packetVerdict_of_incomplete (notOversized : ¬ Oversized buffer)
    (notComplete : ¬ Complete buffer) : packetVerdict buffer = .wait := by
  rw [packetVerdict, decode_of_incomplete notOversized notComplete]
  exact if_neg notOversized

theorem complete_of_frame (taken : packetVerdict buffer = .frame packet rest) : Complete buffer := by
  rw [packetVerdict] at taken
  split at taken
  · next accepted => exact accepted_iff.mp accepted
  · split at taken <;> cases taken

/-- A packet is determined by its own bytes, whatever follows them. -/
theorem packetVerdict_append {used : ByteBuffer}
    (whole : used.length = headerSize + (PacketFrame.ofBytes used).payloadLength.toNat)
    (small : (PacketFrame.ofBytes used).payloadLength.toNat ≤ maxPacketSize) (later : ByteBuffer) :
    packetVerdict (used ++ later) = .frame
      { packetId := (PacketFrame.ofBytes used).packetId, payload := used.drop headerSize } later := by
  have complete : Complete used := ⟨Nat.le_of_eq whole.symm, small⟩
  have header := complete.header
  have payload : (used.drop headerSize).length = (PacketFrame.ofBytes used).payloadLength.toNat := by
    rw [List.length_drop]
    omega
  rw [packetVerdict_of_complete (complete.append later), ofBytes_append header,
    List.drop_append_of_le_length header, List.take_left' payload, List.drop_left' whole]

/-- The bytes of the packet at the front of a buffer. -/
theorem exists_used (complete : Complete buffer) : ∃ used rest, buffer = used ++ rest ∧
    used.length = headerSize + (PacketFrame.ofBytes used).payloadLength.toNat ∧
    (PacketFrame.ofBytes used).payloadLength.toNat ≤ maxPacketSize := by
  obtain ⟨whole, small⟩ := complete
  have split := List.take_append_drop
    (headerSize + (PacketFrame.ofBytes buffer).payloadLength.toNat) buffer
  have length := List.length_take_of_le whole
  have same := ofBytes_append
    (length ▸ Nat.le_add_right headerSize (PacketFrame.ofBytes buffer).payloadLength.toNat)
    (buffer.drop (headerSize + (PacketFrame.ofBytes buffer).payloadLength.toNat))
  rw [split] at same
  refine ⟨_, _, split.symm, ?_, ?_⟩
  · rw [← same]
    exact length
  · rw [← same]
    exact small

/-- Decode as a stream decoder. -/
def packetDecoder : StreamDecoder Byte Packet where
  decode := packetVerdict
  decode_nil := rfl
  consumes := by
    intro buffer packet rest taken
    obtain ⟨used, left, rfl, whole, small⟩ := exists_used (complete_of_frame taken)
    have alone := packetVerdict_append whole small []
    rw [packetVerdict_append whole small] at taken
    cases taken
    rw [List.append_nil] at alone
    have positive : 0 < used.length := by
      rw [whole]
      exact Nat.lt_of_lt_of_le (by decide) (Nat.le_add_right _ _)
    exact ⟨used, List.ne_nil_of_length_pos positive, rfl, alone⟩
  decode_frame_append := by
    intro buffer packet rest later taken
    obtain ⟨used, left, rfl, whole, small⟩ := exists_used (complete_of_frame taken)
    rw [packetVerdict_append whole small] at taken
    cases taken
    rw [List.append_assoc, packetVerdict_append whole small]
  decode_reject_append := by
    intro buffer later rejected
    rw [packetVerdict_eq_reject_iff] at rejected ⊢
    exact rejected.append later

/-! ## The handler drains the buffer -/

/-- With enough fuel the decode loop is a drain of the packet decoder. -/
theorem readLoop_eq_drain {fuel : Nat} (enough : buffer.length < fuel) :
    readLoop connectionId fuel buffer =
      ((packetDecoder.drain buffer).1.map (Packet.received connectionId),
        (packetDecoder.drain buffer).2) := by
  induction fuel generalizing buffer with
  | zero => exact absurd enough (Nat.not_lt_zero _)
  | succ fuel ih =>
      rw [readLoop]
      by_cases complete : Complete buffer
      · have taken : packetDecoder.decode buffer = .frame _ _ := packetVerdict_of_complete complete
        have shorter := StreamDecoder.shrinks taken
        rw [StreamDecoder.drain_of_frame taken, decode_of_complete complete]
        dsimp only
        rw [if_pos rfl, ih (by omega)]
        rfl
      · by_cases oversized : Oversized buffer
        · have rejected : packetDecoder.decode buffer = .reject :=
            packetVerdict_eq_reject_iff.mpr oversized
          rw [StreamDecoder.drain_of_reject rejected, decode_of_oversized oversized]
          rfl
        · have waits : packetDecoder.decode buffer = .wait :=
            packetVerdict_of_incomplete oversized complete
          rw [StreamDecoder.drain_of_wait waits, decode_of_incomplete oversized complete]
          rfl

/-- The read handler is one step of feeding the packet decoder. -/
theorem deliver_eq_feed (connectionId : ConnectionId) (buffer : ByteBuffer)
    (chunks : List ByteBuffer) : deliver connectionId buffer chunks =
      ((packetDecoder.feed buffer chunks).1.map (Packet.received connectionId),
        (packetDecoder.feed buffer chunks).2) := by
  induction chunks generalizing buffer with
  | nil => rfl
  | cons chunk chunks ih =>
      rw [deliver, onRead, readLoop_eq_drain (Nat.lt_succ_self _), ih, StreamDecoder.feed_cons,
        List.map_append]

theorem decode_encoded (fits : packet.payload.length ≤ maxPacketSize) :
    packetDecoder.decode packet.encode = .frame packet [] := by
  have read : decode (PacketCodec.encode packet.packetId packet.payload ++ []) {} = _ :=
    decode_encode_append fits []
  rw [List.append_nil] at read
  change packetVerdict packet.encode = _
  rw [packetVerdict, Packet.encode, read]
  rfl

/-- Whatever the chunks, a stream of encoded packets is handed on packet by
packet, each as soon as its last byte has arrived, and nothing is left at the end. -/
theorem stream_round_trip (connectionId : ConnectionId) (packets : List Packet)
    (chunks : List ByteBuffer)
    (fits : ∀ packet ∈ packets, packet.payload.length ≤ maxPacketSize)
    (stream : chunks.flatten = packets.flatMap Packet.encode) :
    deliver connectionId [] chunks = (packets.map (Packet.received connectionId), []) ∧
    ∀ before after, chunks = before ++ after → ∃ count,
      (deliver connectionId [] before).1 =
        (packets.take count).map (Packet.received connectionId) ∧
      ∀ index < packets.length, (index < count ↔
        ((packets.take (index + 1)).flatMap Packet.encode).length ≤ before.flatten.length) := by
  have whole : ∀ packet ∈ packets, packetDecoder.decode packet.encode = .frame packet [] :=
    fun packet member => decode_encoded (fits packet member)
  have clean : packetDecoder.Clean chunks.flatten := by
    have encoded := StreamDecoder.Clean.of_encoded whole
      (StreamDecoder.Clean.of_wait packetDecoder.decode_nil)
    rwa [List.append_nil, ← stream] at encoded
  constructor
  · have drained := StreamDecoder.drain_encoded whole []
    rw [List.append_nil, StreamDecoder.drain_nil, List.append_nil] at drained
    rw [deliver_eq_feed, StreamDecoder.feed_eq_drain_flatten clean, stream, drained]
  · rintro before after rfl
    rw [List.flatten_append] at stream clean
    obtain ⟨count, taken, arrived⟩ := StreamDecoder.drain_encoded_prefix whole stream
    refine ⟨count, ?_, arrived⟩
    rw [deliver_eq_feed, StreamDecoder.feed_eq_drain_flatten clean.of_append, taken]

/-- Three packets cut inside a header, inside a payload and across two packets. -/
theorem sticky_packets_round_trip :
    deliver 7 [] [[1, 0, 0], [0, 1, 0, 10, 0, 0], [0, 0, 2, 0, 2, 0, 0, 0, 3, 0, 20], [30]] =
      ([⟨7, 1, [10]⟩, ⟨7, 2, []⟩, ⟨7, 3, [20, 30]⟩], []) :=
  (stream_round_trip 7 [⟨1, [10]⟩, ⟨2, []⟩, ⟨3, [20, 30]⟩] _ (by decide) (by decide)).1

end MmoServer.Net
