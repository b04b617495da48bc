import MmoServer.Std.Loop
import MmoServer.Net.ReadLoop

/-!
# The size of the receive buffer

The read handler decodes in a loop that only a false answer of Decode ends.
`decodeRound` is one round of that loop as it stands, without a bound on the
rounds. Every round takes a header's worth of bytes at least, so the loop ends
with what `onRead` leaves; and what is left waits for more bytes, so it is less
than the largest frame.
-/

namespace MmoServer.Net

open MmoServer.Std PacketCodec

/-- The most that one read brings. -/
abbrev chunkSize : Nat := 4096

/-- A frame of the largest payload, less one byte. -/
abbrev restLimit : Nat := headerSize + maxPacketSize - 1

/-- What the loop has handed to the inbound queue, and the receive buffer. -/
structure Draining where
  handed : List ReceivedPacket
  streamBuffer : ByteBuffer

/-- One round of the decode loop of the read handler. -/
def decodeRound (connectionId : ConnectionId) (draining : Draining) : Round Draining :=
  let decoded := decode draining.streamBuffer {}
  if decoded.accepted then
    .again { handed := draining.handed ++ [{ decoded.outPacket with connectionId }]
             streamBuffer := decoded.receiveBuffer }
  else
    .returned { draining with streamBuffer := decoded.receiveBuffer }

variable {connectionId : ConnectionId} {draining next last : Draining} {buffer : ByteBuffer}
  {handed : List ReceivedPacket} {chunks : List ByteBuffer}

/-- A round that goes on takes a packet off the front of the buffer. -/
theorem decodeRound_again (more : decodeRound connectionId draining = .again next) :
    ∃ packet, packetDecoder.decode draining.streamBuffer = .frame packet next.streamBuffer ∧
      next.handed = draining.handed ++ [packet.received connectionId] := by
  rw [decodeRound] at more
  dsimp only at more
  split at more
  · next accepted =>
    have complete := accepted_iff.mp accepted
    rw [decode_of_complete complete] at more
    cases more
    exact ⟨_, packetVerdict_of_complete complete, rfl⟩
  · cases more

/-- The round that ends the loop drains the buffer of nothing more. -/
theorem decodeRound_returned (done : decodeRound connectionId draining = .returned last) :
    packetDecoder.drain draining.streamBuffer = ([], last.streamBuffer) ∧
      last.handed = draining.handed := by
  rw [decodeRound] at done
  dsimp only at done
  split at done
  · cases done
  · next refused =>
    have notComplete : ¬ Complete draining.streamBuffer := fun complete =>
      refused (accepted_iff.mpr complete)
    cases done
    refine ⟨?_, rfl⟩
    by_cases oversized : Oversized draining.streamBuffer
    · rw [decode_of_oversized oversized]
      exact StreamDecoder.drain_of_reject (packetVerdict_eq_reject_iff.mpr oversized)
    · rw [decode_of_incomplete oversized notComplete]
      exact StreamDecoder.drain_of_wait (packetVerdict_of_incomplete oversized notComplete)

theorem decodeRound_defined (connectionId : ConnectionId) (draining : Draining) :
    Loop.Defined (decodeRound connectionId) draining := by
  intro count
  induction count generalizing draining with
  | zero => rintro ⟨⟩
  | succ count ih =>
      rw [Loop.rounds]
      split
      · exact ih _
      · rintro ⟨⟩
      · next undefined =>
        rw [decodeRound] at undefined
        split at undefined <;> cases undefined

/-- The loop ends: the buffer is shorter after every round. -/
theorem decodeLoop_ends (connectionId : ConnectionId) (draining : Draining) :
    Loop.Ends (decodeRound connectionId) draining := by
  refine Loop.ends_of_variant (fun _ => True) (fun draining => draining.streamBuffer.length) ?_
    trivial (decodeRound_defined connectionId draining)
  intro state next _ more
  obtain ⟨packet, taken, _⟩ := decodeRound_again more
  exact ⟨trivial, StreamDecoder.shrinks taken⟩

/-- During the loop the buffer holds no more than at its beginning. -/
theorem length_during {count : Nat}
    (reached : Loop.rounds (decodeRound connectionId) count draining = .again next) :
    next.streamBuffer.length ≤ draining.streamBuffer.length := by
  induction count generalizing draining with
  | zero =>
      cases reached
      exact Nat.le_refl _
  | succ count ih =>
      rw [Loop.rounds] at reached
      split at reached
      · next middle more =>
        obtain ⟨packet, taken, _⟩ := decodeRound_again more
        exact Nat.le_trans (ih reached) (Nat.le_of_lt (StreamDecoder.shrinks taken))
      · cases reached
      · cases reached

/-- When the loop ends it has drained the buffer. -/
theorem drained_of_returned {count : Nat}
    (done : Loop.rounds (decodeRound connectionId) count draining = .returned last) :
    last = { handed := draining.handed ++
               (packetDecoder.drain draining.streamBuffer).1.map (Packet.received connectionId)
             streamBuffer := (packetDecoder.drain draining.streamBuffer).2 } := by
  induction count generalizing draining with
  | zero => cases done
  | succ count ih =>
      rw [Loop.rounds] at done
      split at done
      · next middle more =>
        obtain ⟨packet, taken, handed⟩ := decodeRound_again more
        rw [ih done, StreamDecoder.drain_of_frame taken, handed, List.append_assoc]
        rfl
      · next final round =>
        cases done
        obtain ⟨drained, handed⟩ := decodeRound_returned round
        rw [drained, List.map_nil, List.append_nil, ← handed]
      · cases done

/-- The loop as it stands is the loop with enough fuel. -/
theorem onRead_of_returned {count : Nat} {chunk : ByteBuffer}
    (done : Loop.rounds (decodeRound connectionId) count
      { handed := [], streamBuffer := buffer ++ chunk } = .returned last) :
    onRead connectionId buffer chunk = (last.handed, last.streamBuffer) := by
  rw [onRead, readLoop_eq_drain (Nat.lt_succ_self _), drained_of_returned done]
  rfl

/-! ## What is left -/

/-- A buffer that waits for more bytes is shorter than the largest frame. -/
theorem length_of_wait (waits : packetDecoder.decode buffer = .wait) :
    buffer.length ≤ restLimit := by
  have limit : restLimit = headerSize + maxPacketSize - 1 := rfl
  by_cases header : headerSize ≤ buffer.length
  · have small : ¬ maxPacketSize < (PacketFrame.ofBytes buffer).payloadLength.toNat := by
      intro large
      have rejected := packetVerdict_eq_reject_iff.mpr ⟨header, large⟩
      cases waits.symm.trans rejected
    have short : ¬ headerSize + (PacketFrame.ofBytes buffer).payloadLength.toNat ≤
        buffer.length := by
      intro whole
      have taken := packetVerdict_of_complete ⟨whole, Nat.not_lt.mp small⟩
      cases waits.symm.trans taken
    omega
  · have size : headerSize = 6 := rfl
    omega

theorem length_deliver_le (connectionId : ConnectionId) (chunks : List ByteBuffer) :
    (deliver connectionId [] chunks).2.length ≤ restLimit := by
  rw [deliver_eq_feed]
  exact length_of_wait (StreamDecoder.feed_leaves_wait packetDecoder.decode_nil)

theorem deliver_append (connectionId : ConnectionId) (buffer : ByteBuffer)
    (before after : List ByteBuffer) :
    (deliver connectionId buffer (before ++ after)).2 =
      (deliver connectionId (deliver connectionId buffer before).2 after).2 := by
  rw [deliver_eq_feed, deliver_eq_feed, deliver_eq_feed, StreamDecoder.feed_append]

/-- Whatever a peer sends, in reads of at most 4096 bytes: the decode loop of every
handler run ends, the buffer never holds more than 69637 bytes during the run and
never more than 65541 after it. -/
theorem receive_buffer_bounded (connectionId : ConnectionId) (before : List ByteBuffer)
    (chunk : ByteBuffer) (read : chunk.length ≤ chunkSize) :
    let streamBuffer := (deliver connectionId [] before).2
    let inserted : Draining := { handed := [], streamBuffer := streamBuffer ++ chunk }
    streamBuffer.length ≤ 65541 ∧
    Loop.Ends (decodeRound connectionId) inserted ∧
    (∀ count reached, Loop.rounds (decodeRound connectionId) count inserted = .again reached →
      reached.streamBuffer.length ≤ 69637) ∧
    ∀ count last, Loop.rounds (decodeRound connectionId) count inserted = .returned last →
      last.streamBuffer = (deliver connectionId [] (before ++ [chunk])).2 ∧
      last.streamBuffer.length ≤ 65541 := by
  intro streamBuffer inserted
  have rest : streamBuffer.length ≤ restLimit := length_deliver_le connectionId before
  refine ⟨rest, decodeLoop_ends connectionId inserted, ?_, ?_⟩
  · intro count reached during
    calc reached.streamBuffer.length ≤ (streamBuffer ++ chunk).length := length_during during
      _ = streamBuffer.length + chunk.length := List.length_append
      _ ≤ restLimit + chunkSize := Nat.add_le_add rest read
      _ = 69637 := by decide
  · intro count last done
    have left : last.streamBuffer = (deliver connectionId [] (before ++ [chunk])).2 := by
      rw [deliver_append, deliver, onRead_of_returned done]
      rfl
    refine ⟨left, ?_⟩
    rw [left]
    exact length_deliver_le connectionId _

/-- A frame with the front of a header, which the next read makes an oversized one, and the
front of another frame: the read that brings its rest, and a byte more, leaves that byte. -/
theorem mixed_stream_bounded : ∃ count last,
    Loop.rounds (decodeRound 7) count
      { handed := [], streamBuffer := [2, 0, 0, 0, 8, 0, 66, 67, 1] } = .returned last ∧
    last.streamBuffer = [1] ∧ last.streamBuffer.length ≤ 65541 := by
  obtain ⟨-, ⟨count, last, done⟩, -, after⟩ := receive_buffer_bounded 7
    [[1, 0, 0, 0, 7, 0, 65, 5, 0, 0], [255, 1, 0], [2, 0]] [0, 0, 8, 0, 66, 67, 1] (by decide)
  obtain ⟨left, small⟩ := after count last done
  have rest : (deliver 7 [] [[1, 0, 0, 0, 7, 0, 65, 5, 0, 0], [255, 1, 0], [2, 0]]).2 = [2, 0] := by
    decide
  rw [rest] at done
  refine ⟨count, last, done, left.trans ?_, small⟩
  decide

end MmoServer.Net
