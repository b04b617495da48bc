import MmoServer.Std.WireFormat
import MmoServer.Net.ReadLoop

/-!
# The frames that Decode accepts

A frame is what Encode makes of a payload within the limit. Decode takes a frame
off the front of the buffer exactly when there is one (`decode_eq_accepted_iff`),
leaves the buffer as it is exactly when it could still become one
(`decode_eq_unchanged_iff`) and clears it exactly when the header announces too
much. Frames with a known end are a wire format (`frameFormat`), so no two of
them are confused whatever follows them.
-/

namespace MmoServer.Net

open MmoServer.Std PacketCodec

/-- The length field of a header: the first four bytes, lowest first. -/
def lengthField (buffer : ByteBuffer) : Nat := ofLittleEndian (buffer.take 4)

/-- The buffer is the beginning of a frame and not all of it. -/
def ProperPrefixOfFrame (buffer : ByteBuffer) : Prop :=
  ∃ (packetId : UInt16) (payload missing : ByteBuffer), payload.length ≤ maxPacketSize ∧
    missing ≠ [] ∧ buffer ++ missing = encode packetId payload

variable {buffer rest missing payload : ByteBuffer} {packetId : UInt16}
  {outPacket : ReceivedPacket} {packet : Packet}

/-! ## Headers -/

theorem payloadLength_ofBytes (buffer : ByteBuffer) :
    (PacketFrame.ofBytes buffer).payloadLength.toNat = lengthField buffer := by
  have small : ofLittleEndian (buffer.take 4) < 2 ^ 32 :=
    calc ofLittleEndian (buffer.take 4) < 256 ^ (buffer.take 4).length := ofLittleEndian_lt _
      _ ≤ 256 ^ 4 := Nat.pow_le_pow_right (by decide) (List.length_take_le 4 buffer)
      _ = 2 ^ 32 := by decide
  rw [PacketFrame.ofBytes, UInt32.toNat_ofNat', Nat.mod_eq_of_lt small, lengthField]

theorem oversized_iff : Oversized buffer ↔
    headerSize ≤ buffer.length ∧ maxPacketSize < lengthField buffer := by
  rw [Oversized, payloadLength_ofBytes]

/-- Copying a header into a frame and out again gives the bytes it was copied from. -/
theorem bytes_ofBytes (header : headerSize ≤ buffer.length) :
    (PacketFrame.ofBytes buffer).bytes = buffer.take headerSize := by
  have size : headerSize = 6 := rfl
  have length : (buffer.take 4).length = 4 := List.length_take_of_le (by omega)
  have idLength : ((buffer.drop 4).take 2).length = 2 := by
    rw [List.length_take, List.length_drop]
    omega
  have idFits : ofLittleEndian ((buffer.drop 4).take 2) < 2 ^ 16 := by
    have small := ofLittleEndian_lt ((buffer.drop 4).take 2)
    rw [idLength] at small
    exact small
  have first : littleEndian 4 (lengthField buffer) = buffer.take 4 := by
    have same := littleEndian_ofLittleEndian (buffer.take 4)
    rwa [length] at same
  have second : littleEndian 2 (PacketFrame.ofBytes buffer).packetId.toNat =
      (buffer.drop 4).take 2 := by
    have same := littleEndian_ofLittleEndian ((buffer.drop 4).take 2)
    rw [idLength] at same
    rw [PacketFrame.ofBytes, UInt16.toNat_ofNat', Nat.mod_eq_of_lt idFits, same]
  rw [PacketFrame.bytes, payloadLength_ofBytes, first, second, ← List.take_add]

/-- A buffer that holds one frame and nothing else is what Encode makes of it. -/
theorem encode_of_whole
    (whole : buffer.length = headerSize + (PacketFrame.ofBytes buffer).payloadLength.toNat) :
    encode (PacketFrame.ofBytes buffer).packetId (buffer.drop headerSize) = buffer := by
  have header : headerSize ≤ buffer.length := whole ▸ Nat.le_add_right _ _
  have announced : UInt32.ofNat (buffer.drop headerSize).length =
      (PacketFrame.ofBytes buffer).payloadLength := by
    rw [List.length_drop, whole, Nat.add_sub_cancel_left, UInt32.ofNat_toNat]
  rw [encode, announced]
  exact (congrArg (· ++ _) (bytes_ofBytes header)).trans (List.take_append_drop _ _)

/-- The header of a frame that has begun is in the buffer. -/
theorem ofBytes_of_begun (header : headerSize ≤ buffer.length)
    (begun : buffer ++ missing = encode packetId payload) :
    PacketFrame.ofBytes buffer = { payloadLength := UInt32.ofNat payload.length, packetId } := by
  have whole := ofBytes_encode packetId payload []
  rwa [List.append_nil, ← begun, ofBytes_append header] at whole

theorem toNat_payloadLength (fits : payload.length ≤ maxPacketSize) :
    (UInt32.ofNat payload.length).toNat = payload.length := by
  rw [announced_length]
  exact Nat.mod_eq_of_lt (Nat.lt_of_le_of_lt fits (by decide))

/-- A buffer that begins with a whole packet begins with a frame. -/
theorem exists_frame (complete : Complete buffer) : ∃ packetId payload rest,
    payload.length ≤ maxPacketSize ∧ buffer = encode packetId payload ++ rest := by
  obtain ⟨used, rest, rfl, whole, small⟩ := exists_used complete
  refine ⟨(PacketFrame.ofBytes used).packetId, used.drop headerSize, rest, ?_, ?_⟩
  · rw [List.length_drop, whole, Nat.add_sub_cancel_left]
    exact small
  · rw [encode_of_whole whole]

/-! ## The three answers of Decode -/

theorem decode_eq_accepted_iff : decode buffer outPacket =
      { accepted := true, receiveBuffer := rest, outPacket := { outPacket with packetId, payload } } ↔
    payload.length ≤ maxPacketSize ∧ buffer = encode packetId payload ++ rest := by
  constructor
  · intro read
    obtain ⟨id, used, left, fits, rfl⟩ :=
      exists_frame (accepted_iff.mp (congrArg Decoded.accepted read))
    rw [decode_encode_append fits, Decoded.mk.injEq, ReceivedPacket.mk.injEq] at read
    obtain ⟨_, rfl, _, rfl, rfl⟩ := read
    exact ⟨fits, rfl⟩
  · rintro ⟨fits, rfl⟩
    exact decode_encode_append fits rest

/-- What has begun to be a frame is neither oversized nor complete. -/
theorem ProperPrefixOfFrame.incomplete (begun : ProperPrefixOfFrame buffer) :
    ¬ Oversized buffer ∧ ¬ Complete buffer := by
  obtain ⟨packetId, payload, missing, fits, more, same⟩ := begun
  have positive := List.length_pos_iff.mpr more
  have length := congrArg List.length same
  rw [List.length_append, length_encode] at length
  constructor
  · rintro ⟨header, large⟩
    rw [ofBytes_of_begun header same, toNat_payloadLength fits] at large
    exact absurd fits (Nat.not_le.mpr large)
  · intro complete
    have whole := complete.1
    rw [ofBytes_of_begun complete.header same, toNat_payloadLength fits] at whole
    omega

/-- A buffer with a header that is neither oversized nor complete has begun to be a
frame: any bytes may make up what is missing. -/
theorem properPrefixOfFrame_of_incomplete (header : headerSize ≤ buffer.length)
    (notOversized : ¬ Oversized buffer) (notComplete : ¬ Complete buffer) :
    ProperPrefixOfFrame buffer := by
  obtain ⟨frame, frameIs⟩ : ∃ frame, PacketFrame.ofBytes buffer = frame := ⟨_, rfl⟩
  have small : frame.payloadLength.toNat ≤ maxPacketSize := by
    by_contra large
    exact notOversized ⟨header, by rw [frameIs]; exact Nat.not_le.mp large⟩
  have short : buffer.length < headerSize + frame.payloadLength.toNat := by
    by_contra whole
    exact notComplete ⟨by rw [frameIs]; exact Nat.not_lt.mp whole, by rw [frameIs]; exact small⟩
  obtain ⟨missing, missingLength⟩ : ∃ missing : ByteBuffer,
      missing.length = headerSize + frame.payloadLength.toNat - buffer.length :=
    ⟨List.replicate _ 0, List.length_replicate⟩
  have length : (buffer.drop headerSize ++ missing).length = frame.payloadLength.toNat := by
    rw [List.length_append, List.length_drop, missingLength]
    omega
  refine ⟨frame.packetId, buffer.drop headerSize ++ missing, missing,
    Nat.le_trans (Nat.le_of_eq length) small, ?_, ?_⟩
  · apply List.ne_nil_of_length_pos
    rw [missingLength]
    exact Nat.sub_pos_of_lt short
  · have headerBytes := bytes_ofBytes header
    rw [frameIs] at headerBytes
    rw [encode, length, UInt32.ofNat_toNat]
    rw [show ({ payloadLength := frame.payloadLength, packetId := frame.packetId } : PacketFrame) =
      frame from rfl, headerBytes, ← List.append_assoc, List.take_append_drop]

theorem decode_eq_unchanged_iff :
    decode buffer outPacket = { accepted := false, receiveBuffer := buffer, outPacket } ↔
      buffer.length < headerSize ∨ ProperPrefixOfFrame buffer := by
  constructor
  · intro unchanged
    by_cases header : headerSize ≤ buffer.length
    · right
      apply properPrefixOfFrame_of_incomplete header
      · intro oversized
        rw [decode_of_oversized oversized, Decoded.mk.injEq] at unchanged
        obtain ⟨_, rfl, _⟩ := unchanged
        exact absurd header (by decide)
      · intro complete
        rw [decode_of_complete complete, Decoded.mk.injEq] at unchanged
        exact absurd unchanged.1 (by decide)
    · exact .inl (Nat.not_le.mp header)
  · rintro (short | begun)
    · rw [decode, if_pos short]
    · exact decode_of_incomplete begun.incomplete.1 begun.incomplete.2

/-- A buffer that Decode clears was not empty before. -/
theorem decode_eq_cleared_iff :
    (buffer ≠ [] ∧ decode buffer outPacket = { accepted := false, receiveBuffer := [], outPacket }) ↔
      headerSize ≤ buffer.length ∧ maxPacketSize < lengthField buffer := by
  rw [← oversized_iff]
  constructor
  · rintro ⟨some_, cleared⟩
    by_contra notOversized
    have notComplete : ¬ Complete buffer := by
      intro complete
      rw [decode_of_complete complete, Decoded.mk.injEq] at cleared
      exact absurd cleared.1 (by decide)
    rw [decode_of_incomplete notOversized notComplete, Decoded.mk.injEq] at cleared
    exact some_ cleared.2.1
  · intro oversized
    refine ⟨?_, decode_of_oversized oversized⟩
    rintro rfl
    exact absurd oversized.1 (by decide)

/-! ## Frames as a wire format -/

/-- Decode as the reader of a format: the packet and what is left. -/
def takeFrame (buffer : ByteBuffer) : Option (Packet × ByteBuffer) :=
  match decode buffer {} with
  | { accepted := true, receiveBuffer, outPacket } =>
    some ({ packetId := outPacket.packetId, payload := outPacket.payload }, receiveBuffer)
  | _ => none

/-- Encode and Decode are a format for the packets within the limit. -/
def frameFormat : WireFormat Byte Unit Packet where
  shape := fun _ => ()
  Admits := fun packet => packet.payload.length ≤ maxPacketSize
  encode := Packet.encode
  decode := fun _ => takeFrame
  decode_encode := by
    intro packet fits rest
    rw [takeFrame, Packet.encode, decode_encode_append fits]
  of_decode := by
    intro shape buffer packet rest taken
    rw [takeFrame] at taken
    split at taken
    · next left outPacket read =>
      cases taken
      obtain ⟨id, used, last, fits, rfl⟩ :=
        exists_frame (accepted_iff.mp (congrArg Decoded.accepted read))
      rw [decode_encode_append fits, Decoded.mk.injEq] at read
      obtain ⟨_, rfl, rfl⟩ := read
      exact ⟨rfl, fits, rfl⟩
    · cases taken

/-- Decode accepts the frames and nothing else, waits for the bytes that may still make
a frame and clears the buffer exactly at a header that announces too much. What it
accepts is what Encode makes of the packet, and a stream begins with one frame only. -/
theorem decode_accepts_frame_grammar (buffer : ByteBuffer) (outPacket : ReceivedPacket) :
    (∀ packetId payload rest, decode buffer outPacket =
        { accepted := true, receiveBuffer := rest, outPacket := { outPacket with packetId, payload } } ↔
      payload.length ≤ maxPacketSize ∧ buffer = encode packetId payload ++ rest) ∧
    (decode buffer outPacket = { accepted := false, receiveBuffer := buffer, outPacket } ↔
      buffer.length < headerSize ∨ ProperPrefixOfFrame buffer) ∧
    ((buffer ≠ [] ∧ decode buffer outPacket = { accepted := false, receiveBuffer := [], outPacket }) ↔
      headerSize ≤ buffer.length ∧ maxPacketSize < lengthField buffer) ∧
    ((decode buffer outPacket).accepted = true →
      encode (decode buffer outPacket).outPacket.packetId (decode buffer outPacket).outPacket.payload
        ++ (decode buffer outPacket).receiveBuffer = buffer) ∧
    ∀ (first second : Packet) (rest last : ByteBuffer),
      first.payload.length ≤ maxPacketSize → second.payload.length ≤ maxPacketSize →
      first.encode ++ rest = second.encode ++ last → first = second ∧ rest = last := by
  refine ⟨fun packetId payload rest => decode_eq_accepted_iff, decode_eq_unchanged_iff,
    decode_eq_cleared_iff, ?_, ?_⟩
  · intro accepted
    obtain ⟨packetId, payload, rest, fits, rfl⟩ := exists_frame (accepted_iff.mp accepted)
    rw [decode_encode_append fits]
  · intro first second rest last fits fitsToo same
    exact frameFormat.encode_append_inj fits fitsToo rfl same

end MmoServer.Net
