import MmoServer.Std.LittleEndian
import MmoServer.Std.StreamDecoder

/-!
# The packet codec

A packet on the wire is a fixed header, the length of the payload in four bytes
and the packet id in two, followed by the payload. `decode` refuses headers
that announce more than 64 KB; `encode` has no such limit and truncates the
length to 32 bits, so what it produces is readable exactly up to 64 KB.

The host is little-endian: copying `PacketFrame` is `PacketFrame.bytes`.
-/

namespace MmoServer.Net

open MmoServer.Std

abbrev Byte := UInt8
/-- `std::vector<Byte>`. -/
abbrev ByteBuffer := List Byte
/-- The number of a connection; zero is none. -/
abbrev ConnectionId := UInt64

/-- The number of no connection. -/
def invalidConnectionId : ConnectionId := 0

/-- The packed header. `payloadLength` counts payload bytes only. -/
structure PacketFrame where
  payloadLength : UInt32
  packetId : UInt16

/-- A packet off the wire, with the connection that it came by. -/
structure ReceivedPacket where
  connectionId : ConnectionId := invalidConnectionId
  packetId : UInt16 := 0
  payload : ByteBuffer := []
deriving DecidableEq

/-- The header as it is copied out of memory. -/
def PacketFrame.bytes (frame : PacketFrame) : ByteBuffer :=
  littleEndian 4 frame.payloadLength.toNat ++ littleEndian 2 frame.packetId.toNat

/-- The header as it is copied from the front of a buffer. -/
def PacketFrame.ofBytes (buffer : ByteBuffer) : PacketFrame where
  payloadLength := UInt32.ofNat (ofLittleEndian (buffer.take 4))
  packetId := UInt16.ofNat (ofLittleEndian ((buffer.drop 4).take 2))

namespace PacketCodec

/-- The bytes before the payload: its length and the packet id. -/
abbrev headerSize : Nat := 6
/-- The longest payload that Decode accepts. -/
abbrev maxPacketSize : Nat := 64 * 1024

/-- PacketCodec::Encode. -/
def encode (packetId : UInt16) (payload : ByteBuffer) : ByteBuffer :=
  PacketFrame.bytes { payloadLength := UInt32.ofNat payload.length, packetId } ++ payload

/-- What a call of Decode answers and what it leaves in its two arguments. -/
structure Decoded where
  accepted : Bool
  receiveBuffer : ByteBuffer
  outPacket : ReceivedPacket
deriving DecidableEq

/-- PacketCodec::Decode. -/
def decode (receiveBuffer : ByteBuffer) (outPacket : ReceivedPacket) : Decoded :=
  if receiveBuffer.length < headerSize then
    { accepted := false, receiveBuffer, outPacket }
  else
    let frame := PacketFrame.ofBytes receiveBuffer
    if maxPacketSize < frame.payloadLength.toNat then
      { accepted := false, receiveBuffer := [], outPacket }
    else
      let totalPacketSize := headerSize + frame.payloadLength.toNat
      if receiveBuffer.length < totalPacketSize then
        { accepted := false, receiveBuffer, outPacket }
      else
        { accepted := true
          receiveBuffer := receiveBuffer.drop totalPacketSize
          outPacket := { outPacket with
            packetId := frame.packetId
            payload := (receiveBuffer.drop headerSize).take frame.payloadLength.toNat } }

/-- The buffer begins with a header that announces too much. -/
def Oversized (buffer : ByteBuffer) : Prop :=
  headerSize ≤ buffer.length ∧ maxPacketSize < (PacketFrame.ofBytes buffer).payloadLength.toNat

/-- The buffer begins with a whole packet. -/
def Complete (buffer : ByteBuffer) : Prop :=
  headerSize + (PacketFrame.ofBytes buffer).payloadLength.toNat ≤ buffer.length ∧
    (PacketFrame.ofBytes buffer).payloadLength.toNat ≤ maxPacketSize

instance (buffer : ByteBuffer) : Decidable (Oversized buffer) :=
  inferInstanceAs (Decidable (_ ∧ _))

instance (buffer : ByteBuffer) : Decidable (Complete buffer) :=
  inferInstanceAs (Decidable (_ ∧ _))

variable {packetId : UInt16} {payload buffer later : ByteBuffer} {frame : PacketFrame}
  {outPacket : ReceivedPacket}

/-- A header has its size. -/
theorem length_bytes (frame : PacketFrame) : frame.bytes.length = headerSize := by
  simp [PacketFrame.bytes]

/-- A header is read back from the front of whatever it was written to. -/
theorem ofBytes_bytes_append (frame : PacketFrame) (later : ByteBuffer) :
    PacketFrame.ofBytes (frame.bytes ++ later) = frame := by
  have length : (frame.bytes ++ later).take 4 = littleEndian 4 frame.payloadLength.toNat := by
    rw [PacketFrame.bytes, List.append_assoc, List.take_left']
    exact length_littleEndian ..
  have id : ((frame.bytes ++ later).drop 4).take 2 = littleEndian 2 frame.packetId.toNat := by
    rw [PacketFrame.bytes, List.append_assoc, List.drop_left' (length_littleEndian ..),
      List.take_left' (length_littleEndian ..)]
  have lengthFits : frame.payloadLength.toNat % 256 ^ 4 = frame.payloadLength.toNat :=
    Nat.mod_eq_of_lt frame.payloadLength.toNat_lt
  have idFits : frame.packetId.toNat % 256 ^ 2 = frame.packetId.toNat :=
    Nat.mod_eq_of_lt frame.packetId.toNat_lt
  rw [PacketFrame.ofBytes, length, id, ofLittleEndian_littleEndian, ofLittleEndian_littleEndian,
    lengthFits, idFits, UInt32.ofNat_toNat, UInt16.ofNat_toNat]

/-- The header of a buffer does not change when more bytes arrive. -/
theorem ofBytes_append (whole : headerSize ≤ buffer.length) (later : ByteBuffer) :
    PacketFrame.ofBytes (buffer ++ later) = PacketFrame.ofBytes buffer := by
  have size : headerSize = 6 := rfl
  have length : (buffer ++ later).take 4 = buffer.take 4 :=
    List.take_append_of_le_length (by omega)
  have id : ((buffer ++ later).drop 4).take 2 = (buffer.drop 4).take 2 := by
    rw [List.drop_append_of_le_length (by omega), List.take_append_of_le_length]
    rw [List.length_drop]
    omega
  rw [PacketFrame.ofBytes, PacketFrame.ofBytes, length, id]

/-- An encoded packet is its header and its payload. -/
theorem length_encode (packetId : UInt16) (payload : ByteBuffer) :
    (encode packetId payload).length = headerSize + payload.length := by
  rw [encode, List.length_append, length_bytes]

/-! ## The three outcomes of Decode -/

/-- A header that asks for too much clears the buffer. -/
theorem decode_of_oversized (oversized : Oversized buffer) :
    decode buffer outPacket = { accepted := false, receiveBuffer := [], outPacket } := by
  rw [decode, if_neg (Nat.not_lt.mpr oversized.1)]
  exact if_pos oversized.2

/-- A whole frame is taken off the buffer. -/
theorem decode_of_complete (complete : Complete buffer) :
    decode buffer outPacket =
      { accepted := true
        receiveBuffer :=
          buffer.drop (headerSize + (PacketFrame.ofBytes buffer).payloadLength.toNat)
        outPacket := { outPacket with
          packetId := (PacketFrame.ofBytes buffer).packetId
          payload := (buffer.drop headerSize).take
            (PacketFrame.ofBytes buffer).payloadLength.toNat } } := by
  obtain ⟨whole, small⟩ := complete
  have header : ¬ buffer.length < headerSize := by omega
  rw [decode, if_neg header]
  dsimp only
  rw [if_neg (Nat.not_lt.mpr small), if_neg (Nat.not_lt.mpr whole)]

/-- Anything else waits for more. -/
theorem decode_of_incomplete (notOversized : ¬ Oversized buffer) (notComplete : ¬ Complete buffer) :
    decode buffer outPacket = { accepted := false, receiveBuffer := buffer, outPacket } := by
  by_cases header : buffer.length < headerSize
  · rw [decode, if_pos header]
  · have small : ¬ maxPacketSize < (PacketFrame.ofBytes buffer).payloadLength.toNat :=
      fun large => notOversized ⟨Nat.not_lt.mp header, large⟩
    have short : buffer.length < headerSize + (PacketFrame.ofBytes buffer).payloadLength.toNat := by
      by_contra whole
      exact notComplete ⟨Nat.not_lt.mp whole, Nat.not_lt.mp small⟩
    rw [decode, if_neg header]
    dsimp only
    rw [if_neg small, if_pos short]

/-- Decode answers true exactly on whole packets. -/
theorem accepted_iff : (decode buffer outPacket).accepted = true ↔ Complete buffer := by
  constructor
  · intro accepted
    by_contra notComplete
    by_cases oversized : Oversized buffer
    · rw [decode_of_oversized oversized] at accepted
      cases accepted
    · rw [decode_of_incomplete oversized notComplete] at accepted
      cases accepted
  · intro complete
    rw [decode_of_complete complete]

theorem Complete.header (complete : Complete buffer) : headerSize ≤ buffer.length :=
  Nat.le_trans (Nat.le_add_right _ _) complete.1

/-- What is refused stays refused when more comes. -/
theorem Oversized.append (oversized : Oversized buffer) (later : ByteBuffer) :
    Oversized (buffer ++ later) := by
  refine ⟨?_, ?_⟩
  · rw [List.length_append]
    exact Nat.le_trans oversized.1 (Nat.le_add_right _ _)
  · rw [ofBytes_append oversized.1]
    exact oversized.2

/-- And was refused before it came. -/
theorem Oversized.of_append (header : headerSize ≤ buffer.length)
    (oversized : Oversized (buffer ++ later)) : Oversized buffer :=
  ⟨header, ofBytes_append header later ▸ oversized.2⟩

/-- What is complete stays complete when more comes. -/
theorem Complete.append (complete : Complete buffer) (later : ByteBuffer) :
    Complete (buffer ++ later) := by
  rw [Complete, ofBytes_append complete.header, List.length_append]
  exact ⟨Nat.le_trans complete.1 (Nat.le_add_right _ _), complete.2⟩

/-! ## Encode and Decode -/

/-- The header of an encoded packet reads back. -/
theorem ofBytes_encode (packetId : UInt16) (payload later : ByteBuffer) :
    PacketFrame.ofBytes (encode packetId payload ++ later) =
      { payloadLength := UInt32.ofNat payload.length, packetId } := by
  rw [encode, List.append_assoc, ofBytes_bytes_append]

/-- The length a header announces for a payload: its length in 32 bits. -/
theorem announced_length (payload : ByteBuffer) :
    (UInt32.ofNat payload.length).toNat = payload.length % 2 ^ 32 := UInt32.toNat_ofNat'

/-- A packet within the limit is read back, and what follows it is left. -/
theorem decode_encode_append (fits : payload.length ≤ maxPacketSize) (later : ByteBuffer) :
    decode (encode packetId payload ++ later) outPacket =
      { accepted := true, receiveBuffer := later, outPacket := { outPacket with packetId, payload } } := by
  have announced : (UInt32.ofNat payload.length).toNat = payload.length := by
    rw [announced_length]
    exact Nat.mod_eq_of_lt (Nat.lt_of_le_of_lt fits (by decide))
  have complete : Complete (encode packetId payload ++ later) := by
    rw [Complete, ofBytes_encode, List.length_append, length_encode]
    dsimp only
    rw [announced]
    exact ⟨Nat.le_add_right _ _, fits⟩
  rw [decode_of_complete complete, ofBytes_encode]
  dsimp only
  rw [announced, ← length_encode packetId payload, List.drop_left, encode, List.append_assoc,
    List.drop_left' (length_bytes _), List.take_left]

/-- Everything Encode produces is read back by Decode, whole and alone, exactly
when the payload is within the limit. -/
theorem decode_encode_iff (packetId : UInt16) (payload : ByteBuffer) (outPacket : ReceivedPacket) :
    decode (encode packetId payload) outPacket =
      { accepted := true, receiveBuffer := [], outPacket := { outPacket with packetId, payload } } ↔
    payload.length ≤ maxPacketSize := by
  constructor
  · intro read
    have complete := accepted_iff.mp (congrArg Decoded.accepted read)
    rw [decode_of_complete complete] at read
    have same : List.take _ _ = payload := congrArg (fun left => left.outPacket.payload) read
    calc payload.length = (List.take _ _).length := congrArg List.length same.symm
      _ ≤ (PacketFrame.ofBytes (encode packetId payload)).payloadLength.toNat :=
        List.length_take_le _ _
      _ ≤ maxPacketSize := complete.2
  · intro fits
    have read : decode (encode packetId payload ++ []) outPacket = _ := decode_encode_append fits []
    rwa [List.append_nil] at read

/-- A payload of one byte more than the limit is encoded and not read back. -/
theorem encode_unreadable : ¬ ∀ (packetId : UInt16) (payload : ByteBuffer)
    (outPacket : ReceivedPacket), decode (encode packetId payload) outPacket =
      { accepted := true, receiveBuffer := [], outPacket := { outPacket with packetId, payload } } := by
  intro claim
  have read := claim 1 (List.replicate (maxPacketSize + 1) 0) {}
  have complete := accepted_iff.mp (congrArg Decoded.accepted read)
  have announced := ofBytes_encode 1 (List.replicate (maxPacketSize + 1) 0) []
  rw [List.append_nil] at announced
  have small := complete.2
  rw [announced] at small
  dsimp only at small
  rw [announced_length, List.length_replicate] at small
  exact absurd small (by decide)

end PacketCodec
end MmoServer.Net
