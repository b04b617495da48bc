import MmoServer.Packet.PacketReader
import MmoServer.Packet.PacketWriter

/-!
# BinaryWriter, BinaryReader and StringSerializer

The serializers write to and read from a packet through two thin layers. Serialize
writes the length and then the string, Deserialize reads them; when the second step
fails, neither takes back the first.
-/

namespace MmoServer.Serialization

open MmoServer.Packet MmoServer.Std

/-- The longest string that is written or read. -/
abbrev MaxStringLength : Nat := 1024 * 1024

namespace BinaryWriter

/-- BinaryWriter::WriteBytes. -/
def writeBytes (writer : PacketWriter) (data : Option (List UInt8)) (size : UInt64) :
    Except Fault (Bool × PacketWriter) :=
  if size = 0 then .ok (true, writer)
  else if data = none then .ok (false, writer)
  else writer.writeBytes data size

/-- `Write(length)` of a StringLengthType. -/
def writeLength (writer : PacketWriter) (length : UInt32) : Except Fault (Bool × PacketWriter) :=
  writeBytes writer (some (littleEndian 4 length.toNat)) 4

/-- StringSerializer::Serialize, which is BinaryWriter::WriteString. -/
def writeString (writer : PacketWriter) (value : ByteString) : Except Fault (Bool × PacketWriter) :=
  if MaxStringLength < value.bytes.length then .ok (false, writer)
  else
    let length := UInt32.ofNat value.bytes.length
    (writeLength writer length).bind fun (written, after) =>
      if written = false then .ok (false, after)
      else if length = 0 then .ok (true, after)
      else writeBytes after (some value.bytes) length.toUInt64

variable {writer after : PacketWriter} {data : Option (List UInt8)} {size : UInt64}
  {value : ByteString}

/-- The layer makes the same checks as the writer below it. -/
theorem writeBytes_eq : writeBytes writer data size = writer.writeBytes data size := by
  rw [writeBytes]
  split
  · next zero =>
    rw [zero]
    rfl
  · next positive =>
    split
    · next null =>
      rw [null, PacketWriter.writeBytes_null positive]
    · rfl

theorem writeLength_eq (length : UInt32) : writeLength writer length = writer.writeLength length :=
  writeBytes_eq

theorem writeString_of_long (long : MaxStringLength < value.bytes.length) :
    writeString writer value = .ok (false, writer) := if_pos long

/-- Up to the limit the length fits 32 bits. -/
theorem toNat_length (short : value.bytes.length ≤ MaxStringLength) :
    (UInt32.ofNat value.bytes.length).toNat = value.bytes.length := by
  rw [UInt32.toNat_ofNat']
  exact Nat.mod_eq_of_lt (Nat.lt_of_le_of_lt short (by decide))

theorem writeString_of_large (large : kMaxPacketSize < writer.offset.toNat + 4) :
    writeString writer value = .ok (false, writer) := by
  rw [writeString]
  split
  · rfl
  · dsimp only
    rw [writeLength_eq, PacketWriter.writeLength_of_large large]
    rfl

/-- The length fits: the string is appended with it, or its length is. -/
theorem writeString_of_lengthFits (short : value.bytes.length ≤ MaxStringLength)
    (fits : writer.offset.toNat + (PacketWriter.lengthPrefix value).length ≤ kMaxPacketSize) :
    writeString writer value =
      if both : writer.offset.toNat + (PacketWriter.encodeString value).length ≤ kMaxPacketSize then
        .ok (true, writer.appended (PacketWriter.encodeString value) both)
      else .ok (false, writer.appended (PacketWriter.lengthPrefix value) fits) := by
  have limit : kMaxPacketSize = 65536 := rfl
  have cap : MaxStringLength = 1048576 := rfl
  have bound := writer.offset_le
  have length : (PacketWriter.encodeString value).length =
      (PacketWriter.lengthPrefix value).length + value.bytes.length := List.length_append
  have four := PacketWriter.length_lengthPrefix value
  have reached := PacketWriter.toNat_offset_appended fits
  have prefixed : writeLength writer (UInt32.ofNat value.bytes.length) =
      .ok (true, writer.appended (PacketWriter.lengthPrefix value) fits) :=
    PacketWriter.writeLength_of_fits fits
  have size : (UInt32.ofNat value.bytes.length).toUInt64 = value.size := by
    rw [← UInt64.toNat_inj, UInt32.toNat_toUInt64, toNat_length short, ByteString.toNat_size]
  have body : (if UInt32.ofNat value.bytes.length = 0 then
        .ok (true, writer.appended (PacketWriter.lengthPrefix value) fits)
      else writeBytes (writer.appended (PacketWriter.lengthPrefix value) fits) (some value.bytes)
        (UInt32.ofNat value.bytes.length).toUInt64) =
      (writer.appended (PacketWriter.lengthPrefix value) fits).writeBytes (some value.bytes)
        value.size := by
    rw [size, writeBytes_eq]
    split
    · next zero =>
      rw [← size, zero]
      rfl
    · rfl
  rw [writeString, if_neg (Nat.not_lt.mpr short)]
  dsimp only
  rw [prefixed]
  dsimp only [Except.bind]
  rw [if_neg (by decide), body, PacketWriter.writeBytes_string (PacketWriter.covered_appended fits)]
  split
  · next fitsMore =>
    have both : writer.offset.toNat + (PacketWriter.encodeString value).length ≤ kMaxPacketSize := by
      omega
    rw [dif_pos both, PacketWriter.appended_appended fits both]
    rfl
  · rw [dif_neg (by omega), if_pos (by omega)]

/-- A refused string leaves no trace before the offset exactly when the length was not
written, because the string is too long or the length does not fit. A string that fits
behind its length is not refused. -/
theorem unwritten_string_traceless_iff (writer : PacketWriter) (value : ByteString) :
    (∀ after, writeString writer value = .ok (false, after) →
      after.offset = writer.offset ∧ after.written = writer.written ∧
        after.buffer.bytes.length = writer.buffer.bytes.length) ↔
    MaxStringLength < value.bytes.length ∨ kMaxPacketSize < writer.offset.toNat + 4 ∨
      writer.offset.toNat + 4 + value.bytes.length ≤ kMaxPacketSize := by
  have four := PacketWriter.length_lengthPrefix value
  have length := PacketWriter.length_encodeString value
  by_cases long : MaxStringLength < value.bytes.length
  · refine iff_of_true (fun after refused => ?_) (.inl long)
    rw [writeString_of_long long] at refused
    cases refused
    exact ⟨rfl, rfl, rfl⟩
  by_cases large : kMaxPacketSize < writer.offset.toNat + 4
  · refine iff_of_true (fun after refused => ?_) (.inr (.inl large))
    rw [writeString_of_large large] at refused
    cases refused
    exact ⟨rfl, rfl, rfl⟩
  have fits : writer.offset.toNat + (PacketWriter.lengthPrefix value).length ≤ kMaxPacketSize := by
    rw [four]
    exact Nat.not_lt.mp large
  rw [writeString_of_lengthFits (Nat.not_lt.mp long) fits, or_iff_right long, or_iff_right large]
  split
  · next both =>
    exact iff_of_true (fun after refused => by cases refused) (by omega)
  · next refused =>
    refine iff_of_false (fun traceless => ?_) (by omega)
    have moved := congrArg UInt64.toNat (traceless _ rfl).1
    rw [PacketWriter.toNat_offset_appended, four] at moved
    omega

/-- A new packet keeps the length of a string that does not fit behind it. -/
theorem unwritten_string_leaves_length : ¬ ∀ (writer : PacketWriter) (value : ByteString)
    (after : PacketWriter), writeString writer value = .ok (false, after) →
      after.offset = writer.offset ∧ after.written = writer.written ∧
        after.buffer.bytes.length = writer.buffer.bytes.length := by
  intro claim
  have fits := PacketWriter.lengthPrefix_fits (.replicate 65533 0 (by decide))
  have length : (PacketWriter.encodeString (.replicate 65533 0 (by decide))).length = 65537 := by
    rw [PacketWriter.length_encodeString, ByteString.length_replicate]
  have refused := writeString_of_lengthFits (by rw [ByteString.length_replicate]; decide) fits
  rw [dif_neg (by rw [length]; decide)] at refused
  have moved := congrArg UInt64.toNat (claim _ _ _ refused).1
  rw [PacketWriter.toNat_offset_appended, PacketWriter.length_lengthPrefix] at moved
  exact absurd moved (by decide)

end BinaryWriter

namespace BinaryReader

/-- BinaryReader::ReadBytes; the value is what `dest` receives. -/
def readBytes (memory : ByteString) (reader : PacketReader) (dest : Pointer) (size : UInt64) :
    Except Fault (ReadResult (Option ByteString)) :=
  if size = 0 then .ok { returned := true, value := some .empty, reader }
  else if dest = none then .ok { returned := false, value := none, reader }
  else reader.readBytes memory dest size

/-- `Read(length)` of a StringLengthType that is zero before the call. -/
def readLength (memory : ByteString) (reader : PacketReader) : Except Fault (ReadResult UInt32) :=
  (readBytes memory reader PacketReader.addressOf 4).map fun result =>
    { returned := result.returned
      value := lengthOf (result.value.getD .empty).bytes
      reader := result.reader }

/-- StringSerializer::Deserialize, which is BinaryReader::ReadString; the value is what
`value` holds after the call. -/
def readString (memory : ByteString) (reader : PacketReader) (value : ByteString) :
    Except Fault (ReadResult ByteString) :=
  (readLength memory reader).bind fun read =>
    let length := read.value
    if read.returned = false then .ok { returned := false, value, reader := read.reader }
    else if MaxStringLength < length.toNat then
      .ok { returned := false, value, reader := read.reader }
    else if length = 0 then .ok { returned := true, value := .empty, reader := read.reader }
    else
      (readBytes memory read.reader PacketReader.addressOf length.toUInt64).map fun result =>
        if result.returned = false then
          { returned := false, value := .empty, reader := result.reader }
        else { returned := true, value := result.value.getD .empty, reader := result.reader }

variable {memory value : ByteString} {reader : PacketReader} {dest : Pointer} {size : UInt64}

theorem readBytes_of_ne (positive : size ≠ 0) :
    readBytes memory reader dest size = reader.readBytes memory dest size := by
  rw [readBytes, if_neg positive]
  split
  · next null => rw [PacketReader.readBytes_refused (.inl null)]
  · rfl

theorem toUInt64_ne_zero {length : UInt32} (positive : length ≠ 0) : length.toUInt64 ≠ 0 := by
  intro zero
  rw [← UInt64.toNat_inj, UInt32.toNat_toUInt64] at zero
  exact positive (UInt32.toNat_inj.mp zero)

theorem readLength_eq : readLength memory reader = reader.readLength memory := by
  rw [readLength, readBytes_of_ne (by decide)]
  rfl

/-- No length is left to read. -/
theorem readString_of_short (valid : reader.Valid memory)
    (short : (reader.unread memory).length < 4) :
    readString memory reader value = .ok { returned := false, value, reader } := by
  rw [readString, readLength_eq, valid.readLength_of_short short]
  rfl

/-- The length is above the limit. -/
theorem readString_of_long (valid : reader.Valid memory)
    (enough : 4 ≤ (reader.unread memory).length)
    (long : MaxStringLength < (lengthOf (reader.unread memory)).toNat) :
    readString memory reader value =
      .ok { returned := false, value, reader := reader.advanced 4 } := by
  rw [readString, readLength_eq, valid.readLength_of_enough enough]
  dsimp only [Except.bind]
  rw [if_neg (by decide), if_pos long]

/-- The string is not all there. -/
theorem readString_of_truncated (valid : reader.Valid memory)
    (enough : 4 ≤ (reader.unread memory).length)
    (short : (lengthOf (reader.unread memory)).toNat ≤ MaxStringLength)
    (truncated : ¬ reader.StringNext memory) :
    readString memory reader value =
      .ok { returned := false, value := .empty, reader := reader.advanced 4 } := by
  obtain ⟨behind, rest⟩ := valid.unread_behindLength enough
  rw [PacketReader.StringNext] at truncated
  have positive : lengthOf (reader.unread memory) ≠ 0 := by
    intro zero
    rw [zero] at truncated
    exact truncated enough
  have wide := toUInt64_ne_zero positive
  have few : ((reader.advanced 4).unread memory).length <
      (lengthOf (reader.unread memory)).toUInt64.toNat := by
    rw [rest, List.length_drop, UInt32.toNat_toUInt64]
    omega
  rw [readString, readLength_eq, valid.readLength_of_enough enough]
  dsimp only [Except.bind]
  rw [if_neg (by decide), if_neg (Nat.not_lt.mpr short), if_neg positive, readBytes_of_ne wide,
    behind.readBytes_of_short few]
  rfl

/-- The string is read. -/
theorem readString_of_next (valid : reader.Valid memory) (next : reader.StringNext memory)
    (short : (lengthOf (reader.unread memory)).toNat ≤ MaxStringLength) :
    ∃ read, readString memory reader value =
        .ok { returned := true, value := read, reader := reader.behindString memory } ∧
      read.bytes = ((reader.unread memory).drop 4).take (lengthOf (reader.unread memory)).toNat := by
  obtain ⟨enough, more⟩ := valid.enough_of_next next
  obtain ⟨behind, rest⟩ := valid.unread_behindLength enough
  rw [readString, readLength_eq, valid.readLength_of_enough enough]
  dsimp only [Except.bind]
  rw [if_neg (by decide), if_neg (Nat.not_lt.mpr short)]
  split
  · next zero =>
    refine ⟨.empty, ?_, ?_⟩
    · rw [PacketReader.behindString, zero]
      have same : (reader.advanced 4).advanced (0 : UInt32).toUInt64 = reader.advanced 4 := by
        rw [PacketReader.advanced, PacketReader.advanced]
        exact congrArg (PacketReader.mk reader.view) (UInt64.add_zero _)
      rw [same]
    · rw [zero]
      rfl
  · next positive =>
    have wide := toUInt64_ne_zero positive
    obtain ⟨read, done, same⟩ : ∃ read,
        (reader.advanced 4).readBytes memory PacketReader.addressOf
          (lengthOf (reader.unread memory)).toUInt64 = _ ∧ _ :=
      behind.readBytes_of_enough (by decide) wide more
    refine ⟨read, ?_, ?_⟩
    · rw [readBytes_of_ne wide, done]
      rfl
    · rw [same, rest, UInt32.toNat_toUInt64]

/-- A failed ReadString leaves the offset where it was exactly when no length was left to
read. A string that is there, and not too long, is read. -/
theorem failed_read_rolled_back_iff (valid : reader.Valid memory) (value : ByteString) :
    (∀ result, readString memory reader value = .ok result → result.returned = false →
      result.reader.offset = reader.offset) ↔
    (reader.unread memory).length < 4 ∨
      (lengthOf (reader.unread memory)).toNat ≤ MaxStringLength ∧
        4 + (lengthOf (reader.unread memory)).toNat ≤ (reader.unread memory).length := by
  by_cases short : (reader.unread memory).length < 4
  · refine iff_of_true (fun result failed _ => ?_) (.inl short)
    rw [readString_of_short valid short] at failed
    cases failed
    rfl
  have enough := Nat.not_lt.mp short
  have moved : (reader.advanced 4).offset ≠ reader.offset := by
    intro same
    have further : (reader.advanced 4).offset.toNat = reader.offset.toNat + 4 :=
      valid.toNat_offset_advanced enough
    rw [same] at further
    omega
  rw [or_iff_right short]
  by_cases long : MaxStringLength < (lengthOf (reader.unread memory)).toNat
  · refine iff_of_false (fun kept => ?_) fun both => Nat.not_lt.mpr both.1 long
    exact moved (kept _ (readString_of_long valid enough long) rfl)
  have small := Nat.not_lt.mp long
  by_cases next : reader.StringNext memory
  · refine iff_of_true (fun result read failed => ?_) ⟨small, next⟩
    obtain ⟨_, done, -⟩ := readString_of_next valid next small
    rw [done] at read
    cases read
    cases failed
  · refine iff_of_false (fun kept => ?_) fun both => next both.2
    exact moved (kept _ (readString_of_truncated valid enough small next) rfl)

/-- A string of one byte that is there is read, and a length of one byte with nothing
behind it is not given back. -/
theorem read_of_one_byte_kept :
    (∀ result, readString ⟨[1, 0, 0, 0, 65], by decide⟩
        (.atStart (.whole ⟨[1, 0, 0, 0, 65], by decide⟩)) .empty = .ok result →
      result.returned = false → result.reader.offset = 0) ∧
    ¬ ∀ result, readString ⟨[1, 0, 0, 0], by decide⟩
        (.atStart (.whole ⟨[1, 0, 0, 0], by decide⟩)) .empty = .ok result →
      result.returned = false → result.reader.offset = 0 := by
  constructor
  · have valid := PacketReader.valid_atStart (PacketView.inside_whole ⟨[1, 0, 0, 0, 65], by decide⟩)
    exact (failed_read_rolled_back_iff valid .empty).mpr (.inr (by decide))
  · have valid := PacketReader.valid_atStart (PacketView.inside_whole ⟨[1, 0, 0, 0], by decide⟩)
    intro kept
    have whole := (failed_read_rolled_back_iff valid .empty).mp kept
    exact absurd whole (by decide)

/-- A length with nothing behind it is read and not given back. -/
theorem truncated_read_moves : ¬ ∀ (memory : ByteString) (reader : PacketReader)
    (value : ByteString), reader.Valid memory →
      ∀ result, readString memory reader value = .ok result → result.returned = false →
        result.reader.offset = reader.offset := by
  intro claim
  have failed : readString ⟨[1, 0, 0, 0], by decide⟩ (.atStart (.whole ⟨[1, 0, 0, 0], by decide⟩))
      .empty = .ok
        { returned := false
          value := .empty
          reader := { view := .whole ⟨[1, 0, 0, 0], by decide⟩, offset := 4 } } := rfl
  have kept := claim _ _ _ (PacketReader.valid_atStart (PacketView.inside_whole _)) _ failed rfl
  exact absurd kept (by decide)

end BinaryReader
end MmoServer.Serialization
