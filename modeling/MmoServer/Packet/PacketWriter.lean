import MmoServer.Packet.PacketBuffer
import MmoServer.Std.LittleEndian

/-!
# PacketWriter

WriteBytes compares `m_offset + size` with the limit. The sum wraps around, so a
size close to 2^64 passes every check and the copy leaves the buffer; for all other
sizes WriteBytes appends at the offset or changes nothing. WriteString writes a
prefix of four bytes and the string, and restores the offset when the string does
not fit, but not what the prefix did to the buffer.
-/

namespace MmoServer.Packet

open MmoServer.Std

/-- The writer with the buffer it borrows. -/
@[ext] structure PacketWriter where
  buffer : PacketBuffer
  offset : UInt64
  offset_le : offset.toNat ≤ kMaxPacketSize
deriving DecidableEq

namespace PacketWriter

/-- Where WriteBytes is after its checks. -/
inductive WriteState where
  | returned (result : Bool)
  /-- At the copy into the buffer, after which the offset is `requiredSize`. -/
  | copy (buffer : PacketBuffer) (requiredSize : UInt64) (fits : requiredSize.toNat ≤ kMaxPacketSize)

/-- PacketWriter::PacketWriter. -/
def atStart (buffer : PacketBuffer) : PacketWriter := ⟨buffer, 0, by decide⟩

/-- PacketWriter::Reset. -/
def reset (writer : PacketWriter) : PacketWriter := atStart writer.buffer

/-- PacketWriter::WriteBytes up to its copy; `present` says that `data` is not null. -/
def check (writer : PacketWriter) (present : Bool) (size : UInt64) : Except Fault WriteState :=
  if size = 0 then .ok (.returned true)
  else if present = false then .ok (.returned false)
  else
    let requiredSize := writer.offset + size
    if tooLarge : kMaxPacketSize < requiredSize.toNat then .ok (.returned false)
    else if writer.buffer.size < requiredSize then
      (writer.buffer.resize requiredSize).map (.copy · requiredSize (Nat.not_lt.mp tooLarge))
    else .ok (.copy writer.buffer requiredSize (Nat.not_lt.mp tooLarge))

/-- PacketWriter::WriteBytes; `data` is what its pointer points to, `none` for null. -/
def writeBytes (writer : PacketWriter) (data : Option (List UInt8)) (size : UInt64) :
    Except Fault (Bool × PacketWriter) :=
  (writer.check data.isSome size).bind fun
    | .returned result => .ok (result, writer)
    | .copy buffer requiredSize fits =>
      (buffer.copyIn writer.offset size (data.getD [])).map
        fun buffer => (true, { buffer, offset := requiredSize, offset_le := fits })

/-- `Write(length)` of a 32-bit length. -/
def writeLength (writer : PacketWriter) (length : UInt32) : Except Fault (Bool × PacketWriter) :=
  writer.writeBytes (some (littleEndian 4 length.toNat)) 4

/-- PacketWriter::WriteString. -/
def writeString (writer : PacketWriter) (str : ByteString) : Except Fault (Bool × PacketWriter) :=
  let length := UInt32.ofNat str.bytes.length
  (writer.writeLength length).bind fun (written, prefixed) =>
    if written = false then .ok (false, prefixed)
    else
      (prefixed.writeBytes (some str.bytes) str.size).map fun (written, after) =>
        if written = false then
          (false, { after with offset := writer.offset, offset_le := writer.offset_le })
        else (true, after)

variable {writer after : PacketWriter} {count : UInt64} {source data more : List UInt8}
  {pointer : Option (List UInt8)} {str : ByteString}

/-- The sum that the checks compare. -/
theorem toNat_offset_add : (writer.offset + count).toNat =
    (writer.offset.toNat + count.toNat) % 2 ^ 64 := UInt64.toNat_add ..

/-- What does not fit is refused, unless the sum wraps. -/
theorem check_of_large (large : kMaxPacketSize < (writer.offset.toNat + count.toNat) % 2 ^ 64) :
    writer.check true count = .ok (.returned false) := by
  have positive : count ≠ 0 := by
    rintro rfl
    have bound := writer.offset_le
    rw [UInt64.toNat_zero] at large
    omega
  rw [← toNat_offset_add] at large
  rw [check, if_neg positive, if_neg (by decide)]
  exact dif_pos large

/-- What passes the checks is copied into a buffer that reaches up to the sum. -/
theorem check_of_small (positive : count ≠ 0)
    (small : (writer.offset.toNat + count.toNat) % 2 ^ 64 ≤ kMaxPacketSize) :
    ∃ buffer fits, writer.check true count = .ok (.copy buffer (writer.offset + count) fits) ∧
      buffer.bytes = Region.grow writer.buffer.bytes
        ((writer.offset.toNat + count.toNat) % 2 ^ 64) 0 := by
  rw [← toNat_offset_add] at small ⊢
  rw [check, if_neg positive, if_neg (by decide)]
  dsimp only
  rw [dif_neg (Nat.not_lt.mpr small)]
  split
  · next short =>
    rw [UInt64.lt_iff_toNat_lt, PacketBuffer.toNat_size] at short
    obtain ⟨buffer, resized, bytes⟩ := PacketBuffer.resize_of_le (Nat.le_of_lt short) small
    exact ⟨buffer, small, by rw [resized]; rfl, bytes⟩
  · next long =>
    rw [UInt64.lt_iff_toNat_lt, PacketBuffer.toNat_size, Nat.not_lt] at long
    exact ⟨writer.buffer, small, rfl, (Region.grow_eq_self long).symm⟩

/-- The writer after some bytes have been written at its offset. -/
def appended (writer : PacketWriter) (data : List UInt8)
    (fits : writer.offset.toNat + data.length ≤ kMaxPacketSize) : PacketWriter where
  buffer :=
    { bytes := Region.write
        (Region.grow writer.buffer.bytes (writer.offset.toNat + data.length) 0)
        writer.offset.toNat data
      length_le := by
        have bound := writer.buffer.length_le
        rw [Region.length_write] <;> rw [Region.length_grow] <;> omega }
  offset := UInt64.ofNat (writer.offset.toNat + data.length)
  offset_le := by
    rw [UInt64.toNat_ofNat']
    exact Nat.le_trans (Nat.mod_le ..) fits

@[simp] theorem toNat_offset_appended
    (fits : writer.offset.toNat + data.length ≤ kMaxPacketSize) :
    (writer.appended data fits).offset.toNat = writer.offset.toNat + data.length := by
  rw [appended, UInt64.toNat_ofNat']
  exact Nat.mod_eq_of_lt (Nat.lt_of_le_of_lt fits (by decide))

/-- Nothing is written of no bytes. -/
theorem writeBytes_zero : writer.writeBytes pointer 0 = .ok (true, writer) := rfl

/-- Nor from a null pointer. -/
theorem writeBytes_null (positive : count ≠ 0) :
    writer.writeBytes none count = .ok (false, writer) := by
  rw [writeBytes, check, if_neg positive, if_pos (by rfl)]
  rfl

/-- A size that the checks refuse. -/
theorem writeBytes_of_large
    (large : kMaxPacketSize < (writer.offset.toNat + count.toNat) % 2 ^ 64) :
    writer.writeBytes (some source) count = .ok (false, writer) := by
  rw [writeBytes, Option.isSome_some, check_of_large large]
  rfl

/-- A size that the sum with the offset wraps around for passes the checks, and the
copy leaves the buffer. -/
theorem writeBytes_of_wraps (wraps : 2 ^ 64 ≤ writer.offset.toNat + count.toNat) :
    writer.writeBytes (some source) count = .error .outOfBounds := by
  have limit : kMaxPacketSize = 65536 := rfl
  have bound := writer.offset_le
  have below := count.toNat_lt
  have positive : count ≠ 0 := by
    rintro rfl
    rw [UInt64.toNat_zero] at wraps
    omega
  have small : (writer.offset.toNat + count.toNat) % 2 ^ 64 ≤ kMaxPacketSize := by
    omega
  obtain ⟨buffer, fits, passed, bytes⟩ := check_of_small positive small
  rw [writeBytes, Option.isSome_some, passed]
  dsimp only [Except.bind]
  rw [PacketBuffer.copyIn_of_outside]
  · rfl
  · have length := writer.buffer.length_le
    rw [bytes, Region.length_grow]
    omega

/-- A size within the limit is written at the offset. -/
theorem writeBytes_of_fits (positive : data ≠ []) (enough : source.take count.toNat = data)
    (size : count.toNat = data.length)
    (fits : writer.offset.toNat + data.length ≤ kMaxPacketSize) :
    writer.writeBytes (some source) count = .ok (true, writer.appended data fits) := by
  have limit : kMaxPacketSize = 65536 := rfl
  have whole : (writer.offset.toNat + count.toNat) % 2 ^ 64 =
      writer.offset.toNat + data.length := by
    rw [size]
    exact Nat.mod_eq_of_lt (by omega)
  have nonzero : count ≠ 0 := by
    rintro rfl
    exact positive (List.length_eq_zero_iff.mp size.symm)
  have within : (writer.offset.toNat + count.toNat) % 2 ^ 64 ≤ kMaxPacketSize := by
    rw [whole]
    exact fits
  obtain ⟨buffer, small, passed, bytes⟩ := check_of_small nonzero within
  rw [whole] at bytes
  have long : count.toNat ≤ source.length := by
    rw [size, ← enough]
    exact List.length_take_le' ..
  have room : writer.offset.toNat + count.toNat ≤ buffer.bytes.length := by
    rw [bytes, Region.length_grow, size]
    omega
  obtain ⟨copied, done, same⟩ := PacketBuffer.copyIn_of_inside room long
  rw [writeBytes, Option.isSome_some, passed]
  dsimp only [Except.bind, Option.getD_some]
  rw [done]
  dsimp only [Except.map]
  congr 2
  ext1
  · ext1
    rw [same, bytes, enough]
    rfl
  · rw [← UInt64.toNat_inj, toNat_offset_appended, toNat_offset_add, whole]

/-! ## What has been written -/

/-- The bytes before the offset. -/
def written (writer : PacketWriter) : List UInt8 := writer.buffer.bytes.take writer.offset.toNat

/-- The buffer reaches up to the offset. Only a caller who shrinks it makes this fail. -/
def Covered (writer : PacketWriter) : Prop := writer.offset.toNat ≤ writer.buffer.bytes.length

/-- A new writer is covered by its buffer. -/
theorem covered_atStart (buffer : PacketBuffer) : (atStart buffer).Covered := Nat.zero_le _

/-- The buffer grows to the end of what is appended. -/
theorem bytes_appended (fits : writer.offset.toNat + data.length ≤ kMaxPacketSize) :
    (writer.appended data fits).buffer.bytes =
      Region.write (Region.grow writer.buffer.bytes (writer.offset.toNat + data.length) 0)
        writer.offset.toNat data := rfl

/-- So the writer stays covered. -/
theorem covered_appended (fits : writer.offset.toNat + data.length ≤ kMaxPacketSize) :
    (writer.appended data fits).Covered := by
  rw [Covered, toNat_offset_appended, bytes_appended]
  rw [Region.length_write] <;> rw [Region.length_grow] <;> omega

/-- What is appended is written behind the rest. -/
theorem written_appended (covered : writer.Covered)
    (fits : writer.offset.toNat + data.length ≤ kMaxPacketSize) :
    (writer.appended data fits).written = writer.written ++ data := by
  rw [written, toNat_offset_appended, bytes_appended, Region.take_write, Region.take_grow covered]
  · rfl
  · rw [Region.length_grow]
    omega

/-- Appending nothing changes nothing. -/
theorem appended_nil (covered : writer.Covered) (fits : writer.offset.toNat + 0 ≤ kMaxPacketSize) :
    writer.appended [] fits = writer := by
  ext1
  · ext1
    rw [bytes_appended, Region.write_nil]
    exact Region.grow_eq_self covered
  · rw [← UInt64.toNat_inj, toNat_offset_appended]
    rfl

/-- Two writes, one after the other, are one. -/
theorem appended_appended (fits : writer.offset.toNat + data.length ≤ kMaxPacketSize)
    (both : writer.offset.toNat + (data ++ more).length ≤ kMaxPacketSize)
    (fitsMore : (writer.appended data fits).offset.toNat + more.length ≤ kMaxPacketSize) :
    (writer.appended data fits).appended more fitsMore = writer.appended (data ++ more) both := by
  have length : (data ++ more).length = data.length + more.length := List.length_append
  ext1
  · ext1
    rw [bytes_appended, bytes_appended, bytes_appended, toNat_offset_appended, Region.grow_write,
      Region.grow_grow, Region.write_write, length, Nat.add_assoc]
    · rw [Region.length_grow]
      omega
    · omega
    · rw [Region.length_grow]
      omega
  · rw [← UInt64.toNat_inj, toNat_offset_appended, toNat_offset_appended, toNat_offset_appended,
      length, Nat.add_assoc]

/-- WriteBytes of a whole string, in full: it is appended where it fits, refused where
it does not, and where the sum of its size and the offset wraps around the copy leaves
the buffer. -/
theorem writeBytes_string (covered : writer.Covered) (str : ByteString) :
    writer.writeBytes (some str.bytes) str.size =
      if fits : writer.offset.toNat + str.bytes.length ≤ kMaxPacketSize then
        .ok (true, writer.appended str.bytes fits)
      else if writer.offset.toNat + str.bytes.length < 2 ^ 64 then .ok (false, writer)
      else .error .outOfBounds := by
  split
  · next fits =>
    by_cases empty : str.bytes = []
    · have zero : str.size = 0 := ByteString.size_eq_zero_iff.mpr empty
      have same : writer.appended str.bytes fits = writer := by
        simp only [empty]
        exact appended_nil covered _
      rw [zero, writeBytes_zero, same]
    · refine writeBytes_of_fits empty ?_ str.toNat_size fits
      rw [ByteString.toNat_size, List.take_length]
  · next large =>
    split
    · next below =>
      apply writeBytes_of_large
      rw [ByteString.toNat_size, Nat.mod_eq_of_lt below]
      exact Nat.not_le.mp large
    · next wraps =>
      apply writeBytes_of_wraps
      rw [ByteString.toNat_size]
      exact Nat.not_lt.mp wraps

/-! ## Strings -/

/-- The length of a string in 32 bits, as it is written before it. -/
def lengthPrefix (str : ByteString) : List UInt8 :=
  littleEndian 4 (UInt32.ofNat str.bytes.length).toNat

/-- A length takes four bytes. -/
theorem length_lengthPrefix (str : ByteString) : (lengthPrefix str).length = 4 :=
  length_littleEndian ..

/-- A string as WriteString lays it out. -/
def encodeString (str : ByteString) : List UInt8 := lengthPrefix str ++ str.bytes

/-- A string takes four bytes and its own. -/
theorem length_encodeString (str : ByteString) :
    (encodeString str).length = 4 + str.bytes.length := by
  rw [encodeString, List.length_append, length_lengthPrefix]

/-- A length that does not fit is refused. -/
theorem writeLength_of_large {length : UInt32} (large : kMaxPacketSize < writer.offset.toNat + 4) :
    writer.writeLength length = .ok (false, writer) := by
  have limit : kMaxPacketSize = 65536 := rfl
  have bound := writer.offset_le
  apply writeBytes_of_large
  have four : (4 : UInt64).toNat = 4 := rfl
  rw [four, Nat.mod_eq_of_lt (by omega)]
  exact large

/-- Any other is appended. -/
theorem writeLength_of_fits {length : UInt32}
    (fits : writer.offset.toNat + (littleEndian 4 length.toNat).length ≤ kMaxPacketSize) :
    writer.writeLength length = .ok (true, writer.appended (littleEndian 4 length.toNat) fits) := by
  apply writeBytes_of_fits
  · intro empty
    have four := congrArg List.length empty
    rw [length_littleEndian] at four
    cases four
  · apply List.take_of_length_le
    rw [length_littleEndian]
    exact Nat.le_refl _
  · rw [length_littleEndian]
    rfl

/-- The prefix does not fit. -/
theorem writeString_of_large (large : kMaxPacketSize < writer.offset.toNat + 4) :
    writer.writeString str = .ok (false, writer) := by
  rw [writeString]
  dsimp only
  rw [writeLength_of_large large]
  rfl

/-- The prefix fits: the string is appended with it, or refused with the offset restored,
or copied outside the buffer. -/
theorem writeString_of_lengthFits
    (fits : writer.offset.toNat + (lengthPrefix str).length ≤ kMaxPacketSize) :
    writer.writeString str =
      if both : writer.offset.toNat + (encodeString str).length ≤ kMaxPacketSize then
        .ok (true, writer.appended (encodeString str) both)
      else if writer.offset.toNat + (encodeString str).length < 2 ^ 64 then
        .ok (false, { writer.appended (lengthPrefix str) fits with
          offset := writer.offset, offset_le := writer.offset_le })
      else .error .outOfBounds := by
  have length : (encodeString str).length = (lengthPrefix str).length + str.bytes.length :=
    List.length_append
  have reached := toNat_offset_appended fits
  have prefixed : writer.writeLength (UInt32.ofNat str.bytes.length) =
      .ok (true, writer.appended (lengthPrefix str) fits) := writeLength_of_fits fits
  rw [writeString]
  dsimp only
  rw [prefixed]
  dsimp only [Except.bind]
  rw [if_neg (by decide), writeBytes_string (covered_appended fits)]
  split
  · next fitsMore =>
    have both : writer.offset.toNat + (encodeString str).length ≤ kMaxPacketSize := by
      omega
    rw [dif_pos both, appended_appended fits both]
    rfl
  · next large =>
    rw [dif_neg (by omega)]
    split
    · rw [if_pos (by omega)]
      rfl
    · rw [if_neg (by omega)]
      rfl

/-- A refused string changes nothing exactly when its prefix does not fit, or is what
the buffer already has at the offset. A string that fits, or whose size wraps around,
is not refused. -/
theorem refused_string_traceless_iff (writer : PacketWriter) (str : ByteString) :
    (∀ after, writer.writeString str = .ok (false, after) → after = writer) ↔
      kMaxPacketSize < writer.offset.toNat + 4 ∨
      writer.offset.toNat + 4 + str.bytes.length ≤ kMaxPacketSize ∨
      2 ^ 64 ≤ writer.offset.toNat + 4 + str.bytes.length ∨
      Region.read? writer.buffer.bytes writer.offset.toNat 4 = some (lengthPrefix str) := by
  have four := length_lengthPrefix str
  have length : (encodeString str).length = 4 + str.bytes.length := length_encodeString str
  by_cases large : kMaxPacketSize < writer.offset.toNat + 4
  · refine iff_of_true (fun after refused => ?_) (.inl large)
    rw [writeString_of_large large] at refused
    cases refused
    rfl
  have fits : writer.offset.toNat + (lengthPrefix str).length ≤ kMaxPacketSize := by
    rw [four]
    exact Nat.not_lt.mp large
  rw [writeString_of_lengthFits fits]
  split
  · next both =>
    refine iff_of_true (fun after refused => by cases refused) (.inr (.inl ?_))
    omega
  · next refused =>
    split
    · next below =>
      have same_iff : (writer.appended (lengthPrefix str) fits).buffer.bytes = writer.buffer.bytes ↔
          Region.read? writer.buffer.bytes writer.offset.toNat 4 = some (lengthPrefix str) := by
        rw [← four, bytes_appended]
        exact Region.write_grow_eq_self_iff
      rw [or_iff_right large, or_iff_right (by omega), or_iff_right (by omega), ← same_iff]
      constructor
      · intro traceless
        exact congrArg (fun writer => writer.buffer.bytes) (traceless _ rfl)
      · rintro same after refused
        cases refused
        ext1
        · exact PacketBuffer.ext same
        · rfl
    · next wraps =>
      refine iff_of_true (fun after refused => by cases refused) (.inr (.inr (.inl ?_)))
      omega

/-- A new packet has room for a length. -/
theorem lengthPrefix_fits (str : ByteString) :
    (atStart .constructed).offset.toNat + (lengthPrefix str).length ≤ kMaxPacketSize := by
  rw [length_lengthPrefix]
  decide

/-- A string that only its prefix leaves room for grows the buffer of a new packet. -/
theorem refused_string_leaves_prefix : ¬ ∀ (writer : PacketWriter) (str : ByteString)
    (after : PacketWriter), writer.writeString str = .ok (false, after) → after = writer := by
  intro claim
  have fits := lengthPrefix_fits (.replicate 65533 0 (by decide))
  have length : (encodeString (.replicate 65533 0 (by decide))).length = 65537 := by
    rw [length_encodeString, ByteString.length_replicate]
  have refused := writeString_of_lengthFits fits
  rw [dif_neg (by rw [length]; decide), if_pos (by rw [length]; decide)] at refused
  have same := congrArg (fun writer => writer.buffer.bytes.length) (claim _ _ _ refused)
  dsimp only at same
  rw [bytes_appended, Region.length_write] at same <;> rw [Region.length_grow] at *
  · rw [length_lengthPrefix] at same
    exact absurd same (by decide)
  · rw [length_lengthPrefix]
    decide

/-! ## The size check -/

/-- WriteBytes, called with data, copies within the buffer and the limit, or returns
false and changes nothing. -/
def CopiesInside (writer : PacketWriter) (size : UInt64) : Prop :=
  (∃ buffer requiredSize fits, writer.check true size = .ok (.copy buffer requiredSize fits) ∧
    writer.offset.toNat + size.toNat ≤ buffer.bytes.length ∧
    writer.offset.toNat + size.toNat ≤ kMaxPacketSize) ∨
  ∀ source, writer.writeBytes (some source) size = .ok (false, writer)

/-- The check does what it is for exactly when the sum does not wrap around. A size of
zero returns true without a copy. -/
theorem copiesInside_iff (writer : PacketWriter) (size : UInt64) :
    writer.CopiesInside size ↔ size ≠ 0 ∧ writer.offset.toNat + size.toNat < 2 ^ 64 := by
  have limit : kMaxPacketSize = 65536 := rfl
  constructor
  · rintro (⟨buffer, requiredSize, fits, passed, inside, small⟩ | refused)
    · refine ⟨?_, by omega⟩
      rintro rfl
      rw [check, if_pos rfl] at passed
      cases passed
    · refine ⟨?_, ?_⟩
      · rintro rfl
        have done := refused []
        rw [writeBytes_zero] at done
        cases done
      · by_contra wraps
        have failed := refused []
        rw [writeBytes_of_wraps (Nat.not_lt.mp wraps)] at failed
        cases failed
  · rintro ⟨positive, below⟩
    have whole := Nat.mod_eq_of_lt below
    by_cases large : kMaxPacketSize < writer.offset.toNat + size.toNat
    · exact .inr fun source => writeBytes_of_large (by rw [whole]; exact large)
    · have small := Nat.not_lt.mp large
      obtain ⟨buffer, fits, passed, bytes⟩ := check_of_small positive (by rw [whole]; exact small)
      refine .inl ⟨buffer, _, fits, passed, ?_, small⟩
      rw [bytes, Region.length_grow, whole]
      exact Nat.le_max_right _ _

/-- After one byte has been written, a size of 2^64 - 1 passes the check. -/
theorem oversized_write_copied : ¬ ∀ (writer : PacketWriter) (size : UInt64),
    writer.CopiesInside size := by
  intro claim
  rcases claim ((atStart .constructed).appended [7] (by decide)) 0xFFFFFFFFFFFFFFFF with
    ⟨_, _, _, _, _, small⟩ | refused
  · exact absurd small (by decide)
  · have copied := refused []
    rw [writeBytes_of_wraps (by decide)] at copied
    cases copied

end PacketWriter
end MmoServer.Packet
