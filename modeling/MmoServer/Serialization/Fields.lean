import MmoServer.Serialization.StringSerializer
import MmoServer.Std.WireFormat

/-!
# Sequences of fields

What a program writes and reads is a sequence of values of fixed size, strings and
blocks. `fieldFormat` is the format of one field. Every write that returns true
appends a field in this format, and every read that returns true takes one off the
bytes that have not been read; the laws of the format do the rest.
-/

namespace MmoServer.Serialization

open MmoServer.Packet MmoServer.Std

/-- A value as it is written: a primitive of some bytes, a string, or a block. -/
inductive Field where
  /-- The bytes of a value of fixed size. -/
  | primitive (value : ByteString)
  | string (value : ByteString)
  | block (data : ByteString)
deriving DecidableEq

/-- What a reader has to know of a field before it reads it. -/
inductive FieldShape where
  | primitive (width : UInt64)
  | string
  | block (size : UInt64)
deriving DecidableEq

/-- What a field is read into. -/
inductive FieldTarget where
  | primitive (width : UInt64)
  /-- A string, with what it holds before. -/
  | string (value : ByteString)
  | block (dest : Pointer) (size : UInt64)

/-- The shape that a field is read with. -/
def Field.shape : Field → FieldShape
  | .primitive value => .primitive value.size
  | .string _ => .string
  | .block data => .block data.size

/-- The shape that a target reads. -/
def FieldTarget.shape : FieldTarget → FieldShape
  | .primitive width => .primitive width
  | .string _ => .string
  | .block _ size => .block size

/-- A block of at least one byte is not read to null. -/
def FieldTarget.Present : FieldTarget → Prop
  | .block dest size => dest ≠ none ∨ size = 0
  | _ => True

/-- One field, written through BinaryWriter. -/
def writeField (writer : PacketWriter) : Field → Except Fault (Bool × PacketWriter)
  | .primitive value => BinaryWriter.writeBytes writer (some value.bytes) value.size
  | .string value => BinaryWriter.writeString writer value
  | .block data => BinaryWriter.writeBytes writer (some data.bytes) data.size

/-- One field, read through BinaryReader. -/
def readField (memory : ByteString) (reader : PacketReader) :
    FieldTarget → Except Fault (ReadResult Field)
  | .primitive width =>
    (BinaryReader.readBytes memory reader PacketReader.addressOf width).map fun result =>
      { result with value := .primitive (result.value.getD .empty) }
  | .string value =>
    (BinaryReader.readString memory reader value).map fun result =>
      { result with value := .string result.value }
  | .block dest size =>
    (BinaryReader.readBytes memory reader dest size).map fun result =>
      { result with value := .block (result.value.getD .empty) }

/-- The fields are written one after the other, and every write returns true. -/
inductive Writes : PacketWriter → List Field → PacketWriter → Prop where
  | nil {writer} : Writes writer [] writer
  | cons {writer next after field fields} (first : writeField writer field = .ok (true, next))
      (rest : Writes next fields after) : Writes writer (field :: fields) after

/-- The fields are read one after the other, and every read returns true. -/
inductive Reads (memory : ByteString) :
    PacketReader → List FieldTarget → List Field → PacketReader → Prop where
  | nil {reader} : Reads memory reader [] [] reader
  | cons {reader next after target targets field fields}
      (first : readField memory reader target = .ok ⟨true, field, next⟩)
      (rest : Reads memory next targets fields after) :
      Reads memory reader (target :: targets) (field :: fields) after

/-! ## The format of a field -/

namespace Field

/-- How a field is laid out. -/
def encode : Field → List UInt8
  | .primitive value => value.bytes
  | .string value => PacketWriter.encodeString value
  | .block data => data.bytes

/-- A string is laid out up to the limit. -/
def Admits : Field → Prop
  | .string value => value.bytes.length ≤ MaxStringLength
  | _ => True

/-- Some bytes off the front. -/
def takeBytes (make : ByteString → Field) (size : UInt64) (cells : List UInt8) :
    Option (Field × List UInt8) :=
  if size.toNat ≤ cells.length then
    some (make ⟨cells.take size.toNat, Nat.lt_of_le_of_lt (List.length_take_le ..) size.toNat_lt⟩,
      cells.drop size.toNat)
  else none

/-- What a reader makes of the bytes in front of it. -/
def decode : FieldShape → List UInt8 → Option (Field × List UInt8)
  | .primitive width, cells => takeBytes .primitive width cells
  | .string, cells =>
    if 4 + (lengthOf cells).toNat ≤ cells.length ∧ (lengthOf cells).toNat ≤ MaxStringLength then
      takeBytes .string (lengthOf cells).toUInt64 (cells.drop 4)
    else none
  | .block size, cells => takeBytes .block size cells

variable {make : ByteString → Field} {size : UInt64} {cells rest : List UInt8} {value : ByteString}
  {field : Field}

theorem takeBytes_eq_some (enough : size.toNat ≤ cells.length)
    (same : value.bytes = cells.take size.toNat) :
    takeBytes make size cells = some (make value, cells.drop size.toNat) := by
  rw [takeBytes, if_pos enough]
  congr 3
  ext1
  exact same.symm

theorem takeBytes_append (value : ByteString) (rest : List UInt8) :
    takeBytes make value.size (value.bytes ++ rest) = some (make value, rest) := by
  have enough : value.bytes.length ≤ (value.bytes ++ rest).length := by
    rw [List.length_append]
    exact Nat.le_add_right ..
  simp only [takeBytes, ByteString.toNat_size, if_pos enough, List.take_left, List.drop_left]

theorem of_takeBytes (taken : takeBytes make size cells = some (field, rest)) :
    ∃ value, field = make value ∧ value.size = size ∧ cells = value.bytes ++ rest := by
  rw [takeBytes] at taken
  split at taken
  · next enough =>
    cases taken
    refine ⟨_, rfl, ?_, (List.take_append_drop ..).symm⟩
    rw [← UInt64.toNat_inj, ByteString.toNat_size, List.length_take, Nat.min_eq_left enough]
  · cases taken

/-- The length before a string is read back. -/
theorem lengthOf_lengthPrefix (value : ByteString) (rest : List UInt8) :
    lengthOf (PacketWriter.lengthPrefix value ++ rest) = UInt32.ofNat value.bytes.length := by
  have four := PacketWriter.length_lengthPrefix value
  have fits : (UInt32.ofNat value.bytes.length).toNat % 256 ^ 4 =
      (UInt32.ofNat value.bytes.length).toNat := Nat.mod_eq_of_lt (UInt32.toNat_lt _)
  rw [lengthOf, List.take_left' four, PacketWriter.lengthPrefix, ofLittleEndian_littleEndian, fits,
    UInt32.ofNat_toNat]

theorem toNat_lengthOf (bytes : List UInt8) :
    (lengthOf bytes).toNat = ofLittleEndian (bytes.take 4) := by
  have small := ofLittleEndian_lt (bytes.take 4)
  have short : (bytes.take 4).length ≤ 4 := List.length_take_le ..
  have bound : 256 ^ (bytes.take 4).length ≤ 256 ^ 4 := Nat.pow_le_pow_right (by decide) short
  rw [lengthOf, UInt32.toNat_ofNat']
  exact Nat.mod_eq_of_lt (Nat.lt_of_lt_of_le small bound)

theorem decode_encode (admitted : field.Admits) (rest : List UInt8) :
    decode field.shape (field.encode ++ rest) = some (field, rest) := by
  cases field with
  | primitive value => exact takeBytes_append value rest
  | block data => exact takeBytes_append data rest
  | string value =>
      have four := PacketWriter.length_lengthPrefix value
      have length := BinaryWriter.toNat_length admitted
      have size : (UInt32.ofNat value.bytes.length).toUInt64 = value.size := by
        rw [← UInt64.toNat_inj, UInt32.toNat_toUInt64, length, ByteString.toNat_size]
      rw [shape, encode, decode, PacketWriter.encodeString, List.append_assoc,
        lengthOf_lengthPrefix, length, if_pos, size, List.drop_left' four]
      · exact takeBytes_append value rest
      · refine ⟨?_, admitted⟩
        rw [List.length_append, List.length_append, four]
        omega

theorem of_decode {expected : FieldShape} (read : decode expected cells = some (field, rest)) :
    field.shape = expected ∧ field.Admits ∧ cells = field.encode ++ rest := by
  cases expected with
  | primitive width =>
      obtain ⟨value, rfl, rfl, rfl⟩ := of_takeBytes read
      exact ⟨rfl, trivial, rfl⟩
  | block size =>
      obtain ⟨value, rfl, rfl, rfl⟩ := of_takeBytes read
      exact ⟨rfl, trivial, rfl⟩
  | string =>
      rw [decode] at read
      split at read
      · next complete =>
        obtain ⟨whole, short⟩ := complete
        obtain ⟨value, rfl, size, split⟩ := of_takeBytes read
        have length : value.bytes.length = (lengthOf cells).toNat := by
          rw [← ByteString.toNat_size, size, UInt32.toNat_toUInt64]
        have front : PacketWriter.lengthPrefix value = cells.take 4 := by
          have four : (cells.take 4).length = 4 := by
            rw [List.length_take, Nat.min_eq_left (Nat.le_trans (Nat.le_add_right ..) whole)]
          have back := littleEndian_ofLittleEndian (cells.take 4)
          rw [PacketWriter.lengthPrefix, length, UInt32.ofNat_toNat, toNat_lengthOf]
          rw [four] at back
          exact back
        refine ⟨rfl, ?_, ?_⟩
        · rw [Admits, length]
          exact short
        · rw [encode, PacketWriter.encodeString, front, List.append_assoc, ← split,
            List.take_append_drop]
      · cases read

end Field

/-- The fields as a wire format. -/
def fieldFormat : WireFormat UInt8 FieldShape Field where
  shape := Field.shape
  Admits := Field.Admits
  encode := Field.encode
  decode := Field.decode
  decode_encode := Field.decode_encode
  of_decode := Field.of_decode

end MmoServer.Serialization
