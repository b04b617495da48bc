import MmoServer.Serialization.StringSerializer

/-!
# The two string codecs

PacketWriter and PacketReader have their own strings, in the same format. Their checks
are others than those of StringSerializer, and come in another order, but on packets
they let the same strings pass.
-/

namespace MmoServer.Serialization

open MmoServer.Packet

variable {memory : ByteString} {writer : PacketWriter} {reader : PacketReader}

/-- Both layers append the string, or both refuse it. -/
def WritersAgree (writer : PacketWriter) (str : ByteString) : Prop :=
  (∃ after, writer.writeString str = .ok (true, after) ∧
    BinaryWriter.writeString writer str = .ok (true, after)) ∨
  ∃ after other, writer.writeString str = .ok (false, after) ∧
    BinaryWriter.writeString writer str = .ok (false, other)

/-- Both layers read the same string up to the same offset, or both fail; `first` and
`second` are what the strings hold before. -/
def ReadersAgree (memory : ByteString) (reader : PacketReader) (first second : ByteString) : Prop :=
  (∃ read after, reader.readString memory first = .ok ⟨true, read, after⟩ ∧
    BinaryReader.readString memory reader second = .ok ⟨true, read, after⟩) ∨
  ∃ result other, reader.readString memory first = .ok result ∧ result.returned = false ∧
    BinaryReader.readString memory reader second = .ok other ∧ other.returned = false

theorem writersAgree (str : ByteString) (below : str.bytes.length < 2 ^ 32) :
    WritersAgree writer str := by
  have limit : kMaxPacketSize = 65536 := rfl
  have cap : MaxStringLength = 1048576 := rfl
  have bound := writer.offset_le
  have four := PacketWriter.length_lengthPrefix str
  have length := PacketWriter.length_encodeString str
  by_cases large : kMaxPacketSize < writer.offset.toNat + 4
  · exact .inr ⟨_, _, PacketWriter.writeString_of_large large, BinaryWriter.writeString_of_large large⟩
  have fits : writer.offset.toNat + (PacketWriter.lengthPrefix str).length ≤ kMaxPacketSize := by
    omega
  have packet := PacketWriter.writeString_of_lengthFits fits
  by_cases both : writer.offset.toNat + (PacketWriter.encodeString str).length ≤ kMaxPacketSize
  · have binary := BinaryWriter.writeString_of_lengthFits (by omega) fits
    rw [dif_pos both] at packet binary
    exact .inl ⟨_, packet, binary⟩
  · rw [dif_neg both, if_pos (by omega)] at packet
    by_cases long : MaxStringLength < str.bytes.length
    · exact .inr ⟨_, _, packet, BinaryWriter.writeString_of_long long⟩
    · have binary := BinaryWriter.writeString_of_lengthFits (Nat.not_lt.mp long) fits
      rw [dif_neg both] at binary
      exact .inr ⟨_, _, packet, binary⟩

theorem readersAgree (valid : reader.Valid memory) (small : reader.view.size.toNat ≤ 65536)
    (first second : ByteString) : ReadersAgree memory reader first second := by
  have cap : MaxStringLength = 1048576 := rfl
  by_cases next : reader.StringNext memory
  · have short : (lengthOf (reader.unread memory)).toNat ≤ MaxStringLength := by
      rw [PacketReader.StringNext, valid.length_unread, valid.toNat_getRemainingBytes] at next
      omega
    obtain ⟨read, packet, same⟩ := valid.readString_of_next first next
    obtain ⟨other, binary, also⟩ := BinaryReader.readString_of_next valid next short
    obtain rfl : read = other := ByteString.ext (same.trans also.symm)
    exact .inl ⟨read, _, packet, binary⟩
  · right
    have packet := valid.readString_of_not_next first next
    by_cases few : (reader.unread memory).length < 4
    · exact ⟨_, _, packet, rfl, BinaryReader.readString_of_short valid few, rfl⟩
    have enough := Nat.not_lt.mp few
    by_cases long : MaxStringLength < (lengthOf (reader.unread memory)).toNat
    · exact ⟨_, _, packet, rfl, BinaryReader.readString_of_long valid enough long, rfl⟩
    · have short := Nat.not_lt.mp long
      exact ⟨_, _, packet, rfl, BinaryReader.readString_of_truncated valid enough short next, rfl⟩

/-- Strings below 2^32 bytes, and views of the size of a packet, are treated alike by
both layers. -/
theorem string_codecs_agree :
    (∀ (writer : PacketWriter) (str : ByteString), str.bytes.length < 2 ^ 32 →
      WritersAgree writer str) ∧
    ∀ (memory : ByteString) (reader : PacketReader), reader.Valid memory →
      reader.view.size.toNat ≤ 65536 →
      ∀ first second, ReadersAgree memory reader first second :=
  ⟨fun _ str below => writersAgree str below,
    fun _ _ valid small first second => readersAgree valid small first second⟩

/-- A string of one byte, and a view of it. -/
theorem string_codecs_agree_on_one_byte :
    WritersAgree (.atStart .constructed) ⟨[65], by decide⟩ ∧
      ReadersAgree ⟨[1, 0, 0, 0, 65], by decide⟩ (.atStart (.whole ⟨[1, 0, 0, 0, 65], by decide⟩))
        .empty .empty :=
  ⟨string_codecs_agree.1 _ _ (by decide),
    string_codecs_agree.2 _ _ (PacketReader.valid_atStart (PacketView.inside_whole _)) (by decide) _ _⟩

end MmoServer.Serialization
