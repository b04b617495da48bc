import MmoServer.Serialization.Fields

/-!
# The round trip over sequences of fields

A write that returns true appends its field in the format, and a read returns true
exactly when the format finds its field at the front of what has not been read. By
induction over the sequence the laws of the format become laws of the serializers.
-/

namespace MmoServer.Serialization

open MmoServer.Packet MmoServer.Std

variable {memory : ByteString} {writer after : PacketWriter} {reader : PacketReader}
  {field : Field} {fields before later : List Field} {target : FieldTarget}
  {targets : List FieldTarget} {dest : Pointer} {size : UInt64}

/-! ## Writing -/

/-- A WriteBytes that returns true appends its bytes. -/
theorem writeBytes_appends (covered : writer.Covered) {value : ByteString}
    (wrote : BinaryWriter.writeBytes writer (some value.bytes) value.size = .ok (true, after)) :
    ∃ fits, after = writer.appended value.bytes fits := by
  rw [BinaryWriter.writeBytes_eq, PacketWriter.writeBytes_string covered] at wrote
  split at wrote
  · next fits =>
    cases wrote
    exact ⟨fits, rfl⟩
  · split at wrote <;> cases wrote

/-- A WriteString that returns true appends the encoded string. -/
theorem writeString_appends {value : ByteString}
    (wrote : BinaryWriter.writeString writer value = .ok (true, after)) :
    value.bytes.length ≤ MaxStringLength ∧
      ∃ fits, after = writer.appended (PacketWriter.encodeString value) fits := by
  by_cases long : MaxStringLength < value.bytes.length
  · rw [BinaryWriter.writeString_of_long long] at wrote
    cases wrote
  by_cases large : kMaxPacketSize < writer.offset.toNat + 4
  · rw [BinaryWriter.writeString_of_large large] at wrote
    cases wrote
  have short := Nat.not_lt.mp long
  have fits : writer.offset.toNat + (PacketWriter.lengthPrefix value).length ≤ kMaxPacketSize := by
    rw [PacketWriter.length_lengthPrefix]
    exact Nat.not_lt.mp large
  rw [BinaryWriter.writeString_of_lengthFits short fits] at wrote
  split at wrote
  · next both =>
    cases wrote
    exact ⟨short, both, rfl⟩
  · cases wrote

/-- A write that returns true appends the field. -/
theorem writeField_appends (covered : writer.Covered)
    (wrote : writeField writer field = .ok (true, after)) :
    field.Admits ∧ ∃ fits, after = writer.appended field.encode fits := by
  cases field with
  | primitive value => exact ⟨trivial, writeBytes_appends covered wrote⟩
  | string value => exact writeString_appends wrote
  | block data => exact ⟨trivial, writeBytes_appends covered wrote⟩

namespace Writes

/-- The fields are appended one after the other. -/
theorem appends (writes : Writes writer fields after) (covered : writer.Covered) :
    (∀ field ∈ fields, field.Admits) ∧ after.Covered ∧
      after.written = writer.written ++ fieldFormat.encodeAll fields ∧
      after.offset.toNat = writer.offset.toNat + (fieldFormat.encodeAll fields).length := by
  induction writes with
  | nil => exact ⟨by simp, covered, (List.append_nil _).symm, rfl⟩
  | cons first rest ih =>
      obtain ⟨admitted, fits, rfl⟩ := writeField_appends covered first
      obtain ⟨others, reached, written, offset⟩ := ih (PacketWriter.covered_appended fits)
      refine ⟨List.forall_mem_cons.mpr ⟨admitted, others⟩, reached, ?_, ?_⟩
      · rw [written, PacketWriter.written_appended covered, WireFormat.encodeAll_cons,
          List.append_assoc]
        rfl
      · rw [offset, PacketWriter.toNat_offset_appended, WireFormat.encodeAll_cons,
          List.length_append, Nat.add_assoc]
        rfl

/-- A sequence of writes can be cut anywhere. -/
theorem split (writes : Writes writer (before ++ later) after) :
    ∃ middle, Writes writer before middle ∧ Writes middle later after := by
  induction before generalizing writer with
  | nil => exact ⟨writer, .nil, writes⟩
  | cons field before ih =>
      cases writes with
      | cons first rest =>
          obtain ⟨middle, front, back⟩ := ih rest
          exact ⟨middle, .cons first front, back⟩

end Writes

/-! ## Reading -/

/-- The bytes are there: they are read, and the reader advances. -/
theorem readBytes_of_enough (valid : reader.Valid memory) (present : dest ≠ none ∨ size = 0)
    (enough : size.toNat ≤ (reader.unread memory).length) :
    ∃ read, BinaryReader.readBytes memory reader dest size =
        .ok { returned := true, value := some read, reader := reader.advanced size } ∧
      read.bytes = (reader.unread memory).take size.toNat := by
  by_cases zero : size = 0
  · refine ⟨.empty, ?_, ?_⟩
    · have same : reader.advanced 0 = reader :=
        congrArg (PacketReader.mk reader.view) (UInt64.add_zero _)
      rw [zero, same]
      rfl
    · rw [zero]
      rfl
  · rw [BinaryReader.readBytes_of_ne zero]
    exact valid.readBytes_of_enough (present.resolve_right zero) zero enough

/-- ReadBytes of more than is left changes nothing. -/
theorem readBytes_of_few (valid : reader.Valid memory)
    (few : (reader.unread memory).length < size.toNat) :
    BinaryReader.readBytes memory reader dest size =
      .ok { returned := false, value := none, reader } := by
  have positive : size ≠ 0 := by
    rintro rfl
    exact absurd few (Nat.not_lt_zero _)
  rw [BinaryReader.readBytes_of_ne positive]
  exact valid.readBytes_of_short few

/-- What a read does, by what the format finds in the bytes that have not been read. -/
def ReadsAs (memory : ByteString) (reader : PacketReader) (target : FieldTarget) : Prop :=
  match Field.decode target.shape (reader.unread memory) with
  | none => ∃ field after, readField memory reader target = .ok ⟨false, field, after⟩
  | some (field, rest) => ∃ after, readField memory reader target = .ok ⟨true, field, after⟩ ∧
      after.Valid memory ∧ after.view = reader.view ∧ after.unread memory = rest

/-- ReadBytes reads as the format decodes. -/
theorem readsAs_bytes (valid : reader.Valid memory) (present : dest ≠ none ∨ size = 0)
    (make : ByteString → Field) :
    match Field.takeBytes make size (reader.unread memory) with
    | none => ∃ field after, ((BinaryReader.readBytes memory reader dest size).map fun result =>
        { result with value := make (result.value.getD .empty) }) = .ok ⟨false, field, after⟩
    | some (field, rest) =>
      ∃ after, ((BinaryReader.readBytes memory reader dest size).map fun result =>
        { result with value := make (result.value.getD .empty) }) = .ok ⟨true, field, after⟩ ∧
        after.Valid memory ∧ after.view = reader.view ∧ after.unread memory = rest := by
  by_cases enough : size.toNat ≤ (reader.unread memory).length
  · obtain ⟨read, done, same⟩ := readBytes_of_enough valid present enough
    rw [Field.takeBytes_eq_some enough same, done]
    exact ⟨_, rfl, valid.advanced enough, rfl, valid.unread_advanced enough⟩
  · rw [Field.takeBytes, if_neg enough, readBytes_of_few valid (Nat.not_le.mp enough)]
    exact ⟨_, _, rfl⟩

/-- So does ReadString. -/
theorem readsAs_string (valid : reader.Valid memory) (value : ByteString) :
    ReadsAs memory reader (.string value) := by
  rw [ReadsAs, FieldTarget.shape, Field.decode, readField]
  by_cases few : (reader.unread memory).length < 4
  · rw [if_neg (by omega), BinaryReader.readString_of_short valid few]
    exact ⟨_, _, rfl⟩
  have enough := Nat.not_lt.mp few
  by_cases long : MaxStringLength < (lengthOf (reader.unread memory)).toNat
  · rw [if_neg (by omega), BinaryReader.readString_of_long valid enough long]
    exact ⟨_, _, rfl⟩
  have short := Nat.not_lt.mp long
  by_cases next : reader.StringNext memory
  · obtain ⟨more, fits⟩ := valid.enough_of_next next
    obtain ⟨behind, rest⟩ := valid.unread_behindLength enough
    obtain ⟨read, done, same⟩ := BinaryReader.readString_of_next valid next short
    rw [if_pos ⟨next, short⟩, done]
    have room : (lengthOf (reader.unread memory)).toUInt64.toNat ≤
        ((reader.unread memory).drop 4).length := by
      rw [← rest]
      exact fits
    have whole : read.bytes = ((reader.unread memory).drop 4).take
        (lengthOf (reader.unread memory)).toUInt64.toNat := by
      rw [same, UInt32.toNat_toUInt64]
    rw [Field.takeBytes_eq_some room whole]
    refine ⟨_, rfl, behind.advanced fits, rfl, ?_⟩
    rw [← rest]
    exact behind.unread_advanced fits
  · rw [if_neg fun complete => next complete.1,
      BinaryReader.readString_of_truncated valid enough short next]
    exact ⟨_, _, rfl⟩

/-- So does every read. -/
theorem readsAs (valid : reader.Valid memory) (present : target.Present) :
    ReadsAs memory reader target := by
  cases target with
  | primitive width =>
      have addressed : PacketReader.addressOf ≠ none ∨ width = 0 := .inl (by decide)
      exact readsAs_bytes valid addressed .primitive
  | string value => exact readsAs_string valid value
  | block dest size => exact readsAs_bytes valid present .block

/-- Nothing but no bytes is read to null. -/
theorem present_of_read {next : PacketReader}
    (read : readField memory reader target = .ok ⟨true, field, next⟩) : target.Present := by
  cases target with
  | primitive width => trivial
  | string value => trivial
  | block dest size =>
      by_cases present : dest ≠ none ∨ size = 0
      · exact present
      · obtain ⟨null, positive⟩ := not_or.mp present
        rw [readField, BinaryReader.readBytes, if_neg positive, if_pos (not_not.mp null)] at read
        cases read

namespace Reads

/-- What is read is what the format reads. -/
theorem decodes {last : PacketReader} (reads : Reads memory reader targets fields last)
    (valid : reader.Valid memory) :
    fieldFormat.decodeAll (targets.map FieldTarget.shape) (reader.unread memory) =
        some (fields, last.unread memory) ∧
      last.Valid memory ∧ last.view = reader.view := by
  induction reads with
  | nil => exact ⟨rfl, valid, rfl⟩
  | @cons reader next last target targets field fields first rest ih =>
      have found := readsAs valid (present_of_read first)
      rw [ReadsAs] at found
      cases decoded : Field.decode target.shape (reader.unread memory) with
      | none =>
          rw [decoded] at found
          obtain ⟨_, _, refused⟩ := found
          rw [first] at refused
          cases refused
      | some result =>
          rw [decoded] at found
          obtain ⟨_, read, nextValid, sameView, left⟩ := found
          rw [first] at read
          cases read
          have head : fieldFormat.decode target.shape (reader.unread memory) =
              some (result.1, next.unread memory) := by
            rw [left]
            exact decoded
          obtain ⟨others, lastValid, view⟩ := ih nextValid
          refine ⟨?_, lastValid, view.trans sameView⟩
          rw [List.map_cons, WireFormat.decodeAll]
          rw [head]
          dsimp only [Option.bind_some]
          rw [others]
          rfl

end Reads

/-- What the format reads can be read. -/
theorem reads_of_decodes {rest : List UInt8} (valid : reader.Valid memory)
    (present : ∀ target ∈ targets, target.Present)
    (decoded : fieldFormat.decodeAll (targets.map FieldTarget.shape) (reader.unread memory) =
      some (fields, rest)) :
    ∃ last, Reads memory reader targets fields last ∧ last.Valid memory ∧
      last.unread memory = rest := by
  induction targets generalizing reader fields with
  | nil =>
      cases decoded
      exact ⟨reader, .nil, valid, rfl⟩
  | cons target targets ih =>
      obtain ⟨here, others⟩ := List.forall_mem_cons.mp present
      rw [List.map_cons, WireFormat.decodeAll, Option.bind_eq_some_iff] at decoded
      obtain ⟨⟨field, middle⟩, first, decoded⟩ := decoded
      obtain ⟨⟨remaining, last⟩, later, same⟩ := Option.map_eq_some_iff.mp decoded
      cases same
      have found := readsAs valid here
      have head : Field.decode target.shape (reader.unread memory) = some (field, middle) := first
      rw [ReadsAs, head] at found
      obtain ⟨next, read, nextValid, -, rfl⟩ := found
      obtain ⟨last, reads, lastValid, left⟩ := ih nextValid others later
      exact ⟨last, .cons read reads, lastValid, left⟩

/-! ## There and back -/

/-- What has been written is read back, whatever the strings and blocks are read into,
and nothing is left. -/
theorem Writes.read_back (writes : Writes (.atStart .constructed) fields writer) {view : PacketView}
    (inside : view.Inside memory) (same : view.bytes memory = writer.written)
    (shapes : targets.map FieldTarget.shape = fields.map Field.shape)
    (present : ∀ target ∈ targets, target.Present) :
    ∃ last, Reads memory (.atStart view) targets fields last ∧ last.getRemainingBytes = 0 := by
  obtain ⟨admitted, -, written, -⟩ := writes.appends (PacketWriter.covered_atStart _)
  have unread : (PacketReader.atStart view).unread memory = fieldFormat.encodeAll fields ++ [] := by
    rw [List.append_nil]
    exact same.trans written
  have decoded := fieldFormat.decodeAll_encodeAll admitted []
  have layout : fields.map fieldFormat.shape = targets.map FieldTarget.shape := shapes.symm
  rw [layout, ← unread] at decoded
  obtain ⟨last, reads, valid, left⟩ :=
    reads_of_decodes (PacketReader.valid_atStart inside) present decoded
  refine ⟨last, reads, ?_⟩
  rw [← UInt64.toNat_inj, ← valid.length_unread, left]
  rfl

/-- What has been read is written again as the bytes it was read from. -/
theorem Reads.written_back {last : PacketReader} (valid : reader.Valid memory)
    (reads : Reads memory reader targets fields last)
    (writes : Writes (.atStart .constructed) fields writer) :
    writer.written =
      (reader.unread memory).take (last.offset.toNat - reader.offset.toNat) := by
  obtain ⟨-, -, written, -⟩ := writes.appends (PacketWriter.covered_atStart _)
  obtain ⟨decoded, lastValid, view⟩ := reads.decodes valid
  obtain ⟨-, -, consumed⟩ := fieldFormat.of_decodeAll decoded
  have length := congrArg List.length consumed
  rw [List.length_append, valid.length_unread, lastValid.length_unread,
    valid.toNat_getRemainingBytes, lastValid.toNat_getRemainingBytes, view] at length
  have bound := lastValid.offset_le
  rw [view] at bound
  have taken : last.offset.toNat - reader.offset.toNat = (fieldFormat.encodeAll fields).length := by
    have start := valid.offset_le
    omega
  rw [taken, consumed, List.take_left]
  exact written

/-- What is written is the fields in their format, one after the other, and later fields
leave the earlier ones alone. It is read back as the same fields with nothing left, and
what is read from any view is written as the bytes that were read. -/
theorem fields_round_trip :
    (∀ (fields : List Field) (writer : PacketWriter), Writes (.atStart .constructed) fields writer →
      writer.written = fieldFormat.encodeAll fields ∧
      writer.offset.toNat = (fieldFormat.encodeAll fields).length ∧
      (∀ before later, fields = before ++ later →
        ∃ middle, Writes (.atStart .constructed) before middle ∧ Writes middle later writer ∧
          middle.written <+: writer.written) ∧
      ∀ (memory : ByteString) (view : PacketView) (targets : List FieldTarget),
        view.Inside memory → view.bytes memory = writer.written →
        targets.map FieldTarget.shape = fields.map Field.shape →
        (∀ target ∈ targets, target.Present) →
          ∃ last, Reads memory (.atStart view) targets fields last ∧ last.getRemainingBytes = 0) ∧
    ∀ (memory : ByteString) (reader last : PacketReader) (targets : List FieldTarget)
      (fields : List Field) (writer : PacketWriter), reader.Valid memory →
      Reads memory reader targets fields last → Writes (.atStart .constructed) fields writer →
        writer.written =
          (reader.unread memory).take (last.offset.toNat - reader.offset.toNat) := by
  refine ⟨fun fields writer writes => ?_, fun _ _ _ _ _ _ valid reads => reads.written_back valid⟩
  obtain ⟨-, -, written, offset⟩ := writes.appends (PacketWriter.covered_atStart _)
  refine ⟨written, ?_, ?_, fun _ _ _ inside same shapes present =>
    writes.read_back inside same shapes present⟩
  · rw [offset]
    exact Nat.zero_add _
  · rintro before later rfl
    obtain ⟨middle, front, back⟩ := writes.split
    obtain ⟨-, covered, -, -⟩ := front.appends (PacketWriter.covered_atStart _)
    obtain ⟨-, -, extended, -⟩ := back.appends covered
    exact ⟨middle, front, back, extended ▸ List.prefix_append ..⟩

/-- A byte, a string of one byte and an empty block, which is read to null. -/
theorem fields_round_trip_of_three :
    ∃ last, Reads ⟨[7, 1, 0, 0, 0, 65], by decide⟩ (.atStart (.whole ⟨[7, 1, 0, 0, 0, 65], by decide⟩))
        [.primitive 1, .string .empty, .block none 0]
        [.primitive ⟨[7], by decide⟩, .string ⟨[65], by decide⟩, .block .empty] last ∧
      last.getRemainingBytes = 0 ∧
      List.take last.offset.toNat [7, 1, 0, 0, 0, 65] = ([7, 1, 0, 0, 0, 65] : List UInt8) := by
  have first : writeField (.atStart .constructed) (.primitive ⟨[7], by decide⟩) =
      .ok (true, (PacketWriter.atStart .constructed).appended [7] (by decide)) := rfl
  have second : writeField ((PacketWriter.atStart .constructed).appended [7] (by decide))
      (.string ⟨[65], by decide⟩) =
        .ok (true, (PacketWriter.atStart .constructed).appended [7, 1, 0, 0, 0, 65] (by decide)) := rfl
  have writes := Writes.cons first (.cons second (.cons rfl .nil) : Writes _ [_, .block .empty] _)
  have inside := PacketView.inside_whole ⟨[7, 1, 0, 0, 0, 65], by decide⟩
  obtain ⟨last, reads, left⟩ := (fields_round_trip.1 _ _ writes).2.2.2 _ _
    [.primitive 1, .string .empty, .block none 0] inside rfl rfl
    (by simp [FieldTarget.Present])
  have same := fields_round_trip.2 _ _ _ _ _ _ (PacketReader.valid_atStart inside) reads writes
  exact ⟨last, reads, left, same.symm⟩

end MmoServer.Serialization
