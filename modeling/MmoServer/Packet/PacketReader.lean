import MmoServer.Packet.PacketBuffer
import MmoServer.Std.LittleEndian

/-!
# PacketView and PacketReader

A view borrows bytes that someone else owns, here `memory`; addresses are relative
to its first byte. A copy that leaves `memory` is a fault, so a reader that never
faults over a view of all of `memory` copies only bytes inside that view.
-/

namespace MmoServer.Packet

open MmoServer.Std

/-- An address, or null. -/
abbrev Pointer := Option Nat

/-- A pointer, and how many bytes the view says are behind it. -/
structure PacketView where
  data : Pointer
  size : UInt64
deriving DecidableEq

namespace PacketView

/-- `PacketView(nullptr, 0)`. -/
def null : PacketView := ⟨none, 0⟩

/-- The view of all borrowed bytes. -/
def whole (memory : ByteString) : PacketView := ⟨some 0, memory.size⟩

/-- PacketView::SubView. -/
def subView (view : PacketView) (offset size : UInt64) : PacketView :=
  if view.size < offset then null
  else
    let remaining := view.size - offset
    if remaining < size then null
    else { data := view.data.map (· + offset.toNat), size }

/-- `std::memcpy(dst, m_data + offset, size)`. -/
def copyOut (memory : ByteString) (view : PacketView) (offset size : UInt64) :
    Except Fault ByteString :=
  if size = 0 then .ok .empty
  else
    match view.data with
    | none => .error .outOfBounds
    | some address =>
      match memory.read? (address + offset.toNat) size with
      | none => .error .outOfBounds
      | some bytes => .ok bytes

end PacketView

/-- A view, and how far it has been read. -/
structure PacketReader where
  view : PacketView
  offset : UInt64
deriving DecidableEq

/-- The length in the first four bytes. -/
def lengthOf (bytes : List UInt8) : UInt32 := UInt32.ofNat (ofLittleEndian (bytes.take 4))

/-- What a call answers, what it leaves in its argument and in the reader. -/
structure ReadResult (Value : Type) where
  returned : Bool
  value : Value
  reader : PacketReader

namespace PacketReader

/-- PacketReader::PacketReader. -/
def atStart (view : PacketView) : PacketReader := ⟨view, 0⟩

/-- PacketReader::GetRemainingBytes. -/
def getRemainingBytes (reader : PacketReader) : UInt64 := reader.view.size - reader.offset

/-- PacketReader::ReadBytes; the value is what was copied to `dst`. -/
def readBytes (memory : ByteString) (reader : PacketReader) (dst : Pointer) (size : UInt64) :
    Except Fault (ReadResult (Option ByteString)) :=
  if dst = none ∨ size = 0 then .ok { returned := false, value := none, reader }
  else if reader.getRemainingBytes < size then .ok { returned := false, value := none, reader }
  else
    (reader.view.copyOut memory reader.offset size).map fun bytes =>
      { returned := true
        value := some bytes
        reader := { reader with offset := reader.offset + size } }

/-- The address of a variable. -/
def addressOf : Pointer := some 0

/-- `Read(length)` of a 32-bit length that is zero before the call. -/
def readLength (memory : ByteString) (reader : PacketReader) :
    Except Fault (ReadResult UInt32) :=
  (reader.readBytes memory addressOf 4).map fun result =>
    { returned := result.returned
      value := lengthOf ((result.value.getD .empty).bytes)
      reader := result.reader }

/-- PacketReader::ReadString; the value is what `str` holds after the call. -/
def readString (memory : ByteString) (reader : PacketReader) (str : ByteString) :
    Except Fault (ReadResult ByteString) :=
  (reader.readLength memory).bind fun read =>
    if read.returned = false then .ok { returned := false, value := str, reader := read.reader }
    else
      let length := read.value.toUInt64
      if read.reader.getRemainingBytes < length then
        .ok
          { returned := false
            value := str
            reader := { read.reader with offset := reader.offset } }
      else
        (read.reader.view.copyOut memory read.reader.offset length).map fun bytes =>
          { returned := true
            value := bytes
            reader := { read.reader with offset := read.reader.offset + length } }

end PacketReader

namespace PacketView

variable {memory : ByteString} {view : PacketView} {offset size : UInt64}

/-- The bytes of a view. -/
def bytes (memory : ByteString) (view : PacketView) : List UInt8 :=
  match view.data with
  | none => []
  | some address => (memory.bytes.drop address).take view.size.toNat

/-- The view lies inside the borrowed bytes. -/
def Inside (memory : ByteString) (view : PacketView) : Prop :=
  match view.data with
  | none => view.size = 0
  | some address => address + view.size.toNat ≤ memory.bytes.length

@[simp] theorem inside_null_data : Inside memory ⟨none, size⟩ ↔ size = 0 := Iff.rfl

@[simp] theorem inside_some_data {address : Nat} :
    Inside memory ⟨some address, size⟩ ↔ address + size.toNat ≤ memory.bytes.length := Iff.rfl

@[simp] theorem bytes_some_data {address : Nat} :
    bytes memory ⟨some address, size⟩ = (memory.bytes.drop address).take size.toNat := rfl

/-- The view of the whole memory lies inside it. -/
theorem inside_whole (memory : ByteString) : (whole memory).Inside memory := by
  rw [whole, inside_some_data, Nat.zero_add, ByteString.toNat_size]

/-- A view that lies inside the memory has all its bytes. -/
theorem Inside.length_bytes (inside : view.Inside memory) :
    (view.bytes memory).length = view.size.toNat := by
  obtain ⟨_ | address, size⟩ := view
  · obtain rfl := inside_null_data.mp inside
    rfl
  · rw [inside_some_data] at inside
    rw [bytes_some_data, List.length_take, List.length_drop]
    exact Nat.min_eq_left (by omega)

/-- A sub-view lies inside what the view lies inside. -/
theorem Inside.subView (inside : view.Inside memory) (offset size : UInt64) :
    (view.subView offset size).Inside memory := by
  rw [PacketView.subView]
  dsimp only
  split
  · exact rfl
  · next within =>
    split
    · exact rfl
    · next fits =>
      rw [UInt64.lt_iff_toNat_lt, Nat.not_lt,
        UInt64.toNat_sub_of_le _ _ (UInt64.not_lt.mp within)] at fits
      rw [UInt64.lt_iff_toNat_lt, Nat.not_lt] at within
      obtain ⟨_ | address, whole⟩ := view
      · obtain rfl := inside_null_data.mp inside
        exact inside_null_data.mpr (UInt64.toNat_inj.mp (Nat.le_zero.mp
          (Nat.le_trans fits (Nat.sub_le ..))))
      · rw [inside_some_data] at inside
        dsimp only at fits within
        have moved : address + offset.toNat + size.toNat ≤ memory.bytes.length := by
          omega
        exact moved

/-- A copy from inside the view. -/
theorem Inside.copyOut (inside : view.Inside memory)
    (enough : offset.toNat + size.toNat ≤ view.size.toNat) :
    ∃ copied, view.copyOut memory offset size = .ok copied ∧
      copied.bytes = ((view.bytes memory).drop offset.toNat).take size.toNat := by
  by_cases empty : size = 0
  · refine ⟨.empty, if_pos empty, ?_⟩
    rw [empty]
    rfl
  obtain ⟨_ | address, whole⟩ := view
  · obtain rfl := inside_null_data.mp inside
    have zero : size.toNat = 0 := Nat.le_zero.mp (Nat.le_trans (Nat.le_add_left ..) enough)
    exact absurd (UInt64.toNat_inj.mp zero) empty
  · rw [inside_some_data] at inside
    dsimp only at enough
    obtain ⟨copied, found, same⟩ : ∃ copied,
        memory.read? (address + offset.toNat) size = some copied ∧ _ :=
      ByteString.read?_eq_some (by omega)
    refine ⟨copied, ?_, ?_⟩
    · rw [PacketView.copyOut, if_neg empty]
      dsimp only
      rw [found]
    · rw [same, bytes_some_data, List.drop_take, List.take_take, List.drop_drop,
        Nat.min_eq_left (by omega)]

end PacketView

namespace PacketReader

variable {memory str : ByteString} {reader : PacketReader} {dst : Pointer} {size : UInt64}

/-- The view lies inside the borrowed bytes, and the offset inside the view. -/
structure Valid (memory : ByteString) (reader : PacketReader) : Prop where
  inside : reader.view.Inside memory
  offset_le : reader.offset.toNat ≤ reader.view.size.toNat

/-- The bytes that have not been read. -/
def unread (memory : ByteString) (reader : PacketReader) : List UInt8 :=
  (reader.view.bytes memory).drop reader.offset.toNat

/-- The reader after some bytes have been read. -/
def advanced (reader : PacketReader) (size : UInt64) : PacketReader :=
  { reader with offset := reader.offset + size }

/-- A new reader on such a view is valid. -/
theorem valid_atStart {view : PacketView} (inside : view.Inside memory) : (atStart view).Valid memory :=
  ⟨inside, Nat.zero_le _⟩

/-- The subtraction of GetRemainingBytes does not wrap. -/
theorem Valid.toNat_getRemainingBytes (valid : reader.Valid memory) :
    reader.getRemainingBytes.toNat = reader.view.size.toNat - reader.offset.toNat :=
  UInt64.toNat_sub_of_le _ _ (UInt64.le_iff_toNat_le.mpr valid.offset_le)

/-- So many bytes are left as GetRemainingBytes says. -/
theorem Valid.length_unread (valid : reader.Valid memory) :
    (reader.unread memory).length = reader.getRemainingBytes.toNat := by
  rw [unread, List.length_drop, valid.inside.length_bytes, valid.toNat_getRemainingBytes]

/-- A step over bytes that are there does not wrap. -/
theorem Valid.toNat_offset_advanced (valid : reader.Valid memory)
    (enough : size.toNat ≤ (reader.unread memory).length) :
    (reader.advanced size).offset.toNat = reader.offset.toNat + size.toNat := by
  rw [valid.length_unread, valid.toNat_getRemainingBytes] at enough
  have bound := valid.offset_le
  have below := reader.view.size.toNat_lt
  rw [advanced, UInt64.toNat_add]
  exact Nat.mod_eq_of_lt (by omega)

/-- Nor does it leave the view. -/
theorem Valid.advanced (valid : reader.Valid memory)
    (enough : size.toNat ≤ (reader.unread memory).length) :
    (reader.advanced size).Valid memory := by
  refine ⟨valid.inside, ?_⟩
  rw [valid.toNat_offset_advanced enough]
  rw [valid.length_unread, valid.toNat_getRemainingBytes] at enough
  have bound := valid.offset_le
  have same : (reader.advanced size).view = reader.view := rfl
  rw [same]
  omega

/-- What is left then is what lies behind. -/
theorem Valid.unread_advanced (valid : reader.Valid memory)
    (enough : size.toNat ≤ (reader.unread memory).length) :
    (reader.advanced size).unread memory = (reader.unread memory).drop size.toNat := by
  rw [unread, valid.toNat_offset_advanced enough, unread, List.drop_drop]
  rfl

/-- A copy of bytes that have not been read. -/
theorem Valid.copyOut (valid : reader.Valid memory)
    (enough : size.toNat ≤ (reader.unread memory).length) :
    ∃ copied, reader.view.copyOut memory reader.offset size = .ok copied ∧
      copied.bytes = (reader.unread memory).take size.toNat := by
  apply valid.inside.copyOut
  rw [valid.length_unread, valid.toNat_getRemainingBytes] at enough
  have bound := valid.offset_le
  omega

/-! ## What the calls answer -/

/-- ReadBytes refuses a null destination and a size of zero. -/
theorem readBytes_refused (refused : dst = none ∨ size = 0) :
    reader.readBytes memory dst size = .ok { returned := false, value := none, reader } :=
  if_pos refused

/-- ReadBytes of more than is left changes nothing. -/
theorem Valid.readBytes_of_short (valid : reader.Valid memory)
    (short : (reader.unread memory).length < size.toNat) :
    reader.readBytes memory dst size = .ok { returned := false, value := none, reader } := by
  rw [valid.length_unread] at short
  rw [readBytes]
  split
  · rfl
  · exact if_pos (UInt64.lt_iff_toNat_lt.mpr short)

/-- ReadBytes of what is there copies exactly that. -/
theorem Valid.readBytes_of_enough (valid : reader.Valid memory) (present : dst ≠ none)
    (positive : size ≠ 0) (enough : size.toNat ≤ (reader.unread memory).length) :
    ∃ copied, reader.readBytes memory dst size =
        .ok { returned := true, value := some copied, reader := reader.advanced size } ∧
      copied.bytes = (reader.unread memory).take size.toNat := by
  obtain ⟨copied, done, same⟩ := valid.copyOut enough
  refine ⟨copied, ?_, same⟩
  rw [valid.length_unread] at enough
  rw [readBytes, if_neg (not_or.mpr ⟨present, positive⟩), if_neg, done]
  · rfl
  · rw [UInt64.lt_iff_toNat_lt]
    exact Nat.not_lt.mpr enough

/-- A length of which bytes are missing is not read. -/
theorem Valid.readLength_of_short (valid : reader.Valid memory)
    (short : (reader.unread memory).length < 4) :
    reader.readLength memory = .ok { returned := false, value := 0, reader } := by
  have refused : reader.readBytes memory addressOf 4 =
      .ok { returned := false, value := none, reader } := valid.readBytes_of_short short
  rw [readLength, refused]
  rfl

/-- Otherwise it is that of the next four bytes. -/
theorem Valid.readLength_of_enough (valid : reader.Valid memory)
    (enough : 4 ≤ (reader.unread memory).length) :
    reader.readLength memory =
      .ok
        { returned := true
          value := lengthOf (reader.unread memory)
          reader := reader.advanced 4 } := by
  obtain ⟨copied, done, same⟩ : ∃ copied, reader.readBytes memory addressOf 4 = _ ∧ _ :=
    valid.readBytes_of_enough (by decide) (by decide) enough
  rw [readLength, done]
  dsimp only [Except.map, Option.getD_some]
  have four : (4 : UInt64).toNat = 4 := rfl
  rw [same, four, lengthOf, List.take_take]
  rfl

/-- A length is next, and a string of that length behind it. -/
def StringNext (memory : ByteString) (reader : PacketReader) : Prop :=
  4 + (lengthOf (reader.unread memory)).toNat ≤ (reader.unread memory).length

/-- The reader behind the string that is next. -/
def behindString (memory : ByteString) (reader : PacketReader) : PacketReader :=
  (reader.advanced 4).advanced (lengthOf (reader.unread memory)).toUInt64

/-- The reader behind a length. -/
theorem Valid.unread_behindLength (valid : reader.Valid memory)
    (enough : 4 ≤ (reader.unread memory).length) :
    (reader.advanced 4).Valid memory ∧
      (reader.advanced 4).unread memory = (reader.unread memory).drop 4 :=
  ⟨valid.advanced enough, valid.unread_advanced enough⟩

/-- Behind the length there are as many bytes as it says. -/
theorem Valid.enough_of_next (valid : reader.Valid memory) (next : reader.StringNext memory) :
    4 ≤ (reader.unread memory).length ∧
      (lengthOf (reader.unread memory)).toUInt64.toNat ≤
        ((reader.advanced 4).unread memory).length := by
  have enough : 4 ≤ (reader.unread memory).length := Nat.le_trans (Nat.le_add_right ..) next
  refine ⟨enough, ?_⟩
  rw [(valid.unread_behindLength enough).2, List.length_drop, UInt32.toNat_toUInt64]
  exact Nat.le_sub_of_add_le' next

/-- The reader behind a string. -/
theorem Valid.behindString (valid : reader.Valid memory) (next : reader.StringNext memory) :
    (reader.behindString memory).Valid memory ∧
      (reader.behindString memory).offset.toNat =
        reader.offset.toNat + (4 + (lengthOf (reader.unread memory)).toNat) ∧
      (reader.behindString memory).unread memory =
        (reader.unread memory).drop (4 + (lengthOf (reader.unread memory)).toNat) := by
  obtain ⟨enough, more⟩ := valid.enough_of_next next
  obtain ⟨behind, rest⟩ := valid.unread_behindLength enough
  have four : (reader.advanced 4).offset.toNat = reader.offset.toNat + 4 :=
    valid.toNat_offset_advanced enough
  refine ⟨behind.advanced more, ?_, ?_⟩
  · rw [PacketReader.behindString, behind.toNat_offset_advanced more, four,
      UInt32.toNat_toUInt64, Nat.add_assoc]
  · rw [PacketReader.behindString, behind.unread_advanced more, rest, List.drop_drop,
      UInt32.toNat_toUInt64]

/-- Where no string comes next, ReadString changes nothing. -/
theorem Valid.readString_of_not_next (valid : reader.Valid memory) (str : ByteString)
    (notNext : ¬ reader.StringNext memory) :
    reader.readString memory str = .ok { returned := false, value := str, reader } := by
  by_cases short : (reader.unread memory).length < 4
  · rw [readString, valid.readLength_of_short short]
    rfl
  · have enough := Nat.not_lt.mp short
    obtain ⟨behind, rest⟩ := valid.unread_behindLength enough
    rw [readString, valid.readLength_of_enough enough]
    dsimp only [Except.bind]
    rw [if_neg (by decide), if_pos]
    · rfl
    · rw [UInt64.lt_iff_toNat_lt, ← behind.length_unread, rest, List.length_drop,
        UInt32.toNat_toUInt64]
      rw [StringNext] at notNext
      omega

/-- Where one does, ReadString returns it and stands behind it. -/
theorem Valid.readString_of_next (valid : reader.Valid memory) (str : ByteString)
    (next : reader.StringNext memory) :
    ∃ value, reader.readString memory str =
        .ok { returned := true, value, reader := reader.behindString memory } ∧
      value.bytes = ((reader.unread memory).drop 4).take (lengthOf (reader.unread memory)).toNat := by
  obtain ⟨enough, more⟩ := valid.enough_of_next next
  obtain ⟨behind, rest⟩ := valid.unread_behindLength enough
  obtain ⟨value, done, same⟩ := behind.copyOut more
  refine ⟨value, ?_, ?_⟩
  · rw [readString, valid.readLength_of_enough enough]
    dsimp only [Except.bind]
    rw [if_neg (by decide), if_neg, done]
    · rfl
    · rw [UInt64.lt_iff_toNat_lt, ← behind.length_unread]
      exact Nat.not_lt.mpr more
  · rw [same, rest, UInt32.toNat_toUInt64]

/-! ## Sequences of calls -/

/-- A call of the reader. -/
inductive Call where
  /-- `Read` into a value of `width` bytes. -/
  | read (width : UInt64)
  | readBytes (dst : Pointer) (size : UInt64)
  | readString (str : ByteString)

/-- What one call did; `before` is the reader it was made on. -/
inductive Answer where
  | faulted
  | bytes (size : UInt64) (before : PacketReader) (result : ReadResult (Option ByteString))
  | string (str : ByteString) (before : PacketReader) (result : ReadResult ByteString)

/-- The reader after a read of bytes, with what it answered. -/
def Answer.ofBytes (reader : PacketReader) (size : UInt64) :
    Except Fault (ReadResult (Option ByteString)) → PacketReader × Answer
  | .error _ => (reader, .faulted)
  | .ok result => (result.reader, .bytes size reader result)

/-- The reader after a read of a string, with what it answered. -/
def Answer.ofString (reader : PacketReader) (str : ByteString) :
    Except Fault (ReadResult ByteString) → PacketReader × Answer
  | .error _ => (reader, .faulted)
  | .ok result => (result.reader, .string str reader result)

/-- One call, and the reader it leaves. -/
def call (memory : ByteString) (reader : PacketReader) : Call → PacketReader × Answer
  | .read width => Answer.ofBytes reader width (reader.readBytes memory addressOf width)
  | .readBytes dst size => Answer.ofBytes reader size (reader.readBytes memory dst size)
  | .readString str => Answer.ofString reader str (reader.readString memory str)

/-- Any number of calls, one after the other. -/
def calls (memory : ByteString) (reader : PacketReader) : List Call → PacketReader × List Answer
  | [] => (reader, [])
  | first :: rest =>
    let (after, answer) := reader.call memory first
    let (last, answers) := after.calls memory rest
    (last, answer :: answers)

/-- A call that returned true read the bytes at the offset and advanced the offset by as
many; a call that returned false changed nothing. No call left the borrowed bytes. -/
def Answer.Atomic (memory : ByteString) : Answer → Prop
  | .faulted => False
  | .bytes size before result =>
    if result.returned then
      ∃ copied, result.value = some copied ∧ copied.bytes.length = size.toNat ∧
        copied.bytes <+: before.unread memory ∧
        result.reader.offset.toNat = before.offset.toNat + size.toNat
    else result.value = none ∧ result.reader = before
  | .string str before result =>
    if result.returned then
      ∃ length : List UInt8, length.length = 4 ∧
        (lengthOf length).toNat = result.value.bytes.length ∧
        length ++ result.value.bytes <+: before.unread memory ∧
        result.reader.offset.toNat = before.offset.toNat + (4 + result.value.bytes.length)
    else result.value = str ∧ result.reader = before

/-- The length is in the first four bytes. -/
theorem lengthOf_take (bytes : List UInt8) : lengthOf (bytes.take 4) = lengthOf bytes := by
  rw [lengthOf, List.take_take, Nat.min_self, lengthOf]

/-- ReadBytes takes all or nothing, and stays in the view. -/
theorem Valid.readBytes_atomic (valid : reader.Valid memory) (dst : Pointer) (size : UInt64) :
    (Answer.ofBytes reader size (reader.readBytes memory dst size)).1.Valid memory ∧
      (Answer.ofBytes reader size (reader.readBytes memory dst size)).1.view = reader.view ∧
      (Answer.ofBytes reader size (reader.readBytes memory dst size)).2.Atomic memory := by
  by_cases refused : dst = none ∨ size = 0
  · rw [readBytes_refused refused]
    exact ⟨valid, rfl, rfl, rfl⟩
  · obtain ⟨present, positive⟩ := not_or.mp refused
    by_cases enough : size.toNat ≤ (reader.unread memory).length
    · obtain ⟨copied, done, same⟩ := valid.readBytes_of_enough present positive enough
      rw [done]
      refine ⟨valid.advanced enough, rfl, copied, rfl, ?_, ?_, valid.toNat_offset_advanced enough⟩
      · rw [same, List.length_take, Nat.min_eq_left enough]
      · rw [same]
        exact List.take_prefix ..
    · rw [valid.readBytes_of_short (Nat.not_le.mp enough)]
      exact ⟨valid, rfl, rfl, rfl⟩

/-- So does ReadString. -/
theorem Valid.readString_atomic (valid : reader.Valid memory) (str : ByteString) :
    (Answer.ofString reader str (reader.readString memory str)).1.Valid memory ∧
      (Answer.ofString reader str (reader.readString memory str)).1.view = reader.view ∧
      (Answer.ofString reader str (reader.readString memory str)).2.Atomic memory := by
  by_cases next : reader.StringNext memory
  · obtain ⟨value, done, same⟩ := valid.readString_of_next str next
    obtain ⟨behind, offset, -⟩ := valid.behindString next
    obtain ⟨enough, -⟩ := valid.enough_of_next next
    have length : value.bytes.length = (lengthOf (reader.unread memory)).toNat := by
      rw [StringNext] at next
      rw [same, List.length_take, List.length_drop]
      omega
    have whole : (reader.unread memory).take 4 ++ value.bytes =
        (reader.unread memory).take (4 + (lengthOf (reader.unread memory)).toNat) := by
      rw [same, List.take_add]
    rw [done]
    refine ⟨behind, rfl, (reader.unread memory).take 4, ?_, ?_, ?_, ?_⟩
    · rw [List.length_take, Nat.min_eq_left enough]
    · rw [lengthOf_take]
      exact length.symm
    · dsimp only
      rw [whole]
      exact List.take_prefix ..
    · dsimp only
      rw [offset, length]
  · rw [valid.readString_of_not_next str next]
    exact ⟨valid, rfl, rfl, rfl⟩

/-- One call keeps the offset inside the view and is atomic. -/
theorem Valid.call (valid : reader.Valid memory) (made : Call) :
    (reader.call memory made).1.Valid memory ∧
      (reader.call memory made).1.view = reader.view ∧
      (reader.call memory made).2.Atomic memory := by
  cases made with
  | read width => exact valid.readBytes_atomic addressOf width
  | readBytes dst size => exact valid.readBytes_atomic dst size
  | readString str => exact valid.readString_atomic str

/-- A reader stays valid over any calls, each of which takes all or nothing. -/
theorem Valid.calls (valid : reader.Valid memory) (made : List Call) :
    (reader.calls memory made).1.Valid memory ∧
      (reader.calls memory made).1.view = reader.view ∧
      ∀ answer ∈ (reader.calls memory made).2, answer.Atomic memory := by
  induction made generalizing reader with
  | nil => exact ⟨valid, rfl, fun answer member => absurd member List.not_mem_nil⟩
  | cons first rest ih =>
      obtain ⟨after, view, atomic⟩ := valid.call first
      obtain ⟨last, same, all⟩ := ih after
      refine ⟨last, same.trans view, fun answer member => ?_⟩
      rcases List.mem_cons.mp member with rfl | later
      · exact atomic
      · exact all answer later

/-- A view cut out of another, any number of times. -/
def cut (view : PacketView) (cuts : List (UInt64 × UInt64)) : PacketView :=
  cuts.foldl (fun view cut => view.subView cut.1 cut.2) view

/-- The views that SubView cuts stay inside the memory. -/
theorem inside_cut {view : PacketView} (inside : view.Inside memory)
    (cuts : List (UInt64 × UInt64)) : (cut view cuts).Inside memory := by
  induction cuts generalizing view with
  | nil => exact inside
  | cons first rest ih => exact ih (inside.subView first.1 first.2)

/-- Over a view cut out of a view of all borrowed bytes, calls of the reader are atomic
and never leave those bytes, and the offset never passes the end of the view. -/
theorem reads_stay_inside (memory : ByteString) (cuts : List (UInt64 × UInt64))
    (made : List Call) :
    let view := cut (.whole memory) cuts
    let (reader, answers) := (atStart view).calls memory made
    reader.view = view ∧ reader.offset.toNat ≤ view.size.toNat ∧
      reader.getRemainingBytes.toNat = view.size.toNat - reader.offset.toNat ∧
      ∀ answer ∈ answers, answer.Atomic memory := by
  have inside := inside_cut (PacketView.inside_whole memory) cuts
  obtain ⟨valid, same, atomic⟩ := (valid_atStart inside).calls made
  have bound := valid.offset_le
  have remaining := valid.toNat_getRemainingBytes
  rw [same] at bound remaining
  exact ⟨same, bound, remaining, atomic⟩

end PacketReader
end MmoServer.Packet
