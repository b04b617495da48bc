import Mathlib.Algebra.Group.Nat.Defs
import MmoServer.Std.Region

/-!
# Packet buffers

`std::size_t` is `UInt64`, whose sums wrap around. An operation that throws or
copies outside an object ends in a `Fault`; everything else returns.
-/

namespace MmoServer.Packet

open MmoServer.Std

/-- The size of every packet buffer. -/
abbrev kMaxPacketSize : Nat := 64 * 1024

/-- How an operation on bytes can fail other than by returning false. -/
inductive Fault where
  /-- `std::length_error`. -/
  | lengthError
  /-- A copy from or to bytes that are not there, which is undefined. -/
  | outOfBounds
deriving DecidableEq

/-- The bytes of an object; their number is a `std::size_t`. -/
@[ext] structure ByteString where
  bytes : List UInt8
  length_lt : bytes.length < 2 ^ 64
deriving DecidableEq

namespace ByteString

/-- `size()`, a 64-bit number. -/
def size (string : ByteString) : UInt64 := UInt64.ofNat string.bytes.length

@[simp] theorem toNat_size (string : ByteString) : string.size.toNat = string.bytes.length := by
  rw [size, UInt64.toNat_ofNat']
  exact Nat.mod_eq_of_lt string.length_lt

/-- Only the empty string has size zero. -/
theorem size_eq_zero_iff {string : ByteString} : string.size = 0 ↔ string.bytes = [] := by
  rw [← UInt64.toNat_inj, toNat_size, UInt64.toNat_zero, List.length_eq_zero_iff]

def empty : ByteString := ⟨[], by decide⟩

/-- A string of one byte, repeated. -/
def replicate (count : Nat) (byte : UInt8) (small : count < 2 ^ 64) : ByteString where
  bytes := List.replicate count byte
  length_lt := by
    rw [List.length_replicate]
    exact small

@[simp] theorem length_replicate {count : Nat} {byte : UInt8} (small : count < 2 ^ 64) :
    (replicate count byte small).bytes.length = count := List.length_replicate

/-- The `count` bytes from `start` on, if they are all there. -/
def read? (string : ByteString) (start : Nat) (count : UInt64) : Option ByteString :=
  if start + count.toNat ≤ string.bytes.length then
    some
      { bytes := (string.bytes.drop start).take count.toNat
        length_lt := Nat.lt_of_le_of_lt (List.length_take_le ..) count.toNat_lt }
  else none

/-- A read inside the string gives its bytes. -/
theorem read?_eq_some {string : ByteString} {start : Nat} {count : UInt64}
    (inside : start + count.toNat ≤ string.bytes.length) :
    ∃ bytes, string.read? start count = some bytes ∧
      bytes.bytes = (string.bytes.drop start).take count.toNat := ⟨_, if_pos inside, rfl⟩

end ByteString

/-- `m_buffer`, which no operation grows beyond the limit. -/
@[ext] structure PacketBuffer where
  bytes : List UInt8
  length_le : bytes.length ≤ kMaxPacketSize
deriving DecidableEq

namespace PacketBuffer

variable {buffer : PacketBuffer} {offset count : UInt64} {source : List UInt8}

/-- PacketBuffer::PacketBuffer. -/
def constructed : PacketBuffer := ⟨[], by decide⟩

/-- PacketBuffer::Size. -/
def size (buffer : PacketBuffer) : UInt64 := UInt64.ofNat buffer.bytes.length

/-- PacketBuffer::Resize; new bytes are zero. -/
def resize (buffer : PacketBuffer) (size : UInt64) : Except Fault PacketBuffer :=
  if fits : size.toNat ≤ kMaxPacketSize then
    .ok
      { bytes := Region.grow (buffer.bytes.take size.toNat) size.toNat 0
        length_le := by
          rw [Region.length_grow, List.length_take]
          omega }
  else .error .lengthError

/-- `std::memcpy(m_buffer.Data() + offset, source, size)`. -/
def copyIn (buffer : PacketBuffer) (offset size : UInt64) (source : List UInt8) :
    Except Fault PacketBuffer :=
  if inside : offset.toNat + size.toNat ≤ buffer.bytes.length ∧ size.toNat ≤ source.length then
    .ok
      { bytes := Region.write buffer.bytes offset.toNat (source.take size.toNat)
        length_le := by
          rw [Region.length_write]
          · exact buffer.length_le
          · rw [List.length_take, Nat.min_eq_left inside.2]
            exact inside.1 }
  else .error .outOfBounds

@[simp] theorem toNat_size (buffer : PacketBuffer) : buffer.size.toNat = buffer.bytes.length := by
  rw [size, UInt64.toNat_ofNat']
  exact Nat.mod_eq_of_lt (Nat.lt_of_le_of_lt buffer.length_le (by decide))

/-- Enlarging a buffer within the limit keeps its bytes. -/
theorem resize_of_le (large : buffer.bytes.length ≤ count.toNat) (fits : count.toNat ≤ kMaxPacketSize) :
    ∃ after, buffer.resize count = .ok after ∧
      after.bytes = Region.grow buffer.bytes count.toNat 0 := by
  refine ⟨_, dif_pos fits, ?_⟩
  dsimp only
  rw [List.take_of_length_le large]

/-- A copy into the buffer overwrites its region. -/
theorem copyIn_of_inside (room : offset.toNat + count.toNat ≤ buffer.bytes.length)
    (enough : count.toNat ≤ source.length) :
    ∃ after, buffer.copyIn offset count source = .ok after ∧
      after.bytes = Region.write buffer.bytes offset.toNat (source.take count.toNat) :=
  ⟨_, dif_pos ⟨room, enough⟩, rfl⟩

/-- A copy beyond the buffer is undefined. -/
theorem copyIn_of_outside (outside : buffer.bytes.length < offset.toNat + count.toNat) :
    buffer.copyIn offset count source = .error .outOfBounds :=
  dif_neg fun inside => Nat.not_le.mpr outside inside.1

end PacketBuffer
end MmoServer.Packet
