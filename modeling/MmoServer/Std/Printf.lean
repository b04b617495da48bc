import Mathlib.Data.List.TakeWhile

/-!
# snprintf

A format is the list of its pieces, each with the argument that it takes. `snprintf` prints
them one after the other, keeps what fits in front of the NUL of its buffer, and returns the
length of the whole; it fails where an `int` cannot hold that.

A printed byte is a digit, a minus sign, a character of the format or one of a string
argument (`mem_printed`), so what a format and its strings leave out is not printed.
-/

namespace MmoServer.Std

/-- The largest `int`. -/
abbrev INT_MAX : Nat := 2147483647

/-- A conversion of a format, with its argument. -/
inductive Piece where
  /-- A character of the format. -/
  | char (byte : UInt8)
  /-- `%d`, `%u` or `%0*d`, which has zeros behind the sign up to its width. -/
  | decimal (width : Nat) (value : Int)
  /-- `%.*s` with the length of the string as precision; it ends in front of a NUL. -/
  | string (bytes : List UInt8)

/-- The decimal digits of a number. -/
def digits (value : Nat) : List UInt8 :=
  (Nat.toDigits 10 value).map fun digit => UInt8.ofNat digit.toNat

namespace Piece

abbrev zero : UInt8 := 0x30
abbrev nine : UInt8 := 0x39
abbrev minus : UInt8 := 0x2D

/-- What a conversion prints. -/
def bytes : Piece → List UInt8
  | .char byte => [byte]
  | .decimal width value =>
    let sign := if value < 0 then [minus] else []
    let number := digits value.natAbs
    sign ++ List.replicate (width - sign.length - number.length) zero ++ number
  | .string bytes => bytes.takeWhile (· ≠ 0)

end Piece

/-- What the pieces print, uncut. -/
def printed (pieces : List Piece) : List UInt8 := pieces.flatMap Piece.bytes

/-- The result, `none` for a negative one, and the text in front of the NUL. -/
def snprintf (size : Nat) (pieces : List Piece) : Option Nat × List UInt8 :=
  (if (printed pieces).length ≤ INT_MAX then some (printed pieces).length else none,
    (printed pieces).take (size - 1))

variable {byte : UInt8} {piece : Piece} {pieces : List Piece} {value : Nat}

theorem digit_of_mem_digits (member : byte ∈ digits value) : Piece.zero ≤ byte ∧ byte ≤ Piece.nine := by
  obtain ⟨digit, listed, rfl⟩ := List.mem_map.mp member
  have isDigit := Nat.isDigit_of_mem_toDigits (by decide) (by decide) listed
  have bounds : 48 ≤ digit.toNat ∧ digit.toNat ≤ 57 := by
    simpa [Char.isDigit, UInt32.le_iff_toNat_le] using isDigit
  have small : (UInt8.ofNat digit.toNat).toNat = digit.toNat :=
    (UInt8.toNat_ofNat' ..).trans (Nat.mod_eq_of_lt (by omega))
  rw [UInt8.le_iff_toNat_le, UInt8.le_iff_toNat_le, small]
  exact bounds

/-- Where a printed byte comes from. -/
theorem Piece.mem_bytes (member : byte ∈ piece.bytes) : (zero ≤ byte ∧ byte ≤ nine) ∨ byte = minus ∨
    piece = .char byte ∨ ∃ text, piece = .string text ∧ byte ∈ text ∧ byte ≠ 0 := by
  cases piece with
  | char own =>
      rw [List.mem_singleton.mp member]
      exact .inr (.inr (.inl rfl))
  | decimal width value =>
      rw [bytes, List.mem_append, List.mem_append] at member
      rcases member with (sign | padding) | number
      · split at sign
        · exact .inr (.inl (List.mem_singleton.mp sign))
        · cases sign
      · rw [(List.mem_replicate.mp padding).2]
        exact .inl (by decide)
      · exact .inl (digit_of_mem_digits number)
  | string text =>
      have inside := List.takeWhile_sublist _ |>.subset member
      have nonzero := List.mem_takeWhile_imp member
      exact .inr (.inr (.inr ⟨text, rfl, inside, by simpa using nonzero⟩))

theorem mem_printed (member : byte ∈ printed pieces) :
    (Piece.zero ≤ byte ∧ byte ≤ Piece.nine) ∨ byte = Piece.minus ∨ .char byte ∈ pieces ∨
      ∃ text, .string text ∈ pieces ∧ byte ∈ text ∧ byte ≠ 0 := by
  obtain ⟨piece, listed, inside⟩ := List.mem_flatMap.mp member
  rcases piece.mem_bytes inside with digit | minus | rfl | ⟨text, rfl, part, nonzero⟩
  · exact .inl digit
  · exact .inr (.inl minus)
  · exact .inr (.inr (.inl listed))
  · exact .inr (.inr (.inr ⟨text, listed, part, nonzero⟩))

example : printed [.decimal 4 (-7), .char 0x20, .decimal 0 12, .string [65, 0, 66]] =
    [45, 48, 48, 55, 32, 49, 50, 65] := by decide

end MmoServer.Std
