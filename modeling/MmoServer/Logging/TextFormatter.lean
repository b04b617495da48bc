import MmoServer.Std.Printf

/-!
# TextFormatter

A line of the log is a date, the time to the millisecond, the thread and the level, and then
the message. Format writes it into a buffer that its caller gives it and cuts it where the
buffer ends.

A message of one line makes a line (`newline_not_mem_format`).
-/

namespace MmoServer.Logging

open MmoServer.Std

/-- The bytes of a `std::string_view`. -/
abbrev ByteString := List UInt8

/-- The levels in ascending order. -/
inductive LogLevel where
  | trace
  | debug
  | info
  | warn
  | error
  | fatal
deriving DecidableEq

/-- The underlying value of the enumerator. -/
def LogLevel.value : LogLevel → Nat
  | .trace => 0
  | .debug => 1
  | .info => 2
  | .warn => 3
  | .error => 4
  | .fatal => 5

instance : LT LogLevel := ⟨fun level other => level.value < other.value⟩

instance (level other : LogLevel) : Decidable (level < other) :=
  inferInstanceAs (Decidable (level.value < other.value))

/-- A message whose size can be the precision of a conversion. -/
abbrev LogMessage := { bytes : ByteString // bytes.length ≤ INT_MAX }

/-- What Log hands to the sinks. -/
structure LogRecord where
  timestamp : UInt64 := 0
  threadId : UInt32 := 0
  level : LogLevel := .info
  message : LogMessage := ⟨[], by decide⟩
deriving DecidableEq

/-- The broken-down time. -/
structure Tm where
  tm_sec : Int := 0
  tm_min : Int := 0
  tm_hour : Int := 0
  tm_mday : Int := 0
  tm_mon : Int := 0
  tm_year : Int := 0

namespace TextFormatter

abbrev newline : UInt8 := 0x0A
abbrev space : UInt8 := 0x20
abbrev hyphen : UInt8 := 0x2D
abbrev dot : UInt8 := 0x2E
abbrev colon : UInt8 := 0x3A
abbrev letterT : UInt8 := 0x54
abbrev bracketOpen : UInt8 := 0x5B
abbrev bracketClose : UInt8 := 0x5D

variable (localtime : UInt64 → Option Tm)

/-- The format `%04d-%02d-%02d %02d:%02d:%02d.%03d [T%u] [%d] %.*s` with its arguments. The
time zone is that of the process; where `localtime_r` fails, the time stays zero. -/
def pieces (record : LogRecord) : List Piece :=
  let tm := (localtime (record.timestamp / 1000)).getD {}
  let ms := (record.timestamp % 1000).toNat
  [.decimal 4 (tm.tm_year + 1900), .char hyphen, .decimal 2 (tm.tm_mon + 1), .char hyphen,
    .decimal 2 tm.tm_mday, .char space, .decimal 2 tm.tm_hour, .char colon, .decimal 2 tm.tm_min,
    .char colon, .decimal 2 tm.tm_sec, .char dot, .decimal 3 ms, .char space,
    .char bracketOpen, .char letterT, .decimal 0 record.threadId.toNat, .char bracketClose,
    .char space, .char bracketOpen, .decimal 0 record.level.value, .char bracketClose, .char space,
    .string record.message.1]

/-- The line of a record, uncut. -/
def text (record : LogRecord) : ByteString := printed (pieces localtime record)

/-- TextFormatter::Format, for a buffer that is there. -/
def format (record : LogRecord) (bufferSize : Nat) : ByteString :=
  if bufferSize = 0 then []
  else
    match snprintf bufferSize (pieces localtime record) with
    | (none, _) => []
    | (some written, buffer) =>
      if bufferSize ≤ written then buffer.take (bufferSize - 1) else buffer.take written

variable {localtime} {record : LogRecord} {bufferSize : Nat} {byte : UInt8}

/-- The buffer has what fits, unless the line is too long for its length to be told. -/
theorem format_eq : format localtime record bufferSize =
    if (text localtime record).length ≤ INT_MAX then (text localtime record).take (bufferSize - 1)
    else [] := by
  by_cases room : bufferSize = 0
  · simp [format, room]
  · rw [format, if_neg room, snprintf, ← text]
    split
    · next told =>
      split at told
      · cases told
      · next long =>
        rw [if_neg long]
    · next written buffer told =>
      split at told
      · next short =>
        cases told
        rw [if_pos short, List.take_take, List.take_take]
        split
        · rw [Nat.min_self]
        · next fits =>
          rw [List.take_of_length_le (by omega), List.take_of_length_le (by omega)]
      · cases told

theorem length_format_le : (format localtime record bufferSize).length ≤ bufferSize - 1 := by
  rw [format_eq]
  split
  · exact List.length_take_le _ _
  · exact Nat.zero_le _

theorem mem_text_of_mem_format (member : byte ∈ format localtime record bufferSize) :
    byte ∈ text localtime record := by
  rw [format_eq] at member
  split at member
  · exact List.mem_of_mem_take member
  · cases member

/-- The bytes of a line are printed ones and those of the message. -/
theorem mem_text (member : byte ∈ text localtime record) :
    space ≤ byte ∨ byte ∈ record.message.1 := by
  rcases mem_printed member with digit | rfl | listed | ⟨text, listed, inside, -⟩
  · exact .inl (UInt8.le_trans (by decide) digit.1)
  · exact .inl (by decide)
  · simp only [pieces, List.mem_cons, Piece.char.injEq, reduceCtorEq, List.not_mem_nil, false_or,
      or_false] at listed
    exact .inl (by rcases listed with rfl | rfl | rfl | rfl | rfl | rfl | rfl | rfl | rfl | rfl | rfl |
      rfl | rfl | rfl | rfl <;> decide)
  · simp only [pieces, List.mem_cons, Piece.string.injEq, reduceCtorEq, List.not_mem_nil, false_or,
      or_false] at listed
    exact .inr (listed ▸ inside)

/-- A line has a newline only from its message. -/
theorem newline_not_mem_format (oneLine : newline ∉ record.message.1) :
    newline ∉ format localtime record bufferSize := by
  intro member
  rcases mem_text (mem_text_of_mem_format member) with visible | inside
  · exact absurd visible (by decide)
  · exact oneLine inside

end TextFormatter
end MmoServer.Logging
