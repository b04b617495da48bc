import MmoServer.Std.Lines
import MmoServer.Std.Overwrite

/-!
# KeyValueConfigParser

A configuration file has one `key=value` a line; blank lines, lines that begin with
`#` and lines without a `=` are passed over. ParseFile writes what it reads into a map
that it is given.

`ConfigLine` is a line that a writer may lay out. Whatever such lines are rendered,
ParseFile reads back what they say: `parse_undoes_render`.
-/

namespace MmoServer.Config

open MmoServer.Std

/-- The bytes of a `std::string`. -/
abbrev ByteString := List UInt8

abbrev Path := ByteString
abbrev ConfigKey := ByteString

/-- A double is its 64 bits. -/
inductive ConfigValue where
  | boolean (value : Bool)
  | integer (value : Int64)
  | double (bits : UInt64)
  | string (value : ByteString)
deriving DecidableEq

/-- `std::unordered_map<ConfigKey, ConfigValue>`. -/
abbrev Storage := Finmap fun _ : ConfigKey => ConfigValue

/-- One complaint of ParseFile, with the place in the file. -/
structure ParseError where
  message : String
  file : ByteString
  line : Int32 := 0
deriving DecidableEq

/-- What ParseFile returns. -/
structure ParseResult where
  success : Bool := false
  errors : List ParseError := []
deriving DecidableEq

namespace KeyValueConfigParser

abbrev newline : UInt8 := 0x0A
abbrev hash : UInt8 := 0x23
abbrev equalsSign : UInt8 := 0x3D

/-- The entry that a line writes; `none` where the loop body continues. -/
def entry? (line : ByteString) : Option (ConfigKey × ByteString) :=
  if line.isEmpty ∨ line.head? = some hash then none
  else
    (line.findIdx? (· = equalsSign)).map fun pos => (line.take pos, line.drop (pos + 1))

/-- The body of the loop; the line number that it counts is not used. -/
def parseLine (out : Storage) (line : ByteString) : Storage :=
  match entry? line with
  | none => out
  | some (key, value) => out.insert key (.string value)

/-- The loop of ParseFile over the lines of a file. -/
def parseLines (content : ByteString) (out : Storage) : Storage :=
  (lines newline content).foldl parseLine out

/-- KeyValueConfigParser::ParseFile. A path that cannot be opened has no content. -/
def parseFile (files : Path → Option ByteString) (path : Path) (out : Storage) :
    ParseResult × Storage :=
  match files path with
  | none =>
    ({ success := false, errors := [{ message := "Cannot open target file", file := path }] }, out)
  | some content => ({ success := true }, parseLines content out)

variable {files : Path → Option ByteString} {path : Path} {out : Storage} {content : ByteString}
  {key value : ByteString}

/-- The loop takes a line with `getline` and goes on with the rest until there is none. -/
theorem parseLines_eq (content : ByteString) (out : Storage) : parseLines content out =
    match getline newline content with
    | none => out
    | some (line, rest) => parseLines rest (parseLine out line) := by
  rw [parseLines, lines_eq]
  cases getline newline content with
  | none => rfl
  | some taken => rfl

/-- What ParseFile writes into the map, in the order of the lines. -/
def writesOf (content : ByteString) : List (ConfigKey × ConfigValue) :=
  ((lines newline content).filterMap entry?).map fun entry => (entry.1, .string entry.2)

theorem foldl_parseLine (each : List ByteString) (out : Storage) : each.foldl parseLine out =
    overwrite out ((each.filterMap entry?).map fun entry => (entry.1, .string entry.2)) := by
  induction each generalizing out with
  | nil => rfl
  | cons line each ih =>
      rw [List.foldl_cons, ih, List.filterMap_cons, parseLine]
      cases entry? line with
      | none => rfl
      | some entry => rfl

theorem parseLines_eq_overwrite : parseLines content out = overwrite out (writesOf content) :=
  foldl_parseLine _ out

end KeyValueConfigParser

open KeyValueConfigParser

/-! ## Files that a writer lays out -/

/-- The text can stand in front of the `=` of a line. -/
structure IsKey (key : ByteString) : Prop where
  noEquals : equalsSign ∉ key
  oneLine : newline ∉ key
  notComment : key.head? ≠ some hash

/-- A line that a writer may lay out. -/
inductive ConfigLine where
  | blank
  | comment (text : ByteString) (oneLine : newline ∉ text)
  | entry (key value : ByteString) (isKey : IsKey key) (oneLine : newline ∉ value)

namespace ConfigLine

/-- The text of a line without its newline. -/
def bytes : ConfigLine → ByteString
  | .blank => []
  | .comment text _ => hash :: text
  | .entry key value _ _ => key ++ equalsSign :: value

/-- The pair that a line lays out. -/
def pair? : ConfigLine → Option (ConfigKey × ByteString)
  | .blank | .comment _ _ => none
  | .entry key value _ _ => some (key, value)

/-- The lines as a file, with or without a newline at its end. -/
def render (ended : Bool) (each : List ConfigLine) : ByteString :=
  unlines newline ended (each.map bytes)

/-- The pairs that a file lists. -/
def pairs (each : List ConfigLine) : List (ConfigKey × ByteString) := each.filterMap pair?

theorem newline_not_mem_bytes (line : ConfigLine) : newline ∉ line.bytes := by
  cases line with
  | blank => exact List.not_mem_nil
  | comment text oneLine => exact List.not_mem_cons_of_ne_of_not_mem (by decide) oneLine
  | entry key value isKey oneLine =>
      intro member
      rcases List.mem_append.mp member with inside | inside
      · exact isKey.oneLine inside
      · exact List.not_mem_cons_of_ne_of_not_mem (by decide) oneLine inside

/-- The first `=` of `key=value` is the one after the key. -/
theorem findIdx?_entry {key : ByteString} (noEquals : equalsSign ∉ key) (value : ByteString) :
    (key ++ equalsSign :: value).findIdx? (· = equalsSign) = some key.length := by
  have before : key.findIdx? (fun byte => decide (byte = equalsSign)) = none := by
    rw [List.findIdx?_eq_none_iff]
    intro byte member
    exact decide_eq_false fun same => noEquals (same ▸ member)
  rw [List.findIdx?_append, before, List.findIdx?_cons]
  simp

/-- A line is read as the pair that it lays out. -/
theorem entry?_bytes (line : ConfigLine) : entry? line.bytes = line.pair? := by
  cases line with
  | blank => rfl
  | comment text oneLine => rfl
  | entry key value isKey oneLine =>
      have read : ¬ ((key ++ equalsSign :: value).isEmpty ∨
          (key ++ equalsSign :: value).head? = some hash) := by
        rintro (empty | comment)
        · simp at empty
        · cases key with
          | nil => cases comment
          | cons byte key => exact isKey.notComment comment
      rw [bytes, entry?, if_neg read, findIdx?_entry isKey.noEquals]
      simp [pair?]

theorem parseLine_blank (out : Storage) : parseLine out [] = out := rfl

/-- What the loop makes of a rendered file. -/
theorem parseLines_render (ended : Bool) (each : List ConfigLine) (out : Storage) :
    parseLines (render ended each) out =
      overwrite out ((pairs each).map fun pair => (pair.1, .string pair.2)) := by
  have whole : ∀ line ∈ each.map bytes, newline ∉ line := by
    intro line member
    obtain ⟨source, _, rfl⟩ := List.mem_map.mp member
    exact newline_not_mem_bytes source
  have read : (each.map bytes).filterMap entry? = pairs each := by
    rw [List.filterMap_map, pairs]
    exact congrArg (List.filterMap · each) (funext entry?_bytes)
  rw [parseLines, render, foldl_lines_unlines parseLine_blank whole, foldl_parseLine, read]

end ConfigLine

/-- Parsing undoes rendering: a readable file of such lines gives each key it lists the
last value it lists for it, and no other key changes. -/
theorem parse_undoes_render (files : Path → Option ByteString) (path : Path) (ended : Bool)
    (each : List ConfigLine) (out : Storage)
    (readable : files path = some (ConfigLine.render ended each)) :
    (parseFile files path out).1 = { success := true, errors := [] } ∧
    ∀ key, (parseFile files path out).2.lookup key =
      ((lastWrite (ConfigLine.pairs each) key).map .string).or (out.lookup key) := by
  rw [parseFile, readable]
  refine ⟨rfl, fun key => ?_⟩
  dsimp only
  rw [ConfigLine.parseLines_render, lookup_overwrite, lastWrite_map]

/-- `#c`, `n=1`, a blank line and `n==` without a newline after it. -/
def duplicateKeyFile : List ConfigLine :=
  have isKey : IsKey [0x6E] := ⟨by decide, by decide, by decide⟩
  [.comment [0x63] (by decide), .entry [0x6E] [0x31] isKey (by decide), .blank,
    .entry [0x6E] [0x3D] isKey (by decide)]

/-- The second `n` is read over the first and over the one that was there. -/
theorem duplicate_key_overrides :
    ConfigLine.render false duplicateKeyFile =
      [0x23, 0x63, 0x0A, 0x6E, 0x3D, 0x31, 0x0A, 0x0A, 0x6E, 0x3D, 0x3D] ∧
    (parseFile (fun _ => some (ConfigLine.render false duplicateKeyFile)) []
      ((∅ : Storage).insert [0x6E] (.boolean true))).2.lookup [0x6E] = some (.string [0x3D]) := by
  refine ⟨by decide, ?_⟩
  rw [(parse_undoes_render (fun _ => some (ConfigLine.render false duplicateKeyFile)) [] false
    duplicateKeyFile ((∅ : Storage).insert [0x6E] (.boolean true)) rfl).2]
  decide

end MmoServer.Config
