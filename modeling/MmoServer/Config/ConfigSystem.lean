import MmoServer.Config.KeyValueConfigParser
import MmoServer.Semantics.Transition

/-!
# ConfigSystem

Load runs an injected parser over some paths, all into one map. The parser may have
written anything when it reports failure or throws; Load then clears the map.

`loading_all_or_nothing` says that nothing of a Load is left unless all of it is.
-/

namespace MmoServer.Config

open MmoServer.Std MmoServer.Semantics KeyValueConfigParser

/-- What a call of ParseFile does. -/
structure ParseCall (State : Type) where
  /-- What it writes into the map, in order. -/
  writes : List (ConfigKey × ConfigValue)
  /-- What it returns; `none` if it throws. -/
  result : Option ParseResult
  /-- The parser's own state afterwards. -/
  state : State

/-- The injected parser: ParseFile on a path and the map so far. -/
structure IConfigParser (State : Type) where
  parseFile : State → Path → Storage → ParseCall State

/-- The parser of a ConfigSystem that is given none, on a file system. -/
def keyValueConfigParser (files : Path → Option ByteString) : IConfigParser Unit where
  parseFile _ path out :=
    { writes := ((files path).map writesOf).getD []
      result := some (parseFile files path out).1
      state := () }

/-- Its writes come to what ParseFile makes of the map. -/
theorem overwrite_keyValueConfigParser (files : Path → Option ByteString) (path : Path)
    (out : Storage) : overwrite out ((keyValueConfigParser files).parseFile () path out).writes =
      (parseFile files path out).2 := by
  simp only [keyValueConfigParser, parseFile]
  cases files path with
  | none => rfl
  | some content => exact parseLines_eq_overwrite.symm

/-- The storage, the loaded flag and the parser's state. -/
structure ConfigSystem (State : Type) where
  storage : Storage
  loaded : Bool
  parserState : State

namespace ConfigSystem

variable {State : Type} (parser : IConfigParser State)

/-- How the loop of Load ends. -/
inductive LoopEnd where
  | finished
  /-- A ParseFile reported failure. -/
  | failed
  | threw

/-- The loop of Load: how it ends, and the map and the parser's state then. -/
def parsePaths : List Path → State → Storage → LoopEnd × Storage × State
  | [], state, storage => (.finished, storage, state)
  | path :: paths, state, storage =>
    let call := parser.parseFile state path storage
    let storage := overwrite storage call.writes
    match call.result with
    | none => (.threw, storage, call.state)
    | some result =>
      if result.success then parsePaths paths call.state storage
      else (.failed, storage, call.state)

/-- ConfigSystem::ConfigSystem. -/
def constructed (parserState : State) : ConfigSystem State where
  storage := ∅
  loaded := false
  parserState := parserState

/-- ConfigSystem::Load, which clears the map before its loop. -/
def load (config : ConfigSystem State) (paths : List Path) : Bool × ConfigSystem State :=
  if config.loaded then (false, config)
  else
    match parsePaths parser paths config.parserState ∅ with
    | (.finished, storage, parserState) => (true, { storage, loaded := true, parserState })
    | (.failed, _, parserState) => (false, { config with storage := ∅, parserState })
    | (.threw, _, parserState) => (false, { storage := ∅, loaded := false, parserState })

/-- ConfigSystem::Clear. -/
def clear (config : ConfigSystem State) : ConfigSystem State :=
  { config with storage := ∅, loaded := false }

/-- A call of the owner. -/
inductive Choice where
  | load (paths : List Path)
  | clear

/-- What the call returned. -/
inductive Event where
  | loaded (answer : Bool)
  | cleared
deriving DecidableEq

/-- Every call runs to its end under the mutex. -/
def step (config : ConfigSystem State) : Choice → Option (ConfigSystem State × Event)
  | .load paths => some ((config.load parser paths).2, .loaded (config.load parser paths).1)
  | .clear => some (config.clear, .cleared)

/-- The configuration under any sequence of calls. -/
def system : TransitionSystem (ConfigSystem State) Choice Event where
  step := step parser

/-! ## ParseFile over some paths -/

/-- The map after ParseFile has run over some paths, one after the other. -/
def parsedFrom : List Path → State → Storage → Storage
  | [], _, storage => storage
  | path :: paths, state, storage =>
    parsedFrom paths (parser.parseFile state path storage).state
      (overwrite storage (parser.parseFile state path storage).writes)

/-- Everything that it writes on the way. -/
def writesOver : List Path → State → Storage → List (ConfigKey × ConfigValue)
  | [], _, _ => []
  | path :: paths, state, storage =>
    (parser.parseFile state path storage).writes ++
      writesOver paths (parser.parseFile state path storage).state
        (overwrite storage (parser.parseFile state path storage).writes)

variable {parser} {paths : List Path} {state : State} {storage : Storage} {config : ConfigSystem State}
  {events : List Event}

theorem parsedFrom_eq_overwrite (paths : List Path) (state : State) (storage : Storage) :
    parsedFrom parser paths state storage =
      overwrite storage (writesOver parser paths state storage) := by
  induction paths generalizing state storage with
  | nil => rfl
  | cons path paths ih => rw [parsedFrom, writesOver, ih, overwrite_append]

/-- A loop that finishes has parsed every path. -/
theorem storage_of_finished
    (finished : (parsePaths parser paths state storage).1 = .finished) :
    (parsePaths parser paths state storage).2.1 = parsedFrom parser paths state storage := by
  induction paths generalizing state storage with
  | nil => rfl
  | cons path paths ih =>
      rw [parsePaths] at finished ⊢
      split at finished
      · cases finished
      · split at finished
        · next success =>
          rw [if_pos success]
          exact ih finished
        · cases finished

/-- A system that is not loaded stores nothing. -/
def Consistent (config : ConfigSystem State) : Prop := config.loaded = false → config.storage = ∅

/-- What a Load can do. -/
theorem load_cases (consistent : config.Consistent) (paths : List Path) :
    ((config.load parser paths).1 = false ∧ (config.load parser paths).2.storage = config.storage ∧
      (config.load parser paths).2.loaded = config.loaded) ∨
    ((config.load parser paths).1 = true ∧ (config.load parser paths).2.loaded = true ∧
      (config.load parser paths).2.storage = parsedFrom parser paths config.parserState ∅) := by
  rw [load]
  split
  · exact .inl ⟨rfl, rfl, rfl⟩
  · next fresh =>
    have unloaded : config.loaded = false := eq_false_of_ne_true fresh
    have nothing := consistent unloaded
    split
    · next parsed ended =>
      have finished := storage_of_finished (congrArg Prod.fst ended)
      rw [ended] at finished
      exact .inr ⟨rfl, rfl, finished⟩
    · exact .inl ⟨rfl, nothing.symm, rfl⟩
    · exact .inl ⟨rfl, nothing.symm, unloaded.symm⟩

theorem Consistent.load (consistent : config.Consistent) (paths : List Path) :
    (config.load parser paths).2.Consistent := by
  rcases load_cases consistent paths with ⟨_, storage, loaded⟩ | ⟨_, loaded, _⟩
  · intro unloaded
    rw [storage]
    exact consistent (loaded.symm.trans unloaded)
  · intro unloaded
    cases loaded.symm.trans unloaded

theorem consistent_of_runs
    (run : (system parser).Runs (constructed state) events config) : config.Consistent := by
  apply run.invariant fun _ (config : ConfigSystem State) => config.Consistent
  · exact fun _ => rfl
  · intro events config choice next event _ consistent transition _
    cases choice with
    | load paths =>
        cases transition
        exact consistent.load paths
    | clear =>
        cases transition
        exact fun _ => rfl

/-- Whatever the parser does and whatever was called before: nothing is stored unless the
system is loaded, a Load that answers false changes neither, and one that answers true
stores what ParseFile makes of the empty map over all paths, each key with the last value
that was written for it. -/
theorem loading_all_or_nothing {State : Type} (parser : IConfigParser State) (initial : State)
    (events : List Event) (config : ConfigSystem State)
    (run : (system parser).Runs (constructed initial) events config) :
    (config.loaded = false → config.storage = ∅) ∧
    ∀ paths,
      ((config.load parser paths).1 = false →
        (config.load parser paths).2.storage = config.storage ∧
        (config.load parser paths).2.loaded = config.loaded) ∧
      ((config.load parser paths).1 = true →
        (config.load parser paths).2.loaded = true ∧
        (config.load parser paths).2.storage = parsedFrom parser paths config.parserState ∅ ∧
        ∀ key, (config.load parser paths).2.storage.lookup key =
          lastWrite (writesOver parser paths config.parserState ∅) key) := by
  have consistent := consistent_of_runs run
  refine ⟨consistent, fun paths => ?_⟩
  rcases load_cases consistent paths with ⟨answer, kept⟩ | ⟨answer, loaded, stored⟩
  · exact ⟨fun _ => kept, fun accepted => absurd (answer.symm.trans accepted) nofun⟩
  · refine ⟨fun refused => absurd (answer.symm.trans refused) nofun, fun _ => ⟨loaded, stored, ?_⟩⟩
    intro key
    rw [stored, parsedFrom_eq_overwrite, lookup_overwrite, Finmap.lookup_empty, Option.or_none]

/-- A file system with the one file `n=1`. -/
def oneFile (path : Path) : Option ByteString := if path = [1] then some [0x6E, 0x3D, 0x31] else none

/-- After a Load and a Clear, the first of two paths is read and the second cannot be opened:
nothing stays. The first alone is then loaded once more. -/
theorem failed_load_leaves_nothing : ∃ config,
    (system (keyValueConfigParser oneFile)).Runs (constructed ()) [.loaded true, .cleared] config ∧
    (config.load (keyValueConfigParser oneFile) [[1], [2]]).2.storage = ∅ ∧
    (config.load (keyValueConfigParser oneFile) [[1]]).2.storage.lookup [0x6E] =
      some (.string [0x31]) := by
  let parser := keyValueConfigParser oneFile
  have loads : (system parser).step (constructed ()) (.load [[1]]) =
      some (((constructed ()).load parser [[1]]).2, .loaded true) :=
    congrArg (fun answer => some (_, Event.loaded answer)) (by decide)
  have clears : (system parser).step ((constructed ()).load parser [[1]]).2 .clear =
      some (_, .cleared) := rfl
  have run : (system parser).Runs (constructed ()) [.loaded true, .cleared] _ :=
    .step (.step .refl loads trivial) clears trivial
  obtain ⟨empty, loading⟩ := loading_all_or_nothing parser () _ _ run
  refine ⟨_, run, ?_, ?_⟩
  · exact ((loading [[1], [2]]).1 (by decide)).1.trans (empty rfl)
  · refine (((loading [[1]]).2 (by decide)).2.2 _).trans ?_
    decide

end ConfigSystem
end MmoServer.Config
