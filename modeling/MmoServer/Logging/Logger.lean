import MmoServer.Logging.TextFormatter
import MmoServer.Semantics.Transition
import MmoServer.Std.OutputStream
import Mathlib.Data.Fintype.Basic
import Mathlib.Logic.Function.Basic

/-!
# Logger

Any number of threads call Log and Flush at the same time. A step is the filter and the
formatting, which touch only what is the thread's own or constant, the lock or unlock of a
sink's mutex, or one call on its stream, whose buffer drains to the device at any time.
A message is copied into the caller's own buffer, which is the line that it carries along.

AddSink and SetMinimumLevel are not synchronized; they are called while no thread is in Log
or Flush.
-/

namespace MmoServer.Logging

open MmoServer.Std MmoServer.Semantics

/-- The size of the buffer that a sink formats into. -/
abbrev MAX_LOG_FORMAT_BUFFER_SIZE : Nat := 2048

/-- What a pointer in `sinks_` points to: its stream and its mutex. -/
inductive ILogSink where
  /-- All ConsoleSinks write to `std::cout`, under `g_console_mutex`. -/
  | console
  /-- A FileSink has an Impl of its own. -/
  | file (impl : Nat)
deriving DecidableEq

/-- What a loop over `sinks_` calls. -/
inductive SinkCall where
  | write (line : ByteString)
  | flush
deriving DecidableEq

/-- Where a thread is. -/
inductive Point where
  | idle
  /-- At the beginning of Log. -/
  | log (level : LogLevel) (message : LogMessage)
  /-- In front of the lock in the call on the first of these sinks. -/
  | lock (call : SinkCall) (sinks : List ILogSink)
  /-- Behind it, in Write. -/
  | write (line : ByteString) (sink : ILogSink) (sinks : List ILogSink)
  | put (line : ByteString) (sink : ILogSink) (sinks : List ILogSink)
  /-- Behind it, in Flush. -/
  | flush (sink : ILogSink) (sinks : List ILogSink)
  | unlock (call : SinkCall) (sink : ILogSink) (sinks : List ILogSink)
deriving DecidableEq

/-- The level and the sinks, and of each sink its stream and who holds its mutex. -/
structure Logger (count : Nat) where
  minimumLevel : LogLevel
  sinks : List ILogSink
  streams : ILogSink → OutputStream UInt8
  mutexes : ILogSink → Option (Fin count)
  points : Fin count → Point

/-- The owner configures the logger, or a thread moves. -/
inductive Choice (count : Nat) where
  | addSink (sink : ILogSink)
  | setMinimumLevel (level : LogLevel)
  | log (thread : Fin count) (level : LogLevel) (message : LogMessage)
  | flush (thread : Fin count)
  /-- The thread's next step: what the clock reads, and whether the stream fails. -/
  | step (thread : Fin count) (now : UInt64) (fails : Option Nat)
  /-- A stream moves bytes to its device. -/
  | spill (sink : ILogSink) (bytes : Nat)

/-- What a step shows of itself. -/
inductive Event (count : Nat) where
  | sinkAdded (sink : ILogSink)
  | minimumLevelSet (level : LogLevel)
  | called (thread : Fin count) (level : LogLevel) (message : LogMessage)
  /-- Log returns at the level check. -/
  | filtered (thread : Fin count) (level : LogLevel) (message : LogMessage)
  /-- The record is formatted, to be written to these sinks. -/
  | accepted (thread : Fin count) (record : LogRecord) (sinks : List ILogSink)
  /-- Write has locked the sink's mutex. -/
  | entered (thread : Fin count) (sink : ILogSink) (line : ByteString)
  /-- The stream has been flushed, and whether it is good. -/
  | flushed (thread : Fin count) (sink : ILogSink) (good : Bool)
  | returned (thread : Fin count)
  | silent
deriving DecidableEq

namespace Logger

variable {count : Nat} (localtime : UInt64 → Option Tm) (threadId : Fin count → UInt32)

/-- A Logger that has just been constructed. -/
def constructed (storage : ILogSink → OutputStream UInt8) : Logger count where
  minimumLevel := .info
  sinks := []
  streams := storage
  mutexes _ := none
  points _ := .idle

/-- What Log formats a record to. -/
def lineOf (record : LogRecord) : ByteString :=
  TextFormatter.format localtime record MAX_LOG_FORMAT_BUFFER_SIZE

/-- The thread comes to a place in its call. -/
def setPoint (logger : Logger count) (thread : Fin count) (point : Point) : Logger count :=
  { logger with points := Function.update logger.points thread point }

/-- The stream of a sink after an operation on it. -/
def setStream (logger : Logger count) (sink : ILogSink) (stream : OutputStream UInt8) :
    Logger count :=
  { logger with streams := Function.update logger.streams sink stream }

/-- The mutex of a sink is locked or unlocked. -/
def setMutex (logger : Logger count) (sink : ILogSink) (holder : Option (Fin count)) :
    Logger count :=
  { logger with mutexes := Function.update logger.mutexes sink holder }

/-- The next step of a thread: Log, Flush, and Write and Flush of the sinks. -/
def advance (logger : Logger count) (thread : Fin count) (now : UInt64) (fails : Option Nat) :
    Option (Logger count × Event count) :=
  match logger.points thread with
  | .idle => none
  | .log level message =>
    if level < logger.minimumLevel then
      some (logger.setPoint thread .idle, .filtered thread level message)
    else
      let record : LogRecord := { timestamp := now, threadId := threadId thread, level, message }
      some (logger.setPoint thread (.lock (.write (lineOf localtime record)) logger.sinks),
        .accepted thread record logger.sinks)
  | .lock _ [] => some (logger.setPoint thread .idle, .returned thread)
  | .lock call (sink :: sinks) =>
    if logger.mutexes sink = none then
      let locked := logger.setMutex sink (some thread)
      match call with
      | .write line => some (locked.setPoint thread (.write line sink sinks), .entered thread sink line)
      | .flush => some (locked.setPoint thread (.flush sink sinks), .silent)
    else none
  | .write line sink sinks =>
    some
      ((logger.setStream sink ((logger.streams sink).write line fails)).setPoint thread
        (.put line sink sinks), .silent)
  | .put line sink sinks =>
    some
      ((logger.setStream sink ((logger.streams sink).write [TextFormatter.newline] fails)).setPoint
        thread (.unlock (.write line) sink sinks), .silent)
  | .flush sink sinks =>
    let stream := (logger.streams sink).flush fails
    some ((logger.setStream sink stream).setPoint thread (.unlock .flush sink sinks),
      .flushed thread sink stream.good)
  | .unlock call sink sinks =>
    some ((logger.setMutex sink none).setPoint thread (.lock call sinks), .silent)

/-- The owner configures the logger while nobody is in it; otherwise a thread moves. -/
def step (logger : Logger count) : Choice count → Option (Logger count × Event count)
  | .addSink sink =>
    if ∀ thread, logger.points thread = .idle then
      some ({ logger with sinks := logger.sinks ++ [sink] }, .sinkAdded sink)
    else none
  | .setMinimumLevel level =>
    if ∀ thread, logger.points thread = .idle then
      some ({ logger with minimumLevel := level }, .minimumLevelSet level)
    else none
  | .log thread level message =>
    if logger.points thread = .idle then
      some (logger.setPoint thread (.log level message), .called thread level message)
    else none
  | .flush thread =>
    if logger.points thread = .idle then
      some (logger.setPoint thread (.lock .flush logger.sinks), .silent)
    else none
  | .step thread now fails => logger.advance localtime threadId thread now fails
  | .spill sink bytes => some (logger.setStream sink ((logger.streams sink).spill bytes), .silent)

/-- The logger under any interleaving of its threads. -/
def system : TransitionSystem (Logger count) (Choice count) (Event count) where
  step := step localtime threadId

/-! ## What a step can do -/

/-- A step of the Logger, by what it does to the threads, the mutexes and the streams. -/
inductive Step (logger : Logger count) : Logger count → Event count → Prop
  | addSink (quiet : ∀ thread, logger.points thread = .idle) (sink : ILogSink) :
      Step logger { logger with sinks := logger.sinks ++ [sink] } (.sinkAdded sink)
  | setMinimumLevel (quiet : ∀ thread, logger.points thread = .idle) (level : LogLevel) :
      Step logger { logger with minimumLevel := level } (.minimumLevelSet level)
  | call {thread} (here : logger.points thread = .idle) (level : LogLevel) (message : LogMessage) :
      Step logger (logger.setPoint thread (.log level message)) (.called thread level message)
  | callFlush {thread} (here : logger.points thread = .idle) :
      Step logger (logger.setPoint thread (.lock .flush logger.sinks)) .silent
  | filter {thread level message} (here : logger.points thread = .log level message)
      (low : level < logger.minimumLevel) :
      Step logger (logger.setPoint thread .idle) (.filtered thread level message)
  | accept {thread} {record : LogRecord}
      (here : logger.points thread = .log record.level record.message)
      (own : record.threadId = threadId thread) (high : ¬ record.level < logger.minimumLevel) :
      Step logger
        (logger.setPoint thread (.lock (.write (lineOf localtime record)) logger.sinks))
        (.accepted thread record logger.sinks)
  | leave {thread call} (here : logger.points thread = .lock call []) :
      Step logger (logger.setPoint thread .idle) (.returned thread)
  | enter {thread line sink sinks} (here : logger.points thread = .lock (.write line) (sink :: sinks))
      (free : logger.mutexes sink = none) :
      Step logger ((logger.setMutex sink (some thread)).setPoint thread (.write line sink sinks))
        (.entered thread sink line)
  | enterFlush {thread sink sinks} (here : logger.points thread = .lock .flush (sink :: sinks))
      (free : logger.mutexes sink = none) :
      Step logger ((logger.setMutex sink (some thread)).setPoint thread (.flush sink sinks)) .silent
  | write {thread line sink sinks} (here : logger.points thread = .write line sink sinks)
      (fails : Option Nat) :
      Step logger
        ((logger.setStream sink ((logger.streams sink).write line fails)).setPoint thread
          (.put line sink sinks)) .silent
  | put {thread line sink sinks} (here : logger.points thread = .put line sink sinks)
      (fails : Option Nat) :
      Step logger
        ((logger.setStream sink
          ((logger.streams sink).write [TextFormatter.newline] fails)).setPoint thread
            (.unlock (.write line) sink sinks)) .silent
  | flush {thread sink sinks} (here : logger.points thread = .flush sink sinks)
      (fails : Option Nat) :
      Step logger
        ((logger.setStream sink ((logger.streams sink).flush fails)).setPoint thread
          (.unlock .flush sink sinks)) (.flushed thread sink ((logger.streams sink).flush fails).good)
  | unlock {thread call sink sinks} (here : logger.points thread = .unlock call sink sinks) :
      Step logger ((logger.setMutex sink none).setPoint thread (.lock call sinks)) .silent
  | spill (sink : ILogSink) (bytes : Nat) :
      Step logger (logger.setStream sink ((logger.streams sink).spill bytes)) .silent

variable {localtime threadId} {logger next : Logger count} {choice : Choice count}
  {event : Event count} {thread : Fin count} {now : UInt64} {fails : Option Nat}

theorem advance_sound
    (transition : logger.advance localtime threadId thread now fails = some (next, event)) :
    Step localtime threadId logger next event := by
  simp only [advance] at transition
  split at transition
  · cases transition
  · next here =>
    split at transition
    · next low =>
      cases transition
      exact .filter here low
    · next high =>
      cases transition
      exact .accept here rfl high
  · next here =>
    cases transition
    exact .leave here
  · next call sink sinks here =>
    split at transition
    · next free =>
      cases call with
      | write line =>
          cases transition
          exact .enter here free
      | flush =>
          cases transition
          exact .enterFlush here free
    · cases transition
  · next here =>
    cases transition
    exact .write here fails
  · next here =>
    cases transition
    exact .put here fails
  · next here =>
    cases transition
    exact .flush here fails
  · next here =>
    cases transition
    exact .unlock here

theorem step_sound (transition : logger.step localtime threadId choice = some (next, event)) :
    Step localtime threadId logger next event := by
  cases choice with
  | addSink sink =>
      simp only [step] at transition
      split at transition
      · next quiet =>
        cases transition
        exact .addSink quiet sink
      · cases transition
  | setMinimumLevel level =>
      simp only [step] at transition
      split at transition
      · next quiet =>
        cases transition
        exact .setMinimumLevel quiet level
      · cases transition
  | log thread level message =>
      simp only [step] at transition
      split at transition
      · next here =>
        cases transition
        exact .call here level message
      · cases transition
  | flush thread =>
      simp only [step] at transition
      split at transition
      · next here =>
        cases transition
        exact .callFlush here
      · cases transition
  | step thread now fails => exact advance_sound transition
  | spill sink bytes =>
      cases transition
      exact .spill sink bytes

end Logger
end MmoServer.Logging
