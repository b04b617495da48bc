import MmoServer.Logging.Logger

/-!
# What the sinks get

A line that passes the filter is due once for each sink that its Log finds. Every stream gets
the lines due to it whole and one after the other, whatever the threads do at the same time:
the mutex keeps other lines out while one is written (`Locked`), its holder still has to
write what the stream lacks (`Written`), and a thread's lines come in the order of its calls
(`Ordered`).
-/

namespace MmoServer.Logging

open MmoServer.Std MmoServer.Semantics TextFormatter

/-- A line as it is written. -/
def terminated (line : ByteString) : ByteString := line ++ [newline]

/-! ## Where a thread is -/

namespace Point

/-- The call of Log that the filter has not decided on. -/
def undecided : Point → List (LogLevel × LogMessage)
  | .log level message => [(level, message)]
  | _ => []

/-- The line that it carries, once for each time a stream still has to get it. -/
def remaining (sink : ILogSink) : Point → List ByteString
  | .lock (.write line) sinks | .write line _ sinks | .put line _ sinks
  | .unlock (.write line) _ sinks => List.replicate (sinks.count sink) line
  | _ => []

/-- The sink whose mutex it holds. -/
def holds : Point → Option ILogSink
  | .write _ sink _ | .put _ sink _ | .flush sink _ | .unlock _ sink _ => some sink
  | _ => none

/-- What it will write before it unlocks. -/
def unwritten : Point → ByteString
  | .write line _ _ => terminated line
  | .put _ _ _ => [newline]
  | _ => []

end Point

namespace Logger

variable {count : Nat} {localtime : UInt64 → Option Tm} {threadId : Fin count → UInt32}
  {logger next : Logger count} {event : Event count} {events : List (Event count)}
  {storage : ILogSink → OutputStream UInt8} {thread : Fin count} {sink : ILogSink} {after : Point}

/-! ## What has happened -/

/-- The calls of Log by a thread. -/
def calls (thread : Fin count) (events : List (Event count)) : List (LogLevel × LogMessage) :=
  events.filterMap fun
    | .called other level message => if other = thread then some (level, message) else none
    | _ => none

/-- Those on which the filter has decided. -/
def decided (thread : Fin count) (events : List (Event count)) : List (LogLevel × LogMessage) :=
  events.filterMap fun
    | .filtered other level message => if other = thread then some (level, message) else none
    | .accepted other record _ =>
      if other = thread then some (record.level, record.message) else none
    | _ => none

/-- The sinks that have been added, in order. -/
def addedSinks (events : List (Event count)) : List ILogSink :=
  events.filterMap fun
    | .sinkAdded sink => some sink
    | _ => none

/-- The level that was set last. -/
def minimumLevelOf (events : List (Event count)) : LogLevel :=
  events.foldl (fun level event =>
    match event with
    | .minimumLevelSet other => other
    | _ => level) .info

/-- The lines whose Write has locked a sink's mutex, in that order. -/
def entered (sink : ILogSink) (events : List (Event count)) : List (Fin count × ByteString) :=
  events.filterMap fun
    | .entered thread other line => if other = sink then some (thread, line) else none
    | _ => none

/-- The lines of one thread. -/
def linesOf (thread : Fin count) (entries : List (Fin count × ByteString)) : List ByteString :=
  (entries.filter (·.1 = thread)).map Prod.snd

/-- The lines one after the other. -/
def textOf (entries : List (Fin count × ByteString)) : ByteString :=
  entries.flatMap fun entry => terminated entry.2

variable (localtime) in
/-- What a thread's calls are to bring to a stream: the line of every record that has passed
the filter, once for each sink with this stream. -/
def due (thread : Fin count) (sink : ILogSink) (events : List (Event count)) : List ByteString :=
  events.flatMap fun
    | .accepted other record sinks =>
      if other = thread then List.replicate (sinks.count sink) (lineOf localtime record) else []
    | _ => []

theorem entered_concat (sink : ILogSink) (events : List (Event count)) (event : Event count) :
    entered sink (events ++ [event]) = entered sink events ++ entered sink [event] :=
  List.filterMap_append

/-- What enters no sink adds no line. -/
theorem entered_quiet (nothing : entered sink [event] = []) :
    entered sink (events ++ [event]) = entered sink events := by
  rw [entered_concat, nothing, List.append_nil]

theorem due_concat (thread : Fin count) (sink : ILogSink) (events : List (Event count))
    (event : Event count) : due localtime thread sink (events ++ [event]) =
      due localtime thread sink events ++ due localtime thread sink [event] :=
  List.flatMap_append

theorem linesOf_append (thread : Fin count) (entries more : List (Fin count × ByteString)) :
    linesOf thread (entries ++ more) = linesOf thread entries ++ linesOf thread more := by
  simp [linesOf]

theorem textOf_append (entries more : List (Fin count × ByteString)) :
    textOf (entries ++ more) = textOf entries ++ textOf more := List.flatMap_append

/-! ## The mutexes -/

/-- A mutex is held by the thread that is between its lock and its unlock. -/
def Locked (logger : Logger count) : Prop :=
  ∀ sink thread, logger.mutexes sink = some thread ↔ (logger.points thread).holds = some sink

/-- A thread moves and its mutex stays as it is. -/
theorem Locked.move (locked : logger.Locked)
    (points : next.points = Function.update logger.points thread after)
    (same : next.mutexes = logger.mutexes) (kept : after.holds = (logger.points thread).holds) :
    next.Locked := by
  intro sink other
  rw [same, locked, points, Function.update_apply]
  split
  · next here => rw [here, kept]
  · rfl

/-- A thread locks a free mutex. -/
theorem Locked.enter (locked : logger.Locked) (outside : (logger.points thread).holds = none)
    (free : logger.mutexes sink = none) (inside : after.holds = some sink) :
    ((logger.setMutex sink (some thread)).setPoint thread after).Locked := by
  intro other holder
  show Function.update logger.mutexes sink (some thread) other = some holder ↔
    (Function.update logger.points thread after holder).holds = some other
  rw [Function.update_apply, Function.update_apply]
  by_cases same : other = sink
  · rw [if_pos same, same]
    by_cases moved : holder = thread
    · simp [moved, inside]
    · rw [if_neg moved, ← locked, free]
      simp [Ne.symm moved]
  · rw [if_neg same, locked]
    by_cases moved : holder = thread
    · rw [if_pos moved, moved, outside, inside]
      simp [Ne.symm same]
    · rw [if_neg moved]

/-- The thread in a sink unlocks its mutex. -/
theorem Locked.leave (locked : logger.Locked) (inside : (logger.points thread).holds = some sink)
    (outside : after.holds = none) :
    ((logger.setMutex sink none).setPoint thread after).Locked := by
  intro other holder
  show Function.update logger.mutexes sink none other = some holder ↔
    (Function.update logger.points thread after holder).holds = some other
  rw [Function.update_apply, Function.update_apply]
  by_cases same : other = sink
  · rw [if_pos same, same]
    by_cases moved : holder = thread
    · simp [moved, outside]
    · have mine := (locked sink thread).mpr inside
      have others : ¬ (logger.points holder).holds = some sink := by
        rw [← locked, mine]
        simpa using Ne.symm moved
      simp [moved, others]
  · rw [if_neg same, locked]
    by_cases moved : holder = thread
    · rw [if_pos moved, moved, outside, inside]
      simp [Ne.symm same]
    · rw [if_neg moved]

/-- Every step keeps the mutexes with the threads that are inside. -/
theorem Locked.step (locked : logger.Locked) (step : Step localtime threadId logger next event) :
    next.Locked := by
  cases step with
  | addSink | setMinimumLevel | spill => exact locked
  | call here | callFlush here | filter here | accept here | leave here =>
      exact locked.move rfl rfl (by rw [here]; rfl)
  | enter here free | enterFlush here free => exact locked.enter (by rw [here]; rfl) free rfl
  | write here | put here | flush here => exact locked.move rfl rfl (by rw [here]; rfl)
  | unlock here => exact locked.leave (by rw [here]; rfl) rfl

/-! ## The order of each thread's lines -/

/-- What a thread has brought to a stream and still carries is what is due. -/
def Ordered (localtime : UInt64 → Option Tm) (events : List (Event count)) (logger : Logger count) :
    Prop :=
  ∀ thread sink, linesOf thread (entered sink events) ++ (logger.points thread).remaining sink =
    due localtime thread sink events

/-- Only the moving thread's lines have to be looked at. -/
theorem Ordered.move (ordered : Ordered localtime events logger)
    (points : next.points = Function.update logger.points thread after)
    (elsewhere : ∀ other sink, other ≠ thread →
      linesOf other (entered sink [event]) = [] ∧ due localtime other sink [event] = [])
    (balanced : ∀ sink, linesOf thread (entered sink [event]) ++ after.remaining sink =
      (logger.points thread).remaining sink ++ due localtime thread sink [event]) :
    Ordered localtime (events ++ [event]) next := by
  intro other sink
  rw [entered_concat, due_concat, linesOf_append, points, ← ordered other sink, Function.update_apply]
  split
  · next same => rw [same, List.append_assoc, balanced, List.append_assoc]
  · next apart =>
    obtain ⟨none, nothing⟩ := elsewhere other sink apart
    rw [none, nothing, List.append_nil, List.append_nil]

/-- A step that neither enters a sink nor accepts a record. -/
theorem Ordered.plain (ordered : Ordered localtime events logger)
    (points : next.points = Function.update logger.points thread after)
    (nothing : ∀ sink, entered sink [event] = [])
    (undue : ∀ other sink, due localtime other sink [event] = [])
    (same : ∀ sink, after.remaining sink = (logger.points thread).remaining sink) :
    Ordered localtime (events ++ [event]) next := by
  refine ordered.move points (fun other sink _ => ⟨by rw [nothing]; rfl, undue other sink⟩) ?_
  intro sink
  rw [nothing, undue, same, List.append_nil]
  rfl

/-- Every step keeps the lines of each thread in order. -/
theorem Ordered.step (ordered : Ordered localtime events logger)
    (step : Step localtime threadId logger next event) :
    Ordered localtime (events ++ [event]) next := by
  cases step with
  | addSink | setMinimumLevel | spill =>
      intro thread sink
      rw [entered_concat, due_concat, linesOf_append, ← ordered thread sink]
      simp [entered, due, linesOf, setStream]
  | call here | callFlush here | filter here | enterFlush here | write here | put here | flush here =>
      exact ordered.plain rfl (fun _ => rfl) (fun _ _ => rfl) fun _ => by rw [here]; rfl
  | @leave moved call here =>
      refine ordered.plain rfl (fun _ => rfl) (fun _ _ => rfl) fun _ => ?_
      rw [here]
      cases call <;> rfl
  | @unlock moved call sink sinks here =>
      refine ordered.plain rfl (fun _ => rfl) (fun _ _ => rfl) fun _ => ?_
      rw [here]
      cases call <;> rfl
  | @accept moved record here =>
      refine ordered.move rfl (fun other sink apart => ⟨rfl, ?_⟩) fun sink => ?_
      · simp [due, Ne.symm apart]
      · rw [here]
        simp [entered, linesOf, due, Point.remaining]
  | @enter moved line other sinks here free =>
      refine ordered.move rfl (fun another sink apart => ⟨?_, rfl⟩) fun sink => ?_
      · by_cases same : other = sink <;> simp [entered, linesOf, same, Ne.symm apart]
      · rw [here]
        by_cases same : other = sink
        · simp [entered, linesOf, due, Point.remaining, same, List.replicate_succ]
        · simp [entered, linesOf, due, Point.remaining, same]

/-! ## What the streams have written -/

/-- What the holder of a sink's mutex still has to write. -/
def unwritten (logger : Logger count) (sink : ILogSink) : ByteString :=
  match logger.mutexes sink with
  | none => []
  | some thread => (logger.points thread).unwritten

/-- Every stream has got as far as the lines that have entered, but for the last. -/
def Written (storage : ILogSink → OutputStream UInt8) (events : List (Event count))
    (logger : Logger count) : Prop :=
  ∀ sink, (logger.streams sink).Reaches
    ((storage sink).written ++ textOf (entered sink events)) (logger.unwritten sink)

/-- What a sink still has to write is what the thread in it has. -/
theorem Locked.unwritten_eq (locked : logger.Locked)
    (inside : (logger.points thread).holds = some sink) :
    logger.unwritten sink = (logger.points thread).unwritten := by
  rw [unwritten, (locked sink thread).mpr inside]

/-- A thread moves, which is of no matter to a sink whose mutex it does not hold. -/
theorem Locked.unwritten_move (locked : logger.Locked)
    (points : next.points = Function.update logger.points thread after)
    (same : next.mutexes sink = logger.mutexes sink)
    (outside : (logger.points thread).holds ≠ some sink) :
    next.unwritten sink = logger.unwritten sink := by
  rw [unwritten, unwritten, same]
  cases held : logger.mutexes sink with
  | none => rfl
  | some holder =>
      have apart : holder ≠ thread := by
        rintro rfl
        exact outside ((locked sink holder).mp held)
      simp only [points, Function.update_of_ne apart]

/-- A thread outside all mutexes moves. -/
theorem Written.outside (written : Written storage events logger) (locked : logger.Locked)
    (points : next.points = Function.update logger.points thread after)
    (mutexes : next.mutexes = logger.mutexes) (streams : next.streams = logger.streams)
    (outside : (logger.points thread).holds = none) (nothing : ∀ sink, entered sink [event] = []) :
    Written storage (events ++ [event]) next := by
  intro sink
  rw [entered_quiet (nothing sink), streams,
    locked.unwritten_move points (by rw [mutexes]) (by rw [outside]; nofun)]
  exact written sink

/-- The holder of a mutex works on its stream. -/
theorem Written.inside (written : Written storage events logger) (locked : logger.Locked)
    {stream : OutputStream UInt8} (inside : (logger.points thread).holds = some sink)
    (kept : after.holds = some sink) (nothing : ∀ sink, entered sink [event] = [])
    (works : ∀ all, (logger.streams sink).Reaches all (logger.points thread).unwritten →
      stream.Reaches all after.unwritten) :
    Written storage (events ++ [event]) ((logger.setStream sink stream).setPoint thread after) := by
  have moved : ((logger.setStream sink stream).setPoint thread after).Locked :=
    locked.move rfl rfl (kept.trans inside.symm)
  intro other
  rw [entered_quiet (nothing other)]
  by_cases same : other = sink
  · have mine := written sink
    rw [locked.unwritten_eq inside] at mine
    have ahead : (((logger.setStream sink stream).setPoint thread after).points thread) = after :=
      Function.update_self ..
    rw [same, moved.unwritten_eq (by rw [ahead, kept]), ahead]
    show (Function.update logger.streams sink stream sink).Reaches _ _
    rw [Function.update_self]
    exact works _ mine
  · have apart : ((logger.setStream sink stream).setPoint thread after).unwritten other =
        logger.unwritten other :=
      locked.unwritten_move rfl rfl (by rw [inside]; simpa using Ne.symm same)
    rw [apart]
    show (Function.update logger.streams sink stream other).Reaches _ _
    rw [Function.update_of_ne same]
    exact written other

/-- A thread locks a mutex, and what it will write is `more`. -/
theorem Written.enter (written : Written storage events logger) (locked : logger.Locked)
    {more : ByteString} (outside : (logger.points thread).holds = none)
    (free : logger.mutexes sink = none) (held : after.holds = some sink)
    (ahead : after.unwritten = more) (mine : textOf (entered sink [event]) = more)
    (others : ∀ other, other ≠ sink → entered other [event] = []) :
    Written storage (events ++ [event])
      ((logger.setMutex sink (some thread)).setPoint thread after) := by
  intro other
  have here := written other
  by_cases same : other = sink
  · subst same
    have moved := locked.enter outside free held
    have there : (((logger.setMutex other (some thread)).setPoint thread after).points thread) =
        after := Function.update_self ..
    have nothing : logger.unwritten other = [] := by rw [unwritten, free]
    rw [moved.unwritten_eq (by rw [there, held]), there, ahead, entered_concat, textOf_append, mine,
      ← List.append_assoc]
    rw [nothing] at here
    exact here.extend more
  · have apart : ((logger.setMutex sink (some thread)).setPoint thread after).unwritten other =
        logger.unwritten other :=
      locked.unwritten_move rfl (Function.update_of_ne same _ _) (by rw [outside]; nofun)
    rw [apart, entered_quiet (others other same)]
    exact here

/-- Every step keeps each stream at a front of its lines. -/
theorem Written.step (written : Written storage events logger) (locked : logger.Locked)
    (step : Step localtime threadId logger next event) :
    Written storage (events ++ [event]) next := by
  cases step with
  | addSink | setMinimumLevel =>
      intro sink
      rw [entered_quiet rfl]
      exact written sink
  | call here | callFlush here | filter here | accept here | leave here =>
      exact written.outside locked rfl rfl rfl (by rw [here]; rfl) fun _ => rfl
  | @enter moved line sink sinks here free =>
      refine written.enter locked (by rw [here]; rfl) free rfl rfl ?_ fun other apart => ?_
      · simp [entered, textOf, Point.unwritten]
      · simp [entered, Ne.symm apart]
  | enterFlush here free =>
      exact written.enter locked (by rw [here]; rfl) free rfl rfl rfl fun _ _ => rfl
  | write here fails =>
      refine written.inside locked (by rw [here]; rfl) rfl (fun _ => rfl) fun all reaches => ?_
      rw [here] at reaches
      exact reaches.write
  | put here fails =>
      refine written.inside locked (by rw [here]; rfl) rfl (fun _ => rfl) fun all reaches => ?_
      rw [here] at reaches
      exact reaches.write
  | flush here fails =>
      refine written.inside locked (by rw [here]; rfl) rfl (fun _ => rfl) fun all reaches => ?_
      rw [here] at reaches
      exact reaches.flush
  | @unlock thread call sink sinks here =>
      have inside : (logger.points thread).holds = some sink := by rw [here]; rfl
      intro other
      rw [entered_quiet rfl]
      have before := written other
      by_cases same : other = sink
      · subst same
        rw [locked.unwritten_eq inside, here] at before
        have nothing : ((logger.setMutex other none).setPoint thread (.lock call sinks)).unwritten
            other = [] := by
          simp [unwritten, setMutex, setPoint]
        rw [nothing]
        exact before
      · have apart : ((logger.setMutex sink none).setPoint thread (.lock call sinks)).unwritten
            other = logger.unwritten other :=
          locked.unwritten_move rfl (Function.update_of_ne same _ _)
            (by rw [inside]; simpa using Ne.symm same)
        rw [apart]
        exact before
  | spill sink bytes =>
      intro other
      rw [entered_quiet rfl]
      show (Function.update logger.streams sink _ other).Reaches _ _
      rw [Function.update_apply]
      split
      · next same =>
        rw [same]
        exact (written sink).spill
      · exact written other

/-! ## The calls and the configuration -/

/-- What a thread has called and the filter has not decided on is the call that it is in. -/
def Decided (events : List (Event count)) (logger : Logger count) : Prop :=
  ∀ thread, calls thread events = decided thread events ++ (logger.points thread).undecided

/-- Only the moving thread's calls have to be looked at. -/
theorem Decided.move (before : Decided events logger)
    (points : next.points = Function.update logger.points thread after)
    (elsewhere : ∀ other, other ≠ thread → calls other [event] = [] ∧ decided other [event] = [])
    (balanced : (logger.points thread).undecided ++ calls thread [event] =
      decided thread [event] ++ after.undecided) : Decided (events ++ [event]) next := by
  intro other
  have here := before other
  rw [calls, decided, List.filterMap_append, List.filterMap_append, ← calls, ← decided, ← calls,
    ← decided, here, points, Function.update_apply]
  split
  · next same => rw [same, List.append_assoc, balanced, List.append_assoc]
  · next apart =>
    obtain ⟨none, nothing⟩ := elsewhere other apart
    rw [none, nothing, List.append_nil, List.append_nil]

/-- Every step keeps each call decided once. -/
theorem Decided.step (before : Decided events logger)
    (step : Step localtime threadId logger next event) : Decided (events ++ [event]) next := by
  cases step with
  | addSink | setMinimumLevel | spill =>
      intro thread
      simpa [calls, decided, setStream] using before thread
  | callFlush here | leave here | enter here | enterFlush here | write here | put here | flush here
  | unlock here =>
      exact before.move rfl (fun _ _ => ⟨rfl, rfl⟩) (by rw [here]; rfl)
  | call here | filter here | accept here =>
      refine before.move rfl (fun _ apart => ?_) (by rw [here]; simp [calls, decided, Point.undecided])
      simp [calls, decided, Ne.symm apart]

/-- The sinks and the minimum level are those that were set. -/
structure Configured (events : List (Event count)) (logger : Logger count) : Prop where
  sinks : logger.sinks = addedSinks events
  minimumLevel : logger.minimumLevel = minimumLevelOf events

/-- What configures nothing keeps the level and the sinks. -/
theorem Configured.keep (configured : Configured events logger)
    (sinks : next.sinks = logger.sinks) (level : next.minimumLevel = logger.minimumLevel)
    (nothing : addedSinks [event] = [])
    (kept : minimumLevelOf (events ++ [event]) = minimumLevelOf events) :
    Configured (events ++ [event]) next where
  sinks := by
    rw [sinks, configured.sinks, addedSinks, addedSinks, List.filterMap_append, ← addedSinks,
      ← addedSinks, nothing, List.append_nil]
  minimumLevel := by rw [level, kept, configured.minimumLevel]

/-- Every step keeps the configuration that of the history. -/
theorem Configured.step (configured : Configured events logger)
    (step : Step localtime threadId logger next event) : Configured (events ++ [event]) next := by
  cases step with
  | addSink quiet sink =>
      refine ⟨?_, ?_⟩
      · rw [addedSinks, List.filterMap_append, ← addedSinks, ← configured.sinks]
        rfl
      · rw [minimumLevelOf, List.foldl_concat]
        exact configured.minimumLevel
  | setMinimumLevel quiet level =>
      refine ⟨?_, ?_⟩
      · rw [addedSinks, List.filterMap_append, ← addedSinks, ← configured.sinks]
        exact (List.append_nil _).symm
      · rw [minimumLevelOf, List.foldl_concat]
  | call | callFlush | filter | accept | leave | enter | enterFlush | write | put | flush | unlock
  | spill =>
      refine configured.keep rfl rfl rfl ?_
      rw [minimumLevelOf, List.foldl_concat]
      rfl

/-! ## Runs -/

/-- All that holds of a logger along its runs. -/
structure Sound (localtime : UInt64 → Option Tm) (storage : ILogSink → OutputStream UInt8)
    (events : List (Event count)) (logger : Logger count) : Prop where
  locked : logger.Locked
  ordered : Ordered localtime events logger
  written : Written storage events logger
  decided : Decided events logger
  configured : Configured events logger

/-- A new logger is sound with the empty history. -/
theorem sound_constructed : Sound localtime storage [] (constructed storage : Logger count) where
  locked _ _ := ⟨nofun, nofun⟩
  ordered _ _ := rfl
  written sink := by
    refine ⟨List.prefix_append _ _, fun _ => ?_⟩
    rfl
  decided _ := rfl
  configured := ⟨rfl, rfl⟩

/-- Every step keeps the logger sound. -/
theorem Sound.step (sound : Sound localtime storage events logger)
    (step : Step localtime threadId logger next event) :
    Sound localtime storage (events ++ [event]) next where
  locked := sound.locked.step step
  ordered := sound.ordered.step step
  written := sound.written.step sound.locked step
  decided := sound.decided.step step
  configured := sound.configured.step step

/-- The logger is sound along every run. -/
theorem sound_of_runs
    (run : (system localtime threadId).Runs (constructed storage) events logger) :
    Sound localtime storage events logger := by
  apply run.invariant fun events logger => Sound localtime storage events logger
  · exact sound_constructed
  · rintro events logger choice next event - sound transition -
    exact sound.step (step_sound transition)

/-- A call is filtered by the level that was set before. -/
theorem level_of_filtered {before later : List (Event count)} {level : LogLevel}
    {message : LogMessage}
    (run : (system localtime threadId).Runs (constructed storage) events logger)
    (split : events = before ++ .filtered thread level message :: later) :
    level < minimumLevelOf before := by
  obtain ⟨state, choice, next, prior, transition, -, -⟩ := run.at_event split
  have configured := (sound_of_runs prior).configured
  cases step_sound transition with
  | filter here low =>
      rw [← configured.minimumLevel]
      exact low

/-- A record is accepted by the level and for the sinks then in force. -/
theorem record_of_accepted {before later : List (Event count)} {record : LogRecord}
    {sinks : List ILogSink}
    (run : (system localtime threadId).Runs (constructed storage) events logger)
    (split : events = before ++ .accepted thread record sinks :: later) :
    ¬ record.level < minimumLevelOf before ∧ record.threadId = threadId thread ∧
      sinks = addedSinks before := by
  obtain ⟨state, choice, next, prior, transition, -, -⟩ := run.at_event split
  have configured := (sound_of_runs prior).configured
  cases step_sound transition with
  | accept here own high =>
      rw [← configured.minimumLevel, ← configured.sinks]
      exact ⟨high, own, rfl⟩

/-- A stream that nobody is in and that is good has all its lines. -/
theorem Written.whole (written : Written storage events logger) (free : logger.mutexes sink = none)
    (good : (logger.streams sink).good = true) :
    (logger.streams sink).written = (storage sink).written ++ textOf (entered sink events) := by
  have complete := (written sink).complete good
  rwa [unwritten, free, List.append_nil] at complete

/-- Every call of Log is filtered or accepted, by the level and for the sinks at that time. A
stream has written a front of the lines whose Write has entered its sink, and all of them
when nobody is in it and nothing has failed. The lines that a thread has brought to it are
a front of those due to it, in order, and all of them when the thread is in no call. -/
theorem sinks_get_due_lines (count : Nat) (localtime : UInt64 → Option Tm)
    (threadId : Fin count → UInt32) (storage : ILogSink → OutputStream UInt8)
    (events : List (Event count)) (logger : Logger count)
    (run : (system localtime threadId).Runs (constructed storage) events logger) :
    (∀ thread, calls thread events = decided thread events ++ (logger.points thread).undecided) ∧
    (∀ before later thread level message,
      events = before ++ .filtered thread level message :: later → level < minimumLevelOf before) ∧
    (∀ before later thread record sinks,
      events = before ++ .accepted thread record sinks :: later →
        ¬ record.level < minimumLevelOf before ∧ record.threadId = threadId thread ∧
          sinks = addedSinks before) ∧
    ∀ sink,
      (logger.streams sink).written <+: (storage sink).written ++ textOf (entered sink events) ∧
      ((logger.streams sink).good = true → logger.mutexes sink = none →
        (logger.streams sink).written = (storage sink).written ++ textOf (entered sink events)) ∧
      ∀ thread, linesOf thread (entered sink events) <+: due localtime thread sink events ∧
        (logger.points thread = .idle →
          linesOf thread (entered sink events) = due localtime thread sink events) := by
  have sound := sound_of_runs run
  refine ⟨sound.decided, fun _ _ _ _ _ split => level_of_filtered run split,
    fun _ _ _ _ _ split => record_of_accepted run split, fun sink => ⟨?_, ?_, fun thread => ?_⟩⟩
  · exact (sound.written sink).front
  · exact fun good free => sound.written.whole free good
  · rw [← sound.ordered thread sink]
    refine ⟨List.prefix_append _ _, fun idle => ?_⟩
    rw [idle]
    exact (List.append_nil _).symm

/-- A console and a file. The second thread's line overtakes the first one's between the two. -/
theorem overtaken_between_sinks : ∃ events logger,
    (system (fun _ => none) fun thread : Fin 2 => UInt32.ofNat thread).Runs
      (constructed fun _ => ⟨[], [], true⟩) events logger ∧
    (entered .console events).map Prod.fst = [0, 1] ∧
    (entered (.file 0) events).map Prod.fst = [1, 0] ∧
    (logger.streams (.file 0)).written = textOf (entered (.file 0) events) ∧
    linesOf 0 (entered (.file 0) events) = due (fun _ => none) 0 (.file 0) events ∧
    ∀ level message, (level, message) ∈ calls 0 events → (level, message) ∈ decided 0 events := by
  obtain ⟨events, logger, run, console, file, good, free, idle⟩ :=
    (system (fun _ => none) fun thread : Fin 2 => UInt32.ofNat thread).runs_of_exec
      (fun _ _ _ _ => True) (constructed fun _ => ⟨[], [], true⟩)
      (.addSink .console :: .addSink (.file 0) ::
        .log 0 .debug ⟨[65], Nat.le_of_ble_eq_true rfl⟩ :: .step 0 7 none ::
        .log 0 .info ⟨[66], Nat.le_of_ble_eq_true rfl⟩ ::
        .log 1 .warn ⟨[67], Nat.le_of_ble_eq_true rfl⟩ ::
        List.replicate 5 (.step 0 1000 none) ++ List.replicate 10 (.step 1 1001 none) ++
        .spill (.file 0) 12 :: List.replicate 5 (.step 0 1002 none))
      (fun logger events => (entered .console events).map Prod.fst = [0, 1] ∧
        (entered (.file 0) events).map Prod.fst = [1, 0] ∧
        (logger.streams (.file 0)).good = true ∧ logger.mutexes (.file 0) = none ∧
        logger.points 0 = .idle)
      (by decide +kernel)
  obtain ⟨called, -, -, each⟩ := sinks_get_due_lines 2 (fun _ => none)
    (fun thread => UInt32.ofNat thread) (fun _ => ⟨[], [], true⟩) events logger run
  obtain ⟨-, whole, lines⟩ := each (.file 0)
  refine ⟨events, logger, run, console, file, whole good free, (lines 0).2 idle, ?_⟩
  intro level message member
  rw [called 0, idle] at member
  simpa [Point.undecided] using member

end Logger
end MmoServer.Logging
