import MmoServer.Logging.Delivery

/-!
# Reading a log back

A reader of a log file sees the lines in the order in which they were written, each whole,
but for one at the end that is still on its way. What a Flush has flushed stays readable. As a
newline ends a line, this takes messages without one.
-/

namespace MmoServer.Logging.Logger

open MmoServer.Std MmoServer.Semantics TextFormatter

variable {count : Nat} {localtime : UInt64 → Option Tm} {threadId : Fin count → UInt32}
  {logger next start : Logger count} {event : Event count} {events : List (Event count)}
  {storage : ILogSink → OutputStream UInt8} {thread : Fin count} {sink : ILogSink}
  {choice : Choice count} {line : ByteString}

/-- A record that is accepted has no newline in its message. -/
def OneLine : Event count → Prop
  | .accepted _ record _ => newline ∉ record.message.1
  | _ => True

instance : DecidablePred (OneLine : Event count → Prop)
  | .accepted _ record _ => inferInstanceAs (Decidable (newline ∉ record.message.1))
  | .sinkAdded _ | .minimumLevelSet _ | .called _ _ _ | .filtered _ _ _ | .entered _ _ _
  | .flushed _ _ _ | .returned _ | .silent => isTrue trivial

/-- A line that has entered is that of a record. -/
theorem Ordered.mem_entered (ordered : Ordered localtime events logger)
    (member : (thread, line) ∈ entered sink events) :
    ∃ record sinks, .accepted thread record sinks ∈ events ∧ line = lineOf localtime record := by
  have listed : line ∈ linesOf thread (entered sink events) := by
    rw [linesOf, List.mem_map]
    exact ⟨(thread, line), List.mem_filter.mpr ⟨member, by simp⟩, rfl⟩
  have wanted : line ∈ due localtime thread sink events := by
    rw [← ordered thread sink]
    exact List.mem_append_left _ listed
  obtain ⟨event, happened, inside⟩ := List.mem_flatMap.mp wanted
  split at inside
  · next other record sinks =>
    split at inside
    · next same =>
      rw [← same]
      exact ⟨record, sinks, happened, (List.mem_replicate.mp inside).2⟩
    · cases inside
  · cases inside

theorem Ordered.newline_not_mem (ordered : Ordered localtime events logger)
    (oneLine : ∀ event ∈ events, OneLine event) (member : (thread, line) ∈ entered sink events) :
    newline ∉ line := by
  obtain ⟨record, sinks, accepted, rfl⟩ := ordered.mem_entered member
  exact newline_not_mem_format (oneLine _ accepted)

/-! ## What is on the device -/

theorem device_step (step : Step localtime threadId logger next event) (sink : ILogSink) :
    (logger.streams sink).device <+: (next.streams sink).device := by
  have moves : ∀ (other : ILogSink) (stream : OutputStream UInt8),
      (logger.streams other).device <+: stream.device →
        (logger.streams sink).device <+:
          (Function.update logger.streams other stream sink).device := by
    intro other stream grows
    rw [Function.update_apply]
    split
    · next same =>
      rw [same]
      exact grows
    · exact List.prefix_rfl
  cases step with
  | addSink | setMinimumLevel | call | callFlush | filter | accept | leave | enter | enterFlush
  | unlock => exact List.prefix_rfl
  | write here fails => exact moves _ _ (by rw [OutputStream.device_write])
  | put here fails => exact moves _ _ (by rw [OutputStream.device_write])
  | flush here fails => exact moves _ _ OutputStream.device_flush_prefix
  | spill other bytes => exact moves _ _ OutputStream.device_spill_prefix

/-- What has reached a device stays there. -/
theorem device_of_runs (run : (system localtime threadId).Runs start events logger)
    (sink : ILogSink) : (start.streams sink).device <+: (logger.streams sink).device := by
  apply run.invariant fun _ logger => (start.streams sink).device <+: (logger.streams sink).device
  · exact List.prefix_rfl
  · rintro events logger choice next event - before transition -
    exact before.trans (device_step (step_sound transition) sink)

theorem Sound.device_flushed (sound : Sound localtime storage events logger)
    (step : Step localtime threadId logger next (.flushed thread sink true)) :
    (next.streams sink).device = (storage sink).written ++ textOf (entered sink events) := by
  generalize same : Event.flushed thread sink true = event at step
  cases step with
  | @flush other moved sinks here fails =>
      simp only [Event.flushed.injEq] at same
      obtain ⟨rfl, rfl, good⟩ := same
      have inside : (logger.points thread).holds = some sink := by
        rw [here]
        rfl
      have nothing : logger.unwritten sink = [] := by
        rw [sound.locked.unwritten_eq inside, here]
        rfl
      have complete := (sound.written sink).complete (OutputStream.good_of_flush good.symm)
      rw [nothing, List.append_nil] at complete
      rw [← complete, ← OutputStream.device_flush good.symm]
      exact congrArg OutputStream.device (Function.update_self ..)
  | addSink | setMinimumLevel | call | callFlush | filter | accept | leave | enter | enterFlush | write
  | put | unlock | spill => cases same

/-- After a flush that leaves its stream good, every line that has entered is on the device,
and stays there. -/
theorem device_of_flushed {before later : List (Event count)}
    (run : (system localtime threadId).Runs (constructed storage) events logger)
    (split : events = before ++ .flushed thread sink true :: later) :
    (storage sink).written ++ textOf (entered sink before) <+: (logger.streams sink).device := by
  have cut : events = (before ++ [.flushed thread sink true]) ++ later := by
    rw [split, List.append_assoc]
    rfl
  obtain ⟨middle, first, second⟩ := run.split cut
  obtain ⟨state, choice, prior, transition, -⟩ := first.last
  rw [← (sound_of_runs prior).device_flushed (step_sound transition)]
  exact device_of_runs second.runs sink

/-! ## What a reader finds -/

theorem textOf_eq (entries : List (Fin count × ByteString)) :
    textOf entries = (entries.map Prod.snd).flatMap (· ++ [newline]) := by
  rw [List.flatMap_map]
  rfl

theorem count_newline_textOf {entries : List (Fin count × ByteString)}
    (whole : ∀ entry ∈ entries, newline ∉ entry.2) :
    (textOf entries).count newline = entries.length := by
  induction entries with
  | nil => rfl
  | cons entry entries ih =>
      have first := whole entry List.mem_cons_self
      have later := ih fun entry member => whole entry (List.mem_cons_of_mem _ member)
      rw [textOf, List.flatMap_cons, ← textOf, List.count_append, later, terminated,
        List.count_append, List.count_eq_zero.mpr first, List.count_singleton_self,
        List.length_cons]
      omega

/-- A file that held some lines when it was opened, for messages of one line. Whenever it is
read with `getline`, these come first, and then the lines that have entered, in that order
and none longer than the buffer: a number of whole ones, among them all that had entered
before a flush, and at most one that is cut. -/
theorem log_file_read_back (count : Nat) (localtime : UInt64 → Option Tm)
    (threadId : Fin count → UInt32) (storage : ILogSink → OutputStream UInt8)
    (events : List (Event count)) (logger : Logger count)
    (run : (system localtime threadId).Runs (constructed storage) events logger)
    (oneLine : ∀ event ∈ events, OneLine event) (sink : ILogSink) (earlier : List ByteString)
    (opened : (storage sink).device = earlier.flatMap terminated)
    (unbuffered : (storage sink).buffered = []) (whole : ∀ line ∈ earlier, newline ∉ line) :
    ∃ complete cut, complete ≤ (entered sink events).length ∧
      lines newline (logger.streams sink).device =
        earlier ++ ((entered sink events).map Prod.snd).take complete ++ cut ∧
      (∀ entry ∈ entered sink events, entry.2.length < MAX_LOG_FORMAT_BUFFER_SIZE) ∧
      (∀ before thread later, events = before ++ .flushed thread sink true :: later →
        (entered sink before).length ≤ complete) ∧
      cut.length ≤ 1 ∧ ∀ part ∈ cut, ∃ line,
        ((entered sink events).map Prod.snd)[complete]? = some line ∧ part <+: line := by
  have sound := sound_of_runs run
  have single : ∀ entry ∈ entered sink events, newline ∉ entry.2 := fun entry member =>
    sound.ordered.newline_not_mem oneLine member
  have existing : (storage sink).written = earlier.flatMap terminated := by
    rw [OutputStream.written, unbuffered, List.append_nil, opened]
  have grown : (storage sink).device <+: (logger.streams sink).device := device_of_runs run sink
  obtain ⟨text, device⟩ := grown
  rw [opened] at device
  have front : text <+: textOf (entered sink events) := by
    have all := (List.prefix_append (logger.streams sink).device _).trans (sound.written sink).front
    rw [← device, existing] at all
    exact (List.prefix_append_right_inj _).mp all
  have each : ∀ line ∈ (entered sink events).map Prod.snd, newline ∉ line := by
    rintro line member
    obtain ⟨entry, listed, rfl⟩ := List.mem_map.mp member
    exact single entry listed
  obtain ⟨cut, bound, found, one, parts⟩ := lines_of_prefix each (textOf_eq _ ▸ front)
  rw [List.length_map] at bound
  refine ⟨text.count newline, cut, bound, ?_, ?_, ?_, one, parts⟩
  · rw [← device, List.append_assoc, ← found]
    exact lines_flatMap_append whole text
  · rintro ⟨thread, line⟩ member
    obtain ⟨record, sinks, -, rfl⟩ := sound.ordered.mem_entered member
    have fits : (lineOf localtime record).length ≤ MAX_LOG_FORMAT_BUFFER_SIZE - 1 := length_format_le
    exact Nat.lt_of_le_of_lt fits (by decide)
  · intro before thread later split
    have flushed := device_of_flushed run split
    rw [existing, ← device] at flushed
    have reached := (List.prefix_append_right_inj _).mp flushed
    have among : ∀ entry ∈ entered sink before, newline ∉ entry.2 := by
      intro entry member
      apply single
      rw [split, entered, List.filterMap_append]
      exact List.mem_append_left _ member
    rw [← count_newline_textOf among]
    exact reached.sublist.count_le _

/-- A file of one line, flushed after one more; of a third the reader finds a part. -/
theorem third_line_cut : ∃ events logger,
    (system (fun _ => none) fun _ : Fin 1 => 0).Runs
      (constructed fun _ => ⟨[88, newline], [], true⟩) events logger ∧
    ∃ complete cut, 1 ≤ complete ∧ cut.length ≤ 1 ∧
      lines newline (logger.streams (.file 0)).device = [88] ::
        ((entered (.file 0) events).map Prod.snd).take complete ++ cut := by
  obtain ⟨events, logger, run, oneLine, entries, split⟩ :=
    (system (fun _ => none) fun _ : Fin 1 => 0).runs_of_exec (fun _ _ _ _ => True)
      (constructed fun _ => ⟨[88, newline], [], true⟩)
      (.addSink (.file 0) :: .log 0 .info ⟨[66], Nat.le_of_ble_eq_true rfl⟩ ::
        List.replicate 6 (.step 0 1000 none) ++ .flush 0 :: List.replicate 4 (.step 0 1001 none) ++
        .log 0 .fatal ⟨[67], Nat.le_of_ble_eq_true rfl⟩ :: List.replicate 3 (.step 0 1002 none) ++
        [.spill (.file 0) 12])
      (fun _ events => (∀ event ∈ events, OneLine event) ∧
        (entered (.file 0) (events.take 10)).length = 1 ∧
        events = events.take 10 ++ .flushed 0 (.file 0) true :: events.drop 11)
      (by decide +kernel)
  obtain ⟨complete, cut, -, found, -, flushed, one, -⟩ := log_file_read_back 1 (fun _ => none)
    (fun _ => 0) (fun _ => ⟨[88, newline], [], true⟩) events logger run oneLine (.file 0) [[88]]
    rfl rfl (by decide)
  have first := flushed _ _ _ split
  rw [entries] at first
  exact ⟨events, logger, run, complete, cut, first, one, found⟩

end MmoServer.Logging.Logger
