import Mathlib.Data.List.Infix

/-!
# Decoding a stream that arrives in chunks

A decoder looks at the front of a buffer: it takes a frame off, waits for more
bytes, or rejects what it sees. A reader appends each chunk to the buffer and
drains it: it takes frames until the decoder waits, and drops the whole buffer
when it rejects.

As long as nothing is rejected the chunks do not matter: `feed_eq_drain`. After
a rejection they do, because what is dropped is whatever has arrived with it;
`feed_frames_of_silent` says when this makes no difference to the frames.
-/

namespace MmoServer.Std

variable {Byte Frame : Type}

/-- What a decoder says of a buffer. -/
inductive Verdict (Byte Frame : Type) where
  /-- The front is not a whole frame yet. -/
  | wait
  /-- The front is no frame and will not become one. -/
  | reject
  | frame (frame : Frame) (rest : List Byte)

/-- A decoder whose verdicts other than `wait` do not change when more bytes
arrive. -/
structure StreamDecoder (Byte Frame : Type) where
  decode : List Byte → Verdict Byte Frame
  decode_nil : decode [] = .wait
  consumes : ∀ {buffer frame rest}, decode buffer = .frame frame rest →
    ∃ used, used ≠ [] ∧ buffer = used ++ rest ∧ decode used = .frame frame []
  decode_frame_append : ∀ {buffer frame rest} later, decode buffer = .frame frame rest →
    decode (buffer ++ later) = .frame frame (rest ++ later)
  decode_reject_append : ∀ {buffer} later, decode buffer = .reject →
    decode (buffer ++ later) = .reject

namespace StreamDecoder

/-- A decoded frame shortens the buffer. -/
theorem shrinks {decoder : StreamDecoder Byte Frame} {buffer rest : List Byte} {frame : Frame}
    (taken : decoder.decode buffer = .frame frame rest) : rest.length < buffer.length := by
  obtain ⟨used, some_, rfl, _⟩ := decoder.consumes taken
  have positive := List.length_pos_iff.mpr some_
  rw [List.length_append]
  omega

/-- Take frames off a buffer for as long as there are any. The second component
is the buffer that is left. -/
def drain (decoder : StreamDecoder Byte Frame) (buffer : List Byte) : List Frame × List Byte :=
  match taken : decoder.decode buffer with
  | .wait => ([], buffer)
  | .reject => ([], [])
  | .frame frame rest =>
    have := shrinks taken
    (frame :: (drain decoder rest).1, (drain decoder rest).2)
termination_by buffer.length

/-- Append and drain chunk by chunk. -/
def feed (decoder : StreamDecoder Byte Frame) (buffer : List Byte) :
    List (List Byte) → List Frame × List Byte
  | [] => ([], buffer)
  | chunk :: chunks =>
    let drained := decoder.drain (buffer ++ chunk)
    let later := feed decoder drained.2 chunks
    (drained.1 ++ later.1, later.2)

/-- Draining the buffer ends with a rejection at the given rest of it. -/
inductive RejectsAt (decoder : StreamDecoder Byte Frame) : List Byte → List Byte → Prop
  | here {buffer} (rejected : decoder.decode buffer = .reject) : RejectsAt decoder buffer buffer
  | later {buffer frame rest rejected} (taken : decoder.decode buffer = .frame frame rest)
      (there : RejectsAt decoder rest rejected) : RejectsAt decoder buffer rejected

/-- Draining the buffer meets no rejection. -/
def Clean (decoder : StreamDecoder Byte Frame) (buffer : List Byte) : Prop :=
  ∀ rejected, ¬ decoder.RejectsAt buffer rejected

/-- No frame begins at any position of the bytes. -/
def Silent (decoder : StreamDecoder Byte Frame) (bytes : List Byte) : Prop :=
  ∀ position frame rest, decoder.decode (bytes.drop position) ≠ .frame frame rest

/-! ## Draining a buffer -/

variable {decoder : StreamDecoder Byte Frame} {buffer rest later used : List Byte}
  {chunks : List (List Byte)} {frame : Frame}

/-- A buffer that waits is left as it is. -/
theorem drain_of_wait (waits : decoder.decode buffer = .wait) :
    decoder.drain buffer = ([], buffer) := by
  rw [drain]
  split <;> simp_all

/-- A buffer that is refused is dropped. -/
theorem drain_of_reject (rejected : decoder.decode buffer = .reject) :
    decoder.drain buffer = ([], []) := by
  rw [drain]
  split <;> simp_all

/-- A frame is taken, and the rest is drained. -/
theorem drain_of_frame (taken : decoder.decode buffer = .frame frame rest) :
    decoder.drain buffer = (frame :: (decoder.drain rest).1, (decoder.drain rest).2) := by
  rw [drain]
  split <;> simp_all

/-- Nothing comes of nothing. -/
theorem drain_nil : decoder.drain [] = ([], []) := drain_of_wait decoder.decode_nil

/-- A buffer that holds exactly one frame. -/
theorem drain_of_whole (whole : decoder.decode buffer = .frame frame []) :
    decoder.drain buffer = ([frame], []) := by
  rw [drain_of_frame whole, drain_nil]

/-- What draining leaves waits for more bytes. -/
theorem drain_leaves_wait (decoder : StreamDecoder Byte Frame) (buffer : List Byte) :
    decoder.decode (decoder.drain buffer).2 = .wait := by
  induction buffer using drain.induct decoder with
  | case1 buffer waits =>
      rw [drain_of_wait waits]
      exact waits
  | case2 buffer rejected =>
      rw [drain_of_reject rejected]
      exact decoder.decode_nil
  | case3 buffer frame rest taken _ ih =>
      rw [drain_of_frame taken]
      exact ih

/-- A buffer that waits is clean. -/
theorem Clean.of_wait (waits : decoder.decode buffer = .wait) : decoder.Clean buffer := by
  rintro rejected (here | ⟨taken, _⟩)
  · rw [waits] at here
    cases here
  · rw [waits] at taken
    cases taken

/-- So is one with a clean rest behind a frame. -/
theorem Clean.of_frame (taken : decoder.decode buffer = .frame frame rest)
    (clean : decoder.Clean rest) : decoder.Clean buffer := by
  rintro rejected (here | ⟨other, there⟩)
  · rw [taken] at here
    cases here
  · rw [taken] at other
    cases other
    exact clean rejected there

/-- The rest behind a frame of a clean buffer is clean. -/
theorem Clean.tail (clean : decoder.Clean buffer)
    (taken : decoder.decode buffer = .frame frame rest) : decoder.Clean rest :=
  fun rejected there => clean rejected (.later taken there)

/-- A rejection stays where it is when more bytes arrive. -/
theorem RejectsAt.append {rejected : List Byte} (rejects : decoder.RejectsAt buffer rejected)
    (later : List Byte) : decoder.RejectsAt (buffer ++ later) (rejected ++ later) := by
  induction rejects with
  | here verdict => exact .here (decoder.decode_reject_append later verdict)
  | later taken _ ih => exact .later (decoder.decode_frame_append later taken) ih

/-- A front of a clean buffer is clean. -/
theorem Clean.of_append (clean : decoder.Clean (buffer ++ later)) : decoder.Clean buffer :=
  fun _ there => clean _ (there.append later)

/-- Draining in two steps is draining at once, as long as the first step meets
no rejection. -/
theorem Clean.drain_append (clean : decoder.Clean buffer) (later : List Byte) :
    decoder.drain (buffer ++ later) =
      ((decoder.drain buffer).1 ++ (decoder.drain ((decoder.drain buffer).2 ++ later)).1,
        (decoder.drain ((decoder.drain buffer).2 ++ later)).2) := by
  induction buffer using drain.induct decoder with
  | case1 buffer waits =>
      rw [drain_of_wait waits]
      rfl
  | case2 buffer rejected => exact absurd (.here rejected) (clean buffer)
  | case3 buffer frame rest taken _ ih =>
      rw [drain_of_frame taken, drain_of_frame (decoder.decode_frame_append later taken),
        ih (clean.tail taken)]
      rfl

/-- What a clean buffer leaves meets the rejections of the whole stream. -/
theorem Clean.rejectsAt_left_iff {rejected : List Byte} (clean : decoder.Clean buffer) :
    decoder.RejectsAt ((decoder.drain buffer).2 ++ later) rejected ↔
      decoder.RejectsAt (buffer ++ later) rejected := by
  induction buffer using drain.induct decoder with
  | case1 buffer waits => rw [drain_of_wait waits]
  | case2 buffer verdict => exact absurd (.here verdict) (clean buffer)
  | case3 buffer frame rest taken _ ih =>
      have longer := decoder.decode_frame_append later taken
      rw [drain_of_frame taken, ih (clean.tail taken)]
      constructor
      · exact .later longer
      · rintro (here | ⟨other, there⟩)
        · rw [longer] at here
          cases here
        · rw [longer] at other
          cases other
          exact there

/-- What is left at the refusal is refused. -/
theorem RejectsAt.decode {rejected : List Byte} (rejects : decoder.RejectsAt buffer rejected) :
    decoder.decode rejected = .reject := by
  induction rejects with
  | here verdict => exact verdict
  | later _ _ ih => exact ih

/-- A drain ends with one rejection at most. -/
theorem RejectsAt.unique {rejected other : List Byte} (rejects : decoder.RejectsAt buffer rejected)
    (again : decoder.RejectsAt buffer other) : rejected = other := by
  induction rejects with
  | here verdict =>
      rcases again with here | ⟨taken, _⟩
      · rfl
      · rw [verdict] at taken
        cases taken
  | later taken _ ih =>
      rcases again with verdict | ⟨same, there⟩
      · rw [taken] at verdict
        cases verdict
      · rw [taken] at same
        cases same
        exact ih there

/-- Once it has rejected, a drain yields the same frames whatever follows. -/
theorem RejectsAt.drain_append {rejected : List Byte} (rejects : decoder.RejectsAt buffer rejected)
    (later : List Byte) : decoder.drain (buffer ++ later) = decoder.drain buffer ∧
      (decoder.drain buffer).2 = [] := by
  induction rejects with
  | here rejected =>
      rw [drain_of_reject rejected, drain_of_reject (decoder.decode_reject_append later rejected)]
      exact ⟨rfl, rfl⟩
  | later taken _ ih =>
      rw [drain_of_frame taken, drain_of_frame (decoder.decode_frame_append later taken), ih.1]
      exact ⟨rfl, ih.2⟩

/-! ## Feeding chunks -/

theorem feed_cons (buffer chunk : List Byte) (chunks : List (List Byte)) :
    decoder.feed buffer (chunk :: chunks) =
      ((decoder.drain (buffer ++ chunk)).1 ++
        (decoder.feed (decoder.drain (buffer ++ chunk)).2 chunks).1,
        (decoder.feed (decoder.drain (buffer ++ chunk)).2 chunks).2) := rfl

/-- Feeding in two parts is feeding once. -/
theorem feed_append (buffer : List Byte) (before after : List (List Byte)) :
    decoder.feed buffer (before ++ after) =
      ((decoder.feed buffer before).1 ++ (decoder.feed (decoder.feed buffer before).2 after).1,
        (decoder.feed (decoder.feed buffer before).2 after).2) := by
  induction before generalizing buffer with
  | nil => rfl
  | cons chunk chunks ih =>
      rw [List.cons_append, feed_cons, feed_cons, ih, List.append_assoc]

/-- Between two chunks the buffer waits for more bytes. -/
theorem feed_leaves_wait (waits : decoder.decode buffer = .wait) :
    decoder.decode (decoder.feed buffer chunks).2 = .wait := by
  induction chunks generalizing buffer with
  | nil => exact waits
  | cons chunk chunks ih =>
      rw [feed_cons]
      exact ih (drain_leaves_wait decoder _)

/-- Chunks do not matter as long as nothing is rejected. -/
theorem feed_eq_drain (waits : decoder.decode buffer = .wait)
    (clean : decoder.Clean (buffer ++ chunks.flatten)) :
    decoder.feed buffer chunks = decoder.drain (buffer ++ chunks.flatten) := by
  induction chunks generalizing buffer with
  | nil =>
      rw [List.flatten_nil, List.append_nil, drain_of_wait waits]
      rfl
  | cons chunk chunks ih =>
      rw [List.flatten_cons, ← List.append_assoc] at clean ⊢
      have first := clean.of_append
      have left : decoder.Clean ((decoder.drain (buffer ++ chunk)).2 ++ chunks.flatten) :=
        fun rejected there => clean rejected (first.rejectsAt_left_iff.mp there)
      rw [feed_cons, first.drain_append, ih (drain_leaves_wait decoder _) left]

/-- A reader that starts with an empty buffer. -/
theorem feed_eq_drain_flatten (clean : decoder.Clean chunks.flatten) :
    decoder.feed [] chunks = decoder.drain chunks.flatten :=
  feed_eq_drain decoder.decode_nil clean

/-! ## Streams with a rejection -/

/-- Before its rejection a stream is a sequence of whole frames. -/
theorem RejectsAt.split {rejected : List Byte} (rejects : decoder.RejectsAt buffer rejected) :
    ∃ before frames, buffer = before ++ rejected ∧ ∀ later,
      (decoder.Clean later → decoder.Clean (before ++ later)) ∧
      decoder.drain (before ++ later) =
        (frames ++ (decoder.drain later).1, (decoder.drain later).2) := by
  induction rejects with
  | here => exact ⟨[], [], rfl, fun later => ⟨id, rfl⟩⟩
  | @later buffer frame rest rejected taken _ ih =>
      obtain ⟨before, frames, rfl, drains⟩ := ih
      obtain ⟨used, _, rfl, whole⟩ := decoder.consumes taken
      refine ⟨used ++ before, frame :: frames, by rw [List.append_assoc], fun later => ?_⟩
      have first := decoder.decode_frame_append (before ++ later) whole
      rw [List.nil_append, ← List.append_assoc] at first
      obtain ⟨clean, drained⟩ := drains later
      constructor
      · exact fun kept => .of_frame first (clean kept)
      · rw [drain_of_frame first, drained]
        rfl

/-- What is left of a silent buffer is silent. -/
theorem Silent.drop (silent : decoder.Silent buffer) (count : Nat) :
    decoder.Silent (buffer.drop count) := by
  intro position frame rest taken
  rw [List.drop_drop] at taken
  exact silent _ frame rest taken

/-- The end of a silent buffer is silent. -/
theorem Silent.of_append (silent : decoder.Silent (buffer ++ later)) : decoder.Silent later := by
  have dropped := silent.drop buffer.length
  rwa [List.drop_left] at dropped

/-- Silent bytes yield no frames, however they are cut. -/
theorem feed_of_silent (silent : decoder.Silent (buffer ++ chunks.flatten)) :
    (decoder.feed buffer chunks).1 = [] := by
  induction chunks generalizing buffer with
  | nil => rfl
  | cons chunk chunks ih =>
      rw [List.flatten_cons, ← List.append_assoc] at silent
      rw [feed_cons]
      cases verdict : decoder.decode (buffer ++ chunk) with
      | wait =>
          rw [drain_of_wait verdict]
          exact ih silent
      | reject =>
          rw [drain_of_reject verdict]
          exact ih silent.of_append
      | frame frame rest =>
          have longer := decoder.decode_frame_append chunks.flatten verdict
          exact absurd longer (silent 0 frame _)

/-- A rejection makes no difference to the frames when what follows it is silent. -/
theorem feed_frames_of_silent {rejected : List Byte} (waits : decoder.decode buffer = .wait)
    (rejects : decoder.RejectsAt (buffer ++ chunks.flatten) rejected)
    (silent : ∀ cut later, rejected = cut ++ later → decoder.decode cut = .reject →
      decoder.Silent later) :
    (decoder.feed buffer chunks).1 = (decoder.drain (buffer ++ chunks.flatten)).1 := by
  induction chunks generalizing buffer with
  | nil =>
      rw [List.flatten_nil, List.append_nil] at rejects
      exact absurd rejects (Clean.of_wait waits rejected)
  | cons chunk chunks ih =>
      rw [List.flatten_cons, ← List.append_assoc] at rejects ⊢
      rw [feed_cons]
      by_cases clean : decoder.Clean (buffer ++ chunk)
      · rw [clean.drain_append]
        dsimp only
        rw [ih (drain_leaves_wait decoder _) (clean.rejectsAt_left_iff.mpr rejects)]
      · -- The chunk brings the rejection, and what follows it is silent.
        obtain ⟨cut, here⟩ : ∃ cut, decoder.RejectsAt (buffer ++ chunk) cut := by
          by_contra none
          exact clean fun cut here => none ⟨cut, here⟩
        obtain ⟨same, left⟩ := here.drain_append chunks.flatten
        have rest := silent cut _ (rejects.unique (here.append _)) here.decode
        rw [same, left, feed_of_silent rest, List.append_nil]

/-! ## Encoded streams -/

section Encoded

variable {encode : Frame → List Byte} {frames : List Frame}

/-- A stream of encoded frames drains to these frames and whatever follows them. -/
theorem drain_encoded (whole : ∀ frame ∈ frames, decoder.decode (encode frame) = .frame frame [])
    (later : List Byte) : decoder.drain (frames.flatMap encode ++ later) =
      (frames ++ (decoder.drain later).1, (decoder.drain later).2) := by
  induction frames with
  | nil => rfl
  | cons frame frames ih =>
      have first := decoder.decode_frame_append (frames.flatMap encode ++ later)
        (whole frame List.mem_cons_self)
      rw [List.flatMap_cons, List.append_assoc, drain_of_frame first, List.nil_append,
        ih fun other member => whole other (List.mem_cons_of_mem _ member)]
      rfl

/-- Encoded frames in front of a clean buffer keep it clean. -/
theorem Clean.of_encoded (whole : ∀ frame ∈ frames, decoder.decode (encode frame) = .frame frame [])
    (clean : decoder.Clean later) : decoder.Clean (frames.flatMap encode ++ later) := by
  induction frames with
  | nil => exact clean
  | cons frame frames ih =>
      have first := decoder.decode_frame_append (frames.flatMap encode ++ later)
        (whole frame List.mem_cons_self)
      rw [List.flatMap_cons, List.append_assoc]
      apply Clean.of_frame first
      exact ih fun other member => whole other (List.mem_cons_of_mem _ member)

/-- The front of an encoded frame waits for the rest of it. -/
theorem decode_part (whole : decoder.decode (buffer ++ later) = .frame frame [])
    (missing : later ≠ []) : decoder.decode buffer = .wait := by
  cases verdict : decoder.decode buffer with
  | wait => rfl
  | reject =>
      rw [decoder.decode_reject_append later verdict] at whole
      cases whole
  | frame other rest =>
      rw [decoder.decode_frame_append later verdict] at whole
      obtain ⟨_, none⟩ := Verdict.frame.inj whole
      exact absurd (List.append_eq_nil_iff.mp none).2 missing

/-- What has arrived of an encoded stream: whole frames, and a part of the next. -/
theorem drain_arrived (whole : ∀ frame ∈ frames, decoder.decode (encode frame) = .frame frame [])
    (split : buffer ++ later = frames.flatMap encode) : ∃ arrived missing part,
      frames = arrived ++ missing ∧ buffer = arrived.flatMap encode ++ part ∧
      decoder.drain buffer = (arrived, part) ∧
      (missing = [] → part = []) ∧
      ∀ frame rest, missing = frame :: rest → part.length < (encode frame).length := by
  induction frames generalizing buffer with
  | nil =>
      obtain ⟨rfl, rfl⟩ := List.append_eq_nil_iff.mp split
      exact ⟨[], [], [], rfl, rfl, drain_nil, fun _ => rfl, nofun⟩
  | cons frame frames ih =>
      have first := whole frame List.mem_cons_self
      have others := fun other member => whole other (List.mem_cons_of_mem frame member)
      rw [List.flatMap_cons] at split
      have inStream : buffer <+: encode frame ++ frames.flatMap encode :=
        split ▸ List.prefix_append buffer later
      by_cases short : buffer.length < (encode frame).length
      · obtain ⟨tail, same⟩ := List.prefix_of_prefix_length_le inStream (List.prefix_append _ _)
          (Nat.le_of_lt short)
        have missing : tail ≠ [] := by
          rintro rfl
          rw [← same, List.append_nil] at short
          exact Nat.lt_irrefl _ short
        rw [← same] at first
        refine ⟨[], frame :: frames, buffer, rfl, rfl, drain_of_wait (decode_part first missing),
          nofun, fun other rest equal => ?_⟩
        obtain ⟨rfl, _⟩ := List.cons.inj equal
        exact short
      · obtain ⟨tail, rfl⟩ := List.prefix_of_prefix_length_le (List.prefix_append _ _) inStream
          (Nat.not_lt.mp short)
        rw [List.append_assoc] at split
        obtain ⟨arrived, missing, part, rfl, rfl, drained, ends⟩ :=
          ih others (List.append_cancel_left split)
        refine ⟨frame :: arrived, missing, part, rfl, ?_, ?_, ends⟩
        · rw [List.flatMap_cons, List.append_assoc]
        · have taken := decoder.decode_frame_append (arrived.flatMap encode ++ part) first
          rw [drain_of_frame taken, List.nil_append, drained]

/-- A frame of the stream has been taken exactly when its last byte has arrived. -/
theorem drain_encoded_prefix
    (whole : ∀ frame ∈ frames, decoder.decode (encode frame) = .frame frame [])
    (split : buffer ++ later = frames.flatMap encode) : ∃ count,
      (decoder.drain buffer).1 = frames.take count ∧ ∀ index < frames.length,
        (index < count ↔ ((frames.take (index + 1)).flatMap encode).length ≤ buffer.length) := by
  obtain ⟨arrived, missing, part, rfl, rfl, drained, none, next⟩ := drain_arrived whole split
  refine ⟨arrived.length, by rw [drained, List.take_left], fun index inside => ?_⟩
  rw [List.length_append]
  constructor
  · intro before
    have within : index + 1 ≤ arrived.length := before
    rw [List.take_append_of_le_length within]
    have shorter := ((List.take_prefix (index + 1) arrived).flatMap encode).length_le
    omega
  · intro fits
    by_contra beyond
    cases missing with
    | nil =>
        rw [List.append_nil] at inside
        exact beyond inside
    | cons frame rest =>
        have front : arrived ++ [frame] <+: (arrived ++ frame :: rest).take (index + 1) := by
          rw [List.prefix_take_iff, List.length_append, List.length_singleton]
          exact ⟨⟨rest, by simp⟩, by omega⟩
        have longer := (front.flatMap encode).length_le
        have short := next frame rest rfl
        rw [List.flatMap_append, List.length_append, List.flatMap_singleton] at longer
        omega

end Encoded

end StreamDecoder
end MmoServer.Std
