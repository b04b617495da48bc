import MmoServer.Std.Lines

/-!
# A buffered output stream

What is written goes to a buffer, and from its front to the device behind the stream: some of
it at any time, all of it when the stream is flushed. A write or a flush that fails has
handled a front of its bytes, and the stream takes nothing from then on.

`Reaches` says how far a stream has got in the text that it is to write: it has written a
front of it, and while it is good all of it.
-/

namespace MmoServer.Std

/-- What has reached the device, what is in the buffer, and the state of the stream. -/
structure OutputStream (α : Type) where
  device : List α
  buffered : List α
  good : Bool

namespace OutputStream

variable {α : Type}

/-- What has been taken, whether or not it has reached the device. -/
def written (stream : OutputStream α) : List α := stream.device ++ stream.buffered

/-- The front of the buffer moves to the device. -/
def spill (stream : OutputStream α) (count : Nat) : OutputStream α :=
  { stream with
    device := stream.device ++ stream.buffered.take count
    buffered := stream.buffered.drop count }

/-- A write; `fails` is how much of it a failing one takes. -/
def write (stream : OutputStream α) (items : List α) (fails : Option Nat) : OutputStream α :=
  match stream.good, fails with
  | false, _ => stream
  | true, none => { stream with buffered := stream.buffered ++ items }
  | true, some taken =>
    { stream with buffered := stream.buffered ++ items.take taken, good := false }

/-- A flush; `fails` is how much of the buffer a failing one moves. -/
def flush (stream : OutputStream α) (fails : Option Nat) : OutputStream α :=
  match stream.good, fails with
  | false, _ => stream
  | true, none => stream.spill stream.buffered.length
  | true, some moved => { stream.spill moved with good := false }

variable {stream : OutputStream α} {all items : List α} {fails : Option Nat} {count : Nat}

@[simp] theorem written_spill : (stream.spill count).written = stream.written := by
  simp [written, spill]

@[simp] theorem written_flush : (stream.flush fails).written = stream.written := by
  unfold flush
  split
  · rfl
  · exact written_spill
  · exact written_spill

/-- A flush never repairs a stream. -/
theorem good_of_flush (good : (stream.flush fails).good = true) : stream.good = true := by
  unfold flush at good
  split at good
  · exact good
  · next before => exact before
  · cases good

/-- After a flush that has not failed, everything is on the device. -/
theorem device_flush (good : (stream.flush fails).good = true) :
    (stream.flush fails).device = stream.written := by
  have before := good_of_flush good
  unfold flush at good ⊢
  split at good
  · next bad =>
    rw [before] at bad
    cases bad
  · simp [spill, written]
  · cases good

/-! The device only gains. -/

/-- What has reached the device stays there. -/
theorem device_spill_prefix : stream.device <+: (stream.spill count).device := List.prefix_append _ _

/-- A flush only adds to it. -/
theorem device_flush_prefix : stream.device <+: (stream.flush fails).device := by
  unfold flush
  split
  · exact List.prefix_rfl
  · exact device_spill_prefix
  · exact device_spill_prefix

/-- A write stays in the buffer at first. -/
theorem device_write : (stream.write items fails).device = stream.device := by
  unfold write
  split <;> rfl

/-! ## How far a stream has got -/

/-- Of a text, `rest` is still to be written. -/
structure Reaches (stream : OutputStream α) (all rest : List α) : Prop where
  front : stream.written <+: all
  complete : stream.good = true → stream.written ++ rest = all

variable {rest more : List α}

/-- Spilling writes nothing new. -/
theorem Reaches.spill (reaches : stream.Reaches all rest) : (stream.spill count).Reaches all rest where
  front := by
    rw [written_spill]
    exact reaches.front
  complete good := by
    rw [written_spill]
    exact reaches.complete good

/-- Nor does a flush. -/
theorem Reaches.flush (reaches : stream.Reaches all rest) : (stream.flush fails).Reaches all rest where
  front := by
    rw [written_flush]
    exact reaches.front
  complete good := by
    rw [written_flush]
    exact reaches.complete (good_of_flush good)

/-- More is to be written. -/
theorem Reaches.extend (reaches : stream.Reaches all rest) (more : List α) :
    stream.Reaches (all ++ more) (rest ++ more) where
  front := reaches.front.trans (List.prefix_append _ _)
  complete good := by rw [← List.append_assoc, reaches.complete good]

/-- A write of what comes next. -/
theorem Reaches.write (reaches : stream.Reaches all (items ++ rest)) :
    (stream.write items fails).Reaches all rest := by
  unfold OutputStream.write
  split
  · next bad =>
    exact ⟨reaches.front, fun good => absurd good (by simp [bad])⟩
  · next good =>
    have taken : stream.device ++ (stream.buffered ++ items) ++ rest = all := by
      rw [← reaches.complete good, written]
      simp
    exact ⟨⟨rest, taken⟩, fun _ => taken⟩
  · next count good =>
    refine ⟨⟨items.drop count ++ rest, ?_⟩, nofun⟩
    have split : items.take count ++ (items.drop count ++ rest) = items ++ rest := by
      rw [← List.append_assoc, List.take_append_drop]
    rw [← reaches.complete good, ← split]
    simp [written]

end OutputStream
end MmoServer.Std
