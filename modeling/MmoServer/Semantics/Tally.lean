import Mathlib.Algebra.BigOperators.Group.Finset.Piecewise
import Mathlib.Data.List.Count

/-!
# Counting the events of a trace

Invariants over whole runs often relate a component of the state to how often
something has happened so far. `tally` counts the events of a trace that a test
accepts; it grows by at most one with each event, and a tally that is split
into classes is the sum of the tallies of the classes.
-/

namespace MmoServer.Semantics

variable {Event Class : Type}

/-- How many events of a trace pass a test. -/
def tally (shown : Event → Bool) (events : List Event) : Nat := events.countP shown

@[simp] theorem tally_nil (shown : Event → Bool) : tally shown [] = 0 := rfl

/-- One event more is counted or not. -/
@[simp] theorem tally_concat (shown : Event → Bool) (events : List Event) (event : Event) :
    tally shown (events ++ [event]) = tally shown events + if shown event then 1 else 0 := by
  simp [tally, List.countP_append, List.countP_singleton]

theorem tally_append (shown : Event → Bool) (before after : List Event) :
    tally shown (before ++ after) = tally shown before + tally shown after :=
  List.countP_append

theorem tally_eq_zero_iff {shown : Event → Bool} {events : List Event} :
    tally shown events = 0 ↔ ∀ event ∈ events, shown event = false := by
  simp [tally, List.countP_eq_zero]

theorem tally_pos_iff {shown : Event → Bool} {events : List Event} :
    0 < tally shown events ↔ ∃ event ∈ events, shown event = true :=
  List.countP_pos_iff

/-- A test that accepts more counts more. -/
theorem tally_mono {narrow wide : Event → Bool} {events : List Event}
    (implies : ∀ event ∈ events, narrow event = true → wide event = true) :
    tally narrow events ≤ tally wide events :=
  List.countP_mono_left implies

/-- A tally split into classes: every counted event is counted in one class. -/
theorem tally_eq_sum [DecidableEq Class] {shown : Event → Bool} {classes : Finset Class}
    {within : Class → Event → Bool} {events : List Event}
    (split : ∀ event ∈ events, (if shown event then 1 else 0) =
      ∑ each ∈ classes, if within each event then 1 else 0) :
    tally shown events = ∑ each ∈ classes, tally (within each) events := by
  induction events using List.reverseRecOn with
  | nil => simp
  | append_singleton events event ih =>
      have earlier := ih fun event member => split event (List.mem_append_left _ member)
      have last := split event (by simp)
      simp only [tally_concat, Finset.sum_add_distrib, earlier, last]

/-! ## Tallies between marked events -/

/-- How many events that pass a test a trace has since its last marked event, and since
the marked event before that one. -/
def tallySince (marked counted : Event → Bool) (events : List Event) : Nat × Nat :=
  events.foldl (fun since event =>
    let more := if counted event then 1 else 0
    if marked event then (0, since.1) else (since.1 + more, since.2 + more)) (0, 0)

theorem tallySince_marked {marked counted : Event → Bool} {events : List Event} {event : Event}
    (marks : marked event = true) : tallySince marked counted (events ++ [event]) =
      (0, (tallySince marked counted events).1) := by
  rw [tallySince, List.foldl_concat, ← tallySince]
  exact if_pos marks

theorem tallySince_unmarked {marked counted : Event → Bool} {events : List Event} {event : Event}
    (plain : marked event = false) : tallySince marked counted (events ++ [event]) =
      ((tallySince marked counted events).1 + if counted event then 1 else 0,
        (tallySince marked counted events).2 + if counted event then 1 else 0) := by
  rw [tallySince, List.foldl_concat, ← tallySince]
  exact if_neg (Bool.eq_false_iff.mp plain)

/-- The tally of a trace up to its last marked event. -/
def tallyUntil (marked counted : Event → Bool) (events : List Event) : Nat :=
  tally counted (events.reverse.dropWhile fun event => !marked event)

theorem tallyUntil_marked {marked counted : Event → Bool} {events : List Event} {event : Event}
    (marks : marked event = true) : tallyUntil marked counted (events ++ [event]) =
      tally counted (events ++ [event]) := by
  rw [tallyUntil, List.reverse_concat, List.dropWhile_cons_of_neg (by simp [marks]),
    ← List.reverse_concat, tally, List.countP_reverse, tally]

theorem tallyUntil_unmarked {marked counted : Event → Bool} {events : List Event} {event : Event}
    (plain : marked event = false) : tallyUntil marked counted (events ++ [event]) =
      tallyUntil marked counted events := by
  rw [tallyUntil, List.reverse_concat, List.dropWhile_cons_of_pos (by simp [plain]), tallyUntil]

/-! ## Traces seen through labels -/

variable {Label : Type} {label : Event → Option Label} {events : List Event}

/-- One event more shows its label, if it has one. -/
theorem filterMap_concat (label : Event → Option Label) (events : List Event) (event : Event) :
    (events ++ [event]).filterMap label = events.filterMap label ++ (label event).toList := by
  rw [List.filterMap_append]
  cases labelled : label event <;> simp [labelled]

/-- Counting labels is counting the events that carry them. -/
theorem tally_filterMap {shown : Label → Bool} {test : Event → Bool}
    (same : ∀ event, (label event).any shown = test event) :
    tally shown (events.filterMap label) = tally test events := by
  induction events with
  | nil => rfl
  | cons event events ih =>
      have here := same event
      rw [tally, tally] at ih ⊢
      rw [List.countP_cons, ← here, ← ih]
      cases labelled : label event with
      | none => simp [labelled]
      | some each => simp [labelled, List.countP_cons]

/-- Where a label tells its event, a trace has the event when its labels have the label. -/
theorem mem_filterMap_iff {event : Event} {each : Label} (shown : label event = some each)
    (tells : ∀ other, label other = some each → other = event) :
    each ∈ events.filterMap label ↔ event ∈ events := by
  rw [List.mem_filterMap]
  constructor
  · rintro ⟨other, member, same⟩
    exact tells other same ▸ member
  · exact fun member => ⟨event, member, shown⟩

end MmoServer.Semantics
