import MmoServer.Semantics.Tally
import MmoServer.Semantics.Transition

/-!
# Traces whose events are explained by their past

`Explained explains events` says that every event of a trace stands in a given
relation to the events before it. A run establishes it one event at a time, and
everything a trace says about the order and number of its own events follows
from it: events that are numbered in order are different, and the numbers below
that of an event have been given out before it.
-/

namespace MmoServer.Semantics

variable {Event : Type} {explains : List Event → Event → Prop} {events before after : List Event}
  {event other : Event} {counted : Event → Bool} {number : Event → Nat} {start : Nat}

/-- Every event stands in the relation to the events before it. -/
def Explained (explains : List Event → Event → Prop) (events : List Event) : Prop :=
  ∀ before event after, events = before ++ event :: after → explains before event

/-- Events of a kind are explained by their number: how many of the kind came
before, from a start on. -/
def Numbered (explains : List Event → Event → Prop) (counted : Event → Bool)
    (number : Event → Nat) (start : Nat) : Prop :=
  ∀ before event, explains before event → counted event = true →
    number event = start + tally counted before

theorem explained_nil : Explained explains [] := by
  intro before event after split
  simp at split

/-- A trace is explained when its last event and the rest are. -/
theorem explained_concat : Explained explains (events ++ [event]) ↔
    Explained explains events ∧ explains events event := by
  constructor
  · intro explained
    refine ⟨fun before other after split => ?_, explained events event [] rfl⟩
    exact explained before other (after ++ [event]) (by simp [split])
  · rintro ⟨explained, last⟩ before other after split
    rcases List.eq_nil_or_concat after with rfl | ⟨shorter, final, rfl⟩
    · obtain ⟨rfl, same⟩ := List.append_inj' split rfl
      obtain rfl : event = other := by simpa using same
      exact last
    · rw [List.concat_eq_append, ← List.cons_append, ← List.append_assoc] at split
      exact explained before other shorter (List.append_inj_left' split rfl)

/-- The front of an explained trace is explained. -/
theorem Explained.of_append (explained : Explained explains (before ++ after)) :
    Explained explains before := by
  intro front event rest split
  exact explained front event (rest ++ after) (by simp [split])

/-- Every event of an explained trace has an explanation in it. -/
theorem Explained.of_mem (explained : Explained explains events) (member : event ∈ events) :
    ∃ before, (∃ after, events = before ++ event :: after) ∧ explains before event := by
  obtain ⟨before, after, split⟩ := List.append_of_mem member
  exact ⟨before, ⟨after, split⟩, explained before event after split⟩

/-- Of two events of a trace, the one before which the other is missing comes first. -/
theorem mem_of_split {front rest : List Event} (split : events = before ++ event :: after)
    (also : events = front ++ other :: rest) (differ : event ≠ other) (absent : other ∉ before) :
    event ∈ front := by
  rcases List.append_eq_append_iff.mp (split.symm.trans also) with
    ⟨between, rfl, same⟩ | ⟨between, rfl, same⟩
  · cases between with
    | nil => exact absurd (List.cons.inj same).1 differ
    | cons last between =>
        obtain rfl := (List.cons.inj same).1
        simp
  · cases between with
    | nil => exact absurd (List.cons.inj same).1.symm differ
    | cons last between =>
        obtain rfl := (List.cons.inj same).1
        simp at absent

/-- An event whose label is explained among the labels. -/
theorem Explained.of_label {Label : Type} {label : Event → Option Label}
    {explains : List Label → Label → Prop} {each : Label}
    (explained : Explained explains (events.filterMap label))
    (split : events = before ++ event :: after) (shown : label event = some each) :
    explains (before.filterMap label) each := by
  apply explained _ _ (after.filterMap label)
  rw [split, List.filterMap_append, List.filterMap_cons, shown]

/-- Numbers are given out in order. -/
theorem Numbered.bounds (numbered : Numbered explains counted number start)
    (explained : Explained explains events) (member : event ∈ events)
    (counts : counted event = true) :
    start ≤ number event ∧ number event < start + tally counted events := by
  obtain ⟨before, ⟨after, rfl⟩, explanation⟩ := explained.of_mem member
  have same := numbered before event explanation counts
  have grown : tally counted (before ++ event :: after) =
      tally counted before + (tally counted after + 1) := by
    rw [tally_append]
    simp [tally, counts]
  omega

/-- Events whose keys were not there before have different keys. -/
theorem Explained.unique {Key : Type} (counted : Event → Bool) (key : Event → Key)
    (fresh : ∀ before event, Explained explains before → explains before event →
      counted event = true → ∀ earlier ∈ before, counted earlier = true → key earlier ≠ key event)
    (explained : Explained explains events) (member : event ∈ events) (also : other ∈ events)
    (counts : counted event = true) (countsToo : counted other = true)
    (same : key event = key other) : event = other := by
  induction events using List.reverseRecOn with
  | nil => simp at member
  | append_singleton events last ih =>
      obtain ⟨earlier, explanation⟩ := explained_concat.mp explained
      rcases List.mem_append.mp member with old | new
      · rcases List.mem_append.mp also with oldToo | newToo
        · exact ih earlier old oldToo
        · obtain rfl : other = last := by simpa using newToo
          exact absurd same (fresh events other earlier explanation countsToo event old counts)
      · obtain rfl : event = last := by simpa using new
        rcases List.mem_append.mp also with oldToo | newToo
        · exact absurd same.symm (fresh events event earlier explanation counts other oldToo countsToo)
        · exact (by simpa using newToo : other = event).symm

/-- No number is given out twice. -/
theorem Numbered.unique (numbered : Numbered explains counted number start)
    (explained : Explained explains events) (member : event ∈ events) (also : other ∈ events)
    (counts : counted event = true) (countsToo : counted other = true)
    (same : number event = number other) : event = other := by
  refine explained.unique counted number ?_ member also counts countsToo same
  intro before last front explanation counts earlier inside countsToo
  have below := (numbered.bounds front inside countsToo).2
  have rank := numbered before last explanation counts
  omega

/-- A front of a trace that has an event with a number reaches to where it was given out. -/
theorem Numbered.reaches {front rest : List Event} (numbered : Numbered explains counted number start)
    (explained : Explained explains events) (split : events = before ++ event :: after)
    (counts : counted event = true) (also : events = front ++ rest) (member : other ∈ front)
    (countsToo : counted other = true) (same : number other = number event) :
    ∃ between, front = before ++ event :: between := by
  have rank := numbered before event (explained before event after split) counts
  have outside : other ∉ before := by
    intro inside
    have earlier : Explained explains before := by
      rw [split] at explained
      exact explained.of_append
    have bound := (numbered.bounds earlier inside countsToo).2
    omega
  rcases List.append_eq_append_iff.mp (split.symm.trans also) with ⟨between, rfl, whole⟩ | ⟨_, rfl, _⟩
  · cases between with
    | nil => exact absurd (by simpa using member) outside
    | cons first between =>
        obtain rfl := (List.cons.inj whole).1
        exact ⟨between, rfl⟩
  · exact absurd (List.mem_append_left _ member) outside

/-- A number is given out at one place. -/
theorem Numbered.split_unique {front rest : List Event}
    (numbered : Numbered explains counted number start) (explained : Explained explains events)
    (split : events = before ++ event :: after) (counts : counted event = true)
    (also : events = front ++ other :: rest) (countsToo : counted other = true)
    (same : number other = number event) : before = front := by
  have whole : events = (front ++ [other]) ++ rest := by simp [also]
  have wholeToo : events = (before ++ [event]) ++ after := by simp [split]
  obtain ⟨between, reached⟩ := numbered.reaches explained split counts whole (by simp) countsToo same
  obtain ⟨behind, reachedToo⟩ :=
    numbered.reaches explained also countsToo wholeToo (by simp) counts same.symm
  have lengths := congrArg List.length reached
  have lengthsToo := congrArg List.length reachedToo
  simp only [List.length_append, List.length_cons, List.length_nil] at lengths lengthsToo
  refine List.append_inj_left (split.symm.trans also) ?_
  omega

/-- Every number below the count has been given out. -/
theorem Numbered.exists_event (numbered : Numbered explains counted number start)
    (explained : Explained explains events) {index : Nat} (below : index < tally counted events) :
    ∃ event ∈ events, counted event = true ∧ number event = start + index := by
  induction events using List.reverseRecOn with
  | nil => simp at below
  | append_singleton events last ih =>
      obtain ⟨earlier, explanation⟩ := explained_concat.mp explained
      by_cases old : index < tally counted events
      · obtain ⟨event, member, found⟩ := ih earlier old
        exact ⟨event, List.mem_append_left _ member, found⟩
      · have counts : counted last = true := by
          by_contra uncounted
          rw [tally_concat, if_neg uncounted] at below
          exact old below
        rw [tally_concat, if_pos counts] at below
        have rank := numbered events last explanation counts
        exact ⟨last, by simp, counts, by omega⟩

/-- What happens only if it has not happened before happens once. -/
theorem Explained.tally_le_one
    (first : ∀ before event, Explained explains before → explains before event →
      counted event = true → tally counted before = 0)
    (explained : Explained explains events) : tally counted events ≤ 1 := by
  induction events using List.reverseRecOn with
  | nil => exact Nat.zero_le 1
  | append_singleton events last ih =>
      obtain ⟨earlier, explanation⟩ := explained_concat.mp explained
      rw [tally_concat]
      split
      · next counts =>
        have none := first events last earlier explanation counts
        omega
      · exact ih earlier

end MmoServer.Semantics
