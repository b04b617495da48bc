import MmoServer.Events.History

/-!
# Publish calls

The events of one Publish call are those with its number. While the call is on a
stack its state says which of the snapshot's handlers have had their turn and which
have been invoked; the calls below it on the stack have smaller numbers, and no call
emits anything once it has returned.
-/

namespace MmoServer.Events

open MmoServer.Semantics

variable {count : Nat} {events before after : List (Event count)} {event : Event count}
  {thread other : Fin count} {handler : HandlerRef} {publication second : Publication}
  {state : PublishState}

namespace Event

/-- The Publish call that an event is a step of. -/
def publication? : Event count → Option Publication
  | .copied publication _ | .turn publication _ _ | .invoked publication _
  | .handled publication _ | .finished publication => some publication
  | _ => none

/-- What a Publish call copies. -/
def copies (publication : Publication) : Event count → List HandlerRef
  | .copied other snapshot => if other = publication then snapshot else []
  | _ => []

/-- The handler whose turn has come in a Publish call, with its active flag. -/
def turn? (publication : Publication) : Event count → Option (HandlerRef × Bool)
  | .turn other handler active => if other = publication then some (handler, active) else none
  | _ => none

/-- The handler that a Publish call invokes. -/
def invoked? (publication : Publication) : Event count → Option HandlerRef
  | .invoked other handler => if other = publication then some handler else none
  | _ => none

end Event

/-- The snapshot of a Publish call. -/
def copiedBy (publication : Publication) (events : List (Event count)) : List HandlerRef :=
  events.flatMap (Event.copies publication)

/-- The handlers that have had their turn in a Publish call, with their active flags. -/
def turnsOf (publication : Publication) (events : List (Event count)) : List (HandlerRef × Bool) :=
  events.filterMap (Event.turn? publication)

/-- The handlers that a Publish call has invoked. -/
def invokedBy (publication : Publication) (events : List (Event count)) : List HandlerRef :=
  events.filterMap (Event.invoked? publication)

/-- The handlers whose flag was found set. -/
def foundActive (turns : List (HandlerRef × Bool)) : List HandlerRef :=
  (turns.filter Prod.snd).map Prod.fst

@[simp] theorem copiedBy_concat : copiedBy publication (events ++ [event]) =
    copiedBy publication events ++ event.copies publication := by
  simp [copiedBy]

@[simp] theorem turnsOf_concat : turnsOf publication (events ++ [event]) =
    turnsOf publication events ++ (event.turn? publication).toList := by
  rw [turnsOf, List.filterMap_append, List.filterMap_cons]
  cases shown : event.turn? publication <;> simp [turnsOf]

@[simp] theorem invokedBy_concat : invokedBy publication (events ++ [event]) =
    invokedBy publication events ++ (event.invoked? publication).toList := by
  rw [invokedBy, List.filterMap_append, List.filterMap_cons]
  cases shown : event.invoked? publication <;> simp [invokedBy]

@[simp] theorem foundActive_append {turns later : List (HandlerRef × Bool)} :
    foundActive (turns ++ later) = foundActive turns ++ foundActive later := by
  simp [foundActive]

/-- Nothing has been copied before the copy. -/
theorem copiedBy_eq_nil (uncopied : ∀ snapshot, .copied publication snapshot ∉ events) :
    copiedBy publication events = [] := by
  refine List.flatMap_eq_nil_iff.mpr fun event member => ?_
  cases event with
  | copied other snapshot =>
      refine if_neg fun same => ?_
      exact uncopied snapshot (same ▸ member)
  | _ => rfl

/-- The turns of a publication are those that its events show. -/
theorem mem_turnsOf {active : Bool} : (handler, active) ∈ turnsOf publication events ↔
    .turn publication handler active ∈ events := by
  refine mem_filterMap_iff (by simp [Event.turn?]) fun event shown => ?_
  cases event with
  | turn other found flag =>
      simp only [Event.turn?, Option.ite_none_right_eq_some, Option.some.injEq, Prod.mk.injEq] at shown
      obtain ⟨rfl, rfl, rfl⟩ := shown
      rfl
  | _ => cases shown

/-- So are the handlers that it has entered. -/
theorem mem_invokedBy : handler ∈ invokedBy publication events ↔
    .invoked publication handler ∈ events := by
  refine mem_filterMap_iff (by simp [Event.invoked?]) fun event shown => ?_
  cases event with
  | invoked other found =>
      simp only [Event.invoked?, Option.ite_none_right_eq_some, Option.some.injEq] at shown
      obtain ⟨rfl, rfl⟩ := shown
      rfl
  | _ => cases shown

/-- A handler was found active where a turn says so. -/
theorem mem_foundActive {turns : List (HandlerRef × Bool)} :
    handler ∈ foundActive turns ↔ (handler, true) ∈ turns := by
  simp [foundActive]

/-- The events of other calls are no turns of a call. -/
theorem silent_of_ne (apart : event.publication? ≠ some publication) :
    event.copies publication = [] ∧ event.turn? publication = none ∧
      event.invoked? publication = none := by
  cases event with
  | copied | turn | invoked =>
      have differ : _ ≠ publication := fun same => apart (congrArg some same)
      simp [Event.copies, Event.turn?, Event.invoked?, differ]
  | _ => exact ⟨rfl, rfl, rfl⟩

/-! ## The state of a call -/

/-- The handlers whose turn is still to come. -/
def PublishState.rest : PublishState → List HandlerRef
  | .copy _ => []
  | .next rest => rest
  | .call _ rest => rest
  | .running _ rest => rest

/-- The handler that is about to be invoked. -/
def PublishState.due : PublishState → List HandlerRef
  | .call handler _ => [handler]
  | _ => []

/-- What a trace says about a call that has not returned. -/
structure Follows (events : List (Event count)) (publication : Publication) (state : PublishState) :
    Prop where
  turns : (turnsOf publication events).map Prod.fst ++ state.rest = copiedBy publication events
  calls : invokedBy publication events ++ state.due = foundActive (turnsOf publication events)
  copied : (∃ type, state = .copy type) ∨ ∃ snapshot, .copied publication snapshot ∈ events
  uncopied : ∀ type, state = .copy type → ∀ snapshot, .copied publication snapshot ∉ events

/-- The turns of a call are a part of its snapshot, and its invocations a part of the
turns that found their handler active. -/
structure Ordered (events : List (Event count)) (publication : Publication) : Prop where
  turns : (turnsOf publication events).map Prod.fst <+: copiedBy publication events
  calls : invokedBy publication events <+: foundActive (turnsOf publication events)

/-- Every handler of the snapshot has had its turn, and those found active were invoked. -/
structure Completed (events : List (Event count)) (publication : Publication) : Prop where
  turns : (turnsOf publication events).map Prod.fst = copiedBy publication events
  calls : invokedBy publication events = foundActive (turnsOf publication events)

/-- Wherever a publication stands, its turns are in order. -/
theorem Follows.ordered (follows : Follows events publication state) : Ordered events publication :=
  ⟨⟨_, follows.turns⟩, ⟨_, follows.calls⟩⟩

/-- So are those of one that has returned. -/
theorem Completed.ordered (completed : Completed events publication) : Ordered events publication :=
  ⟨⟨[], by simpa using completed.turns⟩, ⟨[], by simpa using completed.calls⟩⟩

section Apart

variable (apart : event.publication? ≠ some publication)
include apart

/-- What is no step of a publication leaves it where it stands. -/
theorem Follows.concat (follows : Follows events publication state) :
    Follows (events ++ [event]) publication state := by
  obtain ⟨copies, turn, invoked⟩ := silent_of_ne apart
  obtain ⟨turns, calls, copied, uncopied⟩ := follows
  refine ⟨?_, ?_, copied.imp_right ?_, ?_⟩
  · simpa [copies, turn] using turns
  · simpa [turn, invoked] using calls
  · exact fun ⟨snapshot, member⟩ => ⟨snapshot, List.mem_append_left _ member⟩
  · intro type same snapshot member
    rcases List.mem_append.mp member with before | last
    · exact uncopied type same snapshot before
    · exact apart (by rw [← List.mem_singleton.mp last]; rfl)

/-- What is no step of a publication keeps its order. -/
theorem Ordered.concat (ordered : Ordered events publication) :
    Ordered (events ++ [event]) publication := by
  obtain ⟨copies, turn, invoked⟩ := silent_of_ne apart
  constructor
  · simpa [copies, turn] using ordered.turns
  · simpa [turn, invoked] using ordered.calls

/-- Nothing is added to a publication that has returned. -/
theorem Completed.concat (completed : Completed events publication) :
    Completed (events ++ [event]) publication := by
  obtain ⟨copies, turn, invoked⟩ := silent_of_ne apart
  constructor
  · simpa [copies, turn] using completed.turns
  · simpa [turn, invoked] using completed.calls

end Apart

/-! ## Calls on the stacks -/

/-- The publication that a call is, with its place in it. -/
def Frame.publish? : Frame → Option (Publication × PublishState)
  | .publish publication state => some (publication, state)
  | .mutate _ => none

/-- The Publish calls of a thread, the innermost first. -/
def EventBus.publishes (bus : EventBus count) (thread : Fin count) :
    List (Publication × PublishState) := (bus.threads thread).filterMap Frame.publish?

variable {bus next : EventBus count}

/-- What a trace says about the Publish calls. -/
structure Publishing (events : List (Event count)) (bus : EventBus count) : Prop where
  follows : ∀ thread publication state, (publication, state) ∈ bus.publishes thread →
    Follows events publication state
  began : ∀ thread publication state, (publication, state) ∈ bus.publishes thread →
    ∃ type, .began thread publication type ∈ events ∧ ∀ other, state = .copy other → other = type
  nested : ∀ thread, ((bus.publishes thread).map Prod.fst).Pairwise (· > ·)
  ordered : ∀ publication, Ordered events publication
  finished : ∀ publication, .finished publication ∈ events → Completed events publication ∧
    ∀ thread state, (publication, state) ∉ bus.publishes thread
  begun : ∀ event ∈ events, ∀ publication, event.publication? = some publication →
    publication < bus.publications

@[simp] theorem publishes_setStack_self {stack : List Frame} :
    (bus.setStack thread stack).publishes thread = stack.filterMap Frame.publish? := by
  rw [EventBus.publishes, EventBus.setStack_threads_self]

/-- The publications of the other threads stay. -/
theorem publishes_setStack_of_ne {stack : List Frame} (apart : other ≠ thread) :
    (bus.setStack thread stack).publishes other = bus.publishes other := by
  rw [EventBus.publishes, EventBus.setStack_threads_of_ne apart, EventBus.publishes]

/-- The innermost call of a thread is its first publication. -/
theorem publishes_of_here {below : List Frame}
    (here : bus.threads thread = .publish publication state :: below) :
    bus.publishes thread = (publication, state) :: below.filterMap Frame.publish? := by
  rw [EventBus.publishes, here, List.filterMap_cons, Frame.publish?]

/-- A thread that stands in a publication has it among its own. -/
theorem mem_publishes {below : List Frame}
    (here : bus.threads thread = .publish publication state :: below) :
    (publication, state) ∈ bus.publishes thread := by
  rw [publishes_of_here here]
  exact List.mem_cons_self

/-- A call that is no Publish is none of the Publish calls of its thread. -/
theorem publishes_setStack_of_same {stack : List Frame}
    (same : stack.filterMap Frame.publish? = bus.publishes thread) (other : Fin count) :
    (bus.setStack thread stack).publishes other = bus.publishes other := by
  by_cases here : other = thread
  · rw [here, publishes_setStack_self, same]
  · exact publishes_setStack_of_ne here

/-! ## The steps of a call -/

/-- Publish copies the snapshot, and goes through it. -/
theorem Follows.copy {type : EventTypeId} {snapshot : List HandlerRef}
    (follows : Follows events publication (.copy type)) :
    Follows (events ++ [.copied publication snapshot]) publication (.next snapshot) := by
  have empty := copiedBy_eq_nil (follows.uncopied type rfl)
  have turns := follows.turns
  have calls := follows.calls
  rw [empty] at turns
  refine ⟨?_, ?_, .inr ⟨snapshot, by simp⟩, nofun⟩
  · rw [copiedBy_concat, empty, turnsOf_concat]
    simpa [Event.turn?, Event.copies, PublishState.rest] using turns
  · rw [invokedBy_concat, turnsOf_concat]
    simpa [Event.turn?, Event.invoked?, PublishState.due] using calls

/-- The next handler's flag is loaded. -/
theorem Follows.turn {rest : List HandlerRef} {active : Bool}
    (follows : Follows events publication (.next (handler :: rest))) :
    Follows (events ++ [.turn publication handler active]) publication
      (.loaded handler rest active) := by
  obtain ⟨turns, calls, copied, _⟩ := follows
  have already : ∃ snapshot, .copied publication snapshot ∈ events :=
    copied.resolve_left nofun
  obtain ⟨snapshot, member⟩ := already
  refine ⟨?_, ?_, .inr ⟨snapshot, List.mem_append_left _ member⟩, ?_⟩
  · rw [copiedBy_concat, turnsOf_concat, ← turns]
    cases active <;> simp [Event.turn?, Event.copies, PublishState.loaded, PublishState.rest]
  · rw [invokedBy_concat, turnsOf_concat, foundActive_append, ← calls]
    cases active <;> simp [Event.turn?, Event.invoked?, PublishState.loaded, PublishState.due,
      foundActive]
  · cases active <;> exact nofun

/-- The callback of an active handler is entered. -/
theorem Follows.invoke {rest : List HandlerRef}
    (follows : Follows events publication (.call handler rest)) :
    Follows (events ++ [.invoked publication handler]) publication (.running handler rest) := by
  obtain ⟨turns, calls, copied, _⟩ := follows
  obtain ⟨snapshot, member⟩ := copied.resolve_left nofun
  refine ⟨?_, ?_, .inr ⟨snapshot, List.mem_append_left _ member⟩, nofun⟩
  · simpa [Event.turn?, Event.copies, PublishState.rest] using turns
  · simpa [Event.turn?, Event.invoked?, PublishState.due] using calls

/-- The callback returns, and the rest of the snapshot remains. -/
theorem Follows.handle {rest : List HandlerRef}
    (follows : Follows events publication (.running handler rest)) :
    Follows (events ++ [.handled publication handler]) publication (.next rest) := by
  obtain ⟨turns, calls, copied, _⟩ := follows
  obtain ⟨snapshot, member⟩ := copied.resolve_left nofun
  refine ⟨?_, ?_, .inr ⟨snapshot, List.mem_append_left _ member⟩, nofun⟩
  · simpa [Event.turn?, Event.copies, PublishState.rest] using turns
  · simpa [Event.turn?, Event.invoked?, PublishState.due] using calls

/-- A call with nothing left to do is complete. -/
theorem Follows.finish (follows : Follows events publication state) (rest : state.rest = [])
    (due : state.due = []) : Completed (events ++ [.finished publication]) publication := by
  have turns := follows.turns
  have calls := follows.calls
  rw [rest, List.append_nil] at turns
  rw [due, List.append_nil] at calls
  constructor
  · simpa [Event.turn?, Event.copies] using turns
  · simpa [Event.turn?, Event.invoked?] using calls

section Publishing

variable (publishing : Publishing events bus)
include publishing

/-- A step of no Publish call. -/
theorem Publishing.keep (quiet : event.publication? = none)
    (publishes : ∀ thread, next.publishes thread = bus.publishes thread)
    (publications : next.publications = bus.publications) : Publishing (events ++ [event]) next := by
  have apart : ∀ publication, event.publication? ≠ some publication := by
    intro publication
    rw [quiet]
    exact nofun
  constructor
  · intro thread publication state inside
    rw [publishes] at inside
    exact (publishing.follows thread publication state inside).concat (apart publication)
  · intro thread publication state inside
    rw [publishes] at inside
    obtain ⟨type, member, same⟩ := publishing.began thread publication state inside
    exact ⟨type, List.mem_append_left _ member, same⟩
  · intro thread
    rw [publishes]
    exact publishing.nested thread
  · exact fun publication => (publishing.ordered publication).concat (apart publication)
  · intro publication finished
    have before : .finished publication ∈ events := by
      refine (List.mem_append.mp finished).resolve_right fun last => ?_
      exact apart publication (by rw [← List.mem_singleton.mp last]; rfl)
    obtain ⟨completed, outside⟩ := publishing.finished publication before
    refine ⟨completed.concat (apart publication), fun thread state => ?_⟩
    rw [publishes]
    exact outside thread state
  · intro earlier member publication shown
    rw [publications]
    rcases List.mem_append.mp member with before | last
    · exact publishing.begun earlier before publication shown
    · rw [List.mem_singleton.mp last] at shown
      exact absurd shown (apart publication)

/-- A call that has not begun has done nothing. -/
theorem Publishing.silent (unbegun : bus.publications ≤ publication) :
    (∀ event ∈ events, event.publication? ≠ some publication) ∧
      turnsOf publication events = [] ∧ invokedBy publication events = [] := by
  have apart : ∀ event ∈ events, event.publication? ≠ some publication := by
    intro event member shown
    exact Nat.lt_irrefl _ (Nat.lt_of_lt_of_le (publishing.begun event member publication shown) unbegun)
  refine ⟨apart, ?_, ?_⟩
  · exact List.filterMap_eq_nil_iff.mpr fun event member => (silent_of_ne (apart event member)).2.1
  · exact List.filterMap_eq_nil_iff.mpr fun event member => (silent_of_ne (apart event member)).2.2

/-- The calls on the stacks have begun. -/
theorem Publishing.below_publications (counted : Counted events bus)
    (explained : Explained Explains events) (inside : (publication, state) ∈ bus.publishes thread) :
    publication < bus.publications := by
  obtain ⟨type, member, _⟩ := publishing.began thread publication state inside
  have bound := (began_numbered.bounds explained member rfl).2
  rw [Nat.zero_add, ← counted.publications] at bound
  exact bound

/-- A Publish call that begins. -/
theorem Publishing.begin {type : EventTypeId} (counted : Counted events bus)
    (explained : Explained Explains events)
    (here : next.publishes thread = (bus.publications, .copy type) :: bus.publishes thread)
    (elsewhere : ∀ other, other ≠ thread → next.publishes other = bus.publishes other)
    (publications : next.publications = bus.publications + 1) :
    Publishing (events ++ [.began thread bus.publications type]) next := by
  have apart : ∀ publication,
      (Event.began thread bus.publications type).publication? ≠ some publication := nofun
  obtain ⟨quiet, turns, invoked⟩ := publishing.silent (Nat.le_refl bus.publications)
  have uncopied : ∀ snapshot, .copied bus.publications snapshot ∉ events :=
    fun snapshot member => quiet _ member rfl
  have cases : ∀ other publication state, (publication, state) ∈ next.publishes other →
      (publication, state) ∈ bus.publishes other ∨
        (other = thread ∧ publication = bus.publications ∧ state = .copy type) := by
    intro other publication state inside
    by_cases same : other = thread
    · subst same
      rw [here] at inside
      rcases List.mem_cons.mp inside with new | before
      · cases new
        exact .inr ⟨rfl, rfl, rfl⟩
      · exact .inl before
    · rw [elsewhere other same] at inside
      exact .inl inside
  constructor
  · intro other publication state inside
    rcases cases other publication state inside with before | ⟨rfl, rfl, rfl⟩
    · exact (publishing.follows other publication state before).concat (apart publication)
    · refine Follows.concat (apart _) ⟨?_, ?_, .inl ⟨type, rfl⟩, fun _ _ => uncopied⟩
      · rw [turns, copiedBy_eq_nil uncopied]
        rfl
      · rw [turns, invoked]
        rfl
  · intro other publication state inside
    rcases cases other publication state inside with before | ⟨rfl, rfl, rfl⟩
    · obtain ⟨type, member, same⟩ := publishing.began other publication state before
      exact ⟨type, List.mem_append_left _ member, same⟩
    · refine ⟨type, by simp, fun other same => ?_⟩
      cases same
      rfl
  · intro other
    by_cases same : other = thread
    · subst same
      rw [here, List.map_cons, List.pairwise_cons]
      refine ⟨fun publication inside => ?_, publishing.nested other⟩
      obtain ⟨⟨inner, state⟩, member, rfl⟩ := List.mem_map.mp inside
      exact publishing.below_publications counted explained member
    · rw [elsewhere other same]
      exact publishing.nested other
  · exact fun publication => (publishing.ordered publication).concat (apart publication)
  · intro publication finished
    have before : .finished publication ∈ events := by simpa using finished
    obtain ⟨completed, outside⟩ := publishing.finished publication before
    refine ⟨completed.concat (apart publication), fun other state inside => ?_⟩
    rcases cases other publication state inside with old | ⟨_, rfl, _⟩
    · exact outside other state old
    · exact quiet _ before rfl
  · intro earlier member publication shown
    rw [publications]
    rcases List.mem_append.mp member with before | last
    · exact Nat.lt_succ_of_lt (publishing.begun earlier before publication shown)
    · rw [List.mem_singleton.mp last] at shown
      cases shown

section Moves

variable (explained : Explained Explains events)
include explained

/-- The other calls on the stacks have other numbers. -/
theorem Publishing.apart_of_others {later : PublishState} {below : List (Publication × PublishState)}
    (here : bus.publishes thread = (publication, state) :: below)
    (inside : (second, later) ∈ bus.publishes other)
    (others : other ≠ thread ∨ (second, later) ∈ below) : second ≠ publication := by
  rintro rfl
  by_cases same : other = thread
  · have under := others.resolve_left (not_not_intro same)
    have nested := publishing.nested thread
    rw [here, List.map_cons, List.pairwise_cons] at nested
    exact Nat.lt_irrefl _ (nested.1 second (List.mem_map_of_mem under))
  · obtain ⟨_, began, _⟩ := publishing.began other second later inside
    obtain ⟨_, also, _⟩ := publishing.began thread second state (by rw [here]; simp)
    exact same (began_unique explained began also).1

/-- A step of the innermost call of a thread; `later` is its state, if it has not returned. -/
theorem Publishing.advance {below : List (Publication × PublishState)}
    (here : bus.publishes thread = (publication, state) :: below) (later : Option PublishState)
    (counted : Counted events bus)
    (shown : event.publication? = some publication)
    (there : next.publishes thread = later.toList.map (publication, ·) ++ below)
    (elsewhere : ∀ other, other ≠ thread → next.publishes other = bus.publishes other)
    (publications : next.publications = bus.publications)
    (follows : ∀ state ∈ later, Follows (events ++ [event]) publication state ∧
      ∀ type, state ≠ .copy type)
    (returns : ∀ second, event = .finished second → later = none)
    (completed : later = none → Completed (events ++ [event]) publication) :
    Publishing (events ++ [event]) next := by
  have inner : (publication, state) ∈ bus.publishes thread := by
    rw [here]
    exact List.mem_cons_self
  have apart : ∀ second, second ≠ publication → event.publication? ≠ some second := by
    intro second differ same
    rw [shown] at same
    exact differ (Option.some.inj same).symm
  have cases : ∀ other second last, (second, last) ∈ next.publishes other →
      ((second, last) ∈ bus.publishes other ∧ second ≠ publication) ∨
        (other = thread ∧ second = publication ∧ last ∈ later) := by
    intro other second last inside
    by_cases same : other = thread
    · subst same
      rw [there] at inside
      rcases List.mem_append.mp inside with new | under
      · obtain ⟨state, member, pair⟩ := List.mem_map.mp new
        cases pair
        exact .inr ⟨rfl, rfl, Option.mem_toList.mp member⟩
      · have member : (second, last) ∈ bus.publishes other := by
          rw [here]
          exact List.mem_cons_of_mem _ under
        exact .inl ⟨member, publishing.apart_of_others explained here member (.inr under)⟩
    · rw [elsewhere other same] at inside
      exact .inl ⟨inside, publishing.apart_of_others explained here inside (.inl same)⟩
  constructor
  · intro other second last inside
    rcases cases other second last inside with ⟨before, differ⟩ | ⟨_, rfl, stays⟩
    · exact (publishing.follows other second last before).concat (apart second differ)
    · exact (follows last stays).1
  · intro other second last inside
    rcases cases other second last inside with ⟨before, _⟩ | ⟨rfl, rfl, stays⟩
    · obtain ⟨type, member, same⟩ := publishing.began other second last before
      exact ⟨type, List.mem_append_left _ member, same⟩
    · obtain ⟨type, member, _⟩ := publishing.began other second state inner
      exact ⟨type, List.mem_append_left _ member, fun type same =>
        absurd same ((follows last stays).2 type)⟩
  · intro other
    by_cases same : other = thread
    · subst same
      have nested := publishing.nested other
      rw [here, List.map_cons] at nested
      rw [there]
      cases later with
      | none => exact (List.pairwise_cons.mp nested).2
      | some last => exact nested
    · rw [elsewhere other same]
      exact publishing.nested other
  · intro second
    by_cases same : second = publication
    · rw [same]
      cases later with
      | none => exact (completed rfl).ordered
      | some last => exact (follows last rfl).1.ordered
    · exact (publishing.ordered second).concat (apart second same)
  · intro second finished
    by_cases same : second = publication
    · subst same
      have gone : later = none := by
        rcases List.mem_append.mp finished with before | last
        · exact absurd inner ((publishing.finished second before).2 thread state)
        · exact returns second (List.mem_singleton.mp last).symm
      refine ⟨completed gone, fun other last inside => ?_⟩
      rcases cases other second last inside with ⟨_, differ⟩ | ⟨_, _, stays⟩
      · exact differ rfl
      · rw [gone] at stays
        cases stays
    · have before : .finished second ∈ events := by
        refine (List.mem_append.mp finished).resolve_right fun last => ?_
        exact apart second same (by rw [← List.mem_singleton.mp last]; rfl)
      obtain ⟨done, outside⟩ := publishing.finished second before
      refine ⟨done.concat (apart second same), fun other last inside => ?_⟩
      rcases cases other second last inside with ⟨old, _⟩ | ⟨_, differ, _⟩
      · exact outside other last old
      · exact same differ
  · intro earlier member second named
    rw [publications]
    rcases List.mem_append.mp member with before | last
    · exact publishing.begun earlier before second named
    · rw [List.mem_singleton.mp last, shown] at named
      cases named
      exact publishing.below_publications counted explained inner

/-- A step after which the call is still on the stack. -/
theorem Publishing.stays {below : List Frame} {later : PublishState}
    (here : bus.publishes thread = (publication, state) :: below.filterMap Frame.publish?)
    (counted : Counted events bus) (shown : event.publication? = some publication)
    (open_ : ∀ second, event ≠ .finished second)
    (follows : Follows (events ++ [event]) publication later) (copied : ∀ type, later ≠ .copy type) :
    Publishing (events ++ [event]) (bus.setStack thread (.publish publication later :: below)) := by
  refine publishing.advance explained here (some later) counted shown publishes_setStack_self
    (fun _ => publishes_setStack_of_ne) rfl ?_ ?_ nofun
  · intro state same
    cases same
    exact ⟨follows, copied⟩
  · exact fun second returns => absurd returns (open_ second)

/-- The return of a call. -/
theorem Publishing.leaves {below : List Frame}
    (here : bus.publishes thread = (publication, state) :: below.filterMap Frame.publish?)
    (counted : Counted events bus)
    (completed : Completed (events ++ [.finished publication]) publication) :
    Publishing (events ++ [.finished publication]) (bus.setStack thread below) :=
  publishing.advance explained here none counted rfl publishes_setStack_self
    (fun _ => publishes_setStack_of_ne) rfl nofun (fun _ _ => rfl) fun _ => completed

end Moves

/-- Every step keeps all publications where their frames say they are. -/
theorem Publishing.step (consistent : Consistent events bus) (moved : EventBus.Step bus next event) :
    Publishing (events ++ [event]) next := by
  obtain ⟨counted, _, _, _, explained⟩ := consistent
  have follows : ∀ {thread publication state below},
      bus.threads thread = .publish publication state :: below →
      Follows events publication state := by
    intro thread publication state below here
    exact publishing.follows thread publication state (mem_publishes here)
  cases moved with
  | ignored | locked | appended | unknown | missed | deactivated | cleared | scanned | installed =>
      exact publishing.keep rfl (fun _ => rfl) rfl
  | called => exact publishing.keep rfl (publishes_setStack_of_same rfl) rfl
  | @returned thread result mutation below owns here =>
      refine publishing.keep rfl (publishes_setStack_of_same ?_) rfl
      rw [EventBus.publishes, here]
      rfl
  | began =>
      exact publishing.begin counted explained publishes_setStack_self
        (fun _ => publishes_setStack_of_ne) rfl
  | absent here | finished here =>
      refine publishing.leaves explained (publishes_of_here here) counted ?_
      exact (follows here).finish rfl rfl
  | copied here =>
      exact publishing.stays explained (publishes_of_here here) counted rfl nofun
        (follows here).copy nofun
  | @turned thread publication handler rest below here =>
      refine publishing.stays explained (publishes_of_here here) counted rfl nofun
        (follows here).turn ?_
      cases bus.active handler <;> exact nofun
  | invoked here =>
      exact publishing.stays explained (publishes_of_here here) counted rfl nofun
        (follows here).invoke nofun
  | handled here =>
      exact publishing.stays explained (publishes_of_here here) counted rfl nofun
        (follows here).handle nofun

end Publishing

/-- Nothing is published on a new bus. -/
theorem publishing_constructed : Publishing [] (EventBus.constructed : EventBus count) := by
  constructor
  · exact nofun
  · exact nofun
  · exact fun _ => List.Pairwise.nil
  · exact fun _ => ⟨List.nil_prefix, List.nil_prefix⟩
  · exact nofun
  · exact nofun

/-- Along every run each publication is where its frame says. -/
theorem publishing_of_runs (run : EventBus.Reached events bus) : Publishing events bus := by
  apply run.invariant Publishing publishing_constructed
  intro events bus choice next event prior publishing transition _
  exact publishing.step (consistent_of_runs prior) (EventBus.step_sound transition)

end MmoServer.Events
