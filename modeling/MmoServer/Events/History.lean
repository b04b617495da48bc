import MmoServer.Events.Topology
import MmoServer.Semantics.Explained

/-!
# The history of EventBus

`Explains` says of every event of a run what has happened before it, `Consistent`
what the events say about the state, and `consistent_of_runs` that both hold of
every run, whichever threads and handlers call the bus.
-/

namespace MmoServer.Events

open MmoServer.Semantics

variable {count : Nat} {events before after : List (Event count)} {event : Event count}
  {thread other : Fin count} {handler : HandlerRef} {token : SubscriptionToken}

namespace Event

/-- A handler has been appended by Subscribe. -/
@[simp] def appends : Event count → Bool
  | .appended _ _ _ => true
  | _ => false

/-- A callback has been entered. -/
@[simp] def begins : Event count → Bool
  | .began _ _ _ => true
  | _ => false

/-- The number an event gives out. -/
@[simp] def number : Event count → Nat
  | .appended _ handler _ => handler
  | .began _ publication _ => publication
  | _ => 0

/-- How many subscriptions there have been since the last Clear. -/
@[simp] def position (before : Nat) : Event count → Nat
  | .appended _ _ _ => before + 1
  | .cleared _ => 0
  | _ => before

end Event

/-- How many subscriptions there have been since the last Clear of a trace. -/
def sinceClear (events : List (Event count)) : Nat :=
  events.foldl (fun position event => event.position position) 0

@[simp] theorem sinceClear_concat :
    sinceClear (events ++ [event]) = event.position (sinceClear events) := by
  rw [sinceClear, List.foldl_append]
  rfl

/-- The handler was registered under the token, and no Clear has come since. -/
def Standing (events : List (Event count)) (handler : HandlerRef) (token : SubscriptionToken) : Prop :=
  ∃ before thread after, events = before ++ .appended thread handler token :: after ∧
    ∀ other, .cleared other ∉ after

/-- A Subscribe has returned the token for the handler. -/
def Subscribed (events : List (Event count)) (handler : HandlerRef)
    (token : SubscriptionToken) : Prop :=
  ∃ thread, .returned thread (.subscribed handler token) ∈ events

/-- Nothing undoes that Subscribe has returned. -/
theorem Subscribed.concat (subscribed : Subscribed events handler token) :
    Subscribed (events ++ [event]) handler token :=
  subscribed.imp fun _ member => List.mem_append_left _ member

/-- A subscription stands until it is cleared. -/
theorem Standing.concat (standing : Standing events handler token)
    (kept : ∀ other, event ≠ .cleared other) : Standing (events ++ [event]) handler token := by
  obtain ⟨before, thread, after, rfl, uncleared⟩ := standing
  refine ⟨before, thread, after ++ [event], by simp, fun other member => ?_⟩
  rcases List.mem_append.mp member with inside | last
  · exact uncleared other inside
  · exact kept other (List.mem_singleton.mp last).symm

/-- A standing subscription was appended. -/
theorem Standing.appended (standing : Standing events handler token) :
    ∃ thread, .appended thread handler token ∈ events := by
  obtain ⟨before, thread, after, rfl, _⟩ := standing
  exact ⟨thread, by simp⟩

/-! ## What explains an event -/

/-- What a trace says before an event. -/
def Explains (before : List (Event count)) : Event count → Prop
  | .appended _ handler token =>
      handler = tally Event.appends before ∧ token.id = 1 + sinceClear before
  | .deactivated thread token handler =>
      Standing before handler token ∧ Subscribed before handler token ∧
        .called thread (.unsubscribe token) ∈ before
  | .cleared thread => .called thread .clear ∈ before
  | .returned _ (.subscribed handler token) =>
      (∃ other, .appended other handler token ∈ before) ∧
        ∀ token, ¬ Subscribed before handler token
  | .began _ publication _ => publication = tally Event.begins before
  | _ => True

/-- The handlers are numbered in the order in which they are appended. -/
theorem appended_numbered : Numbered (@Explains count) Event.appends Event.number 0 := by
  intro before event explanation counts
  cases event with
  | appended => exact explanation.1.trans (Nat.zero_add _).symm
  | _ => cases counts

/-- The publications are numbered in the order in which they begin. -/
theorem began_numbered : Numbered (@Explains count) Event.begins Event.number 0 := by
  intro before event explanation counts
  cases event with
  | began => exact Eq.trans explanation (Nat.zero_add _).symm
  | _ => cases counts

section Explained

variable (explained : Explained Explains events)
include explained

/-- A handler is registered once. -/
theorem appended_unique {second : SubscriptionToken} (member : .appended thread handler token ∈ events)
    (also : .appended other handler second ∈ events) : token = second := by
  have same := appended_numbered.unique explained member also rfl rfl rfl
  cases same
  rfl

/-- A Publish call is begun once. -/
theorem began_unique {publication : Publication} {type also : EventTypeId}
    (member : .began thread publication type ∈ events)
    (second : .began other publication also ∈ events) : thread = other ∧ type = also := by
  have same := began_numbered.unique explained member second rfl rfl rfl
  cases same
  exact ⟨rfl, rfl⟩

/-- A returned subscription was appended. -/
theorem Subscribed.appended (subscribed : Subscribed events handler token) :
    ∃ thread, .appended thread handler token ∈ events := by
  obtain ⟨thread, member⟩ := subscribed
  obtain ⟨before, ⟨after, rfl⟩, ⟨other, appended⟩, _⟩ := explained.of_mem member
  exact ⟨other, List.mem_append_left _ appended⟩

end Explained

/-! ## What the events say about the state -/

/-- The result that the owner of the mutex will return, once it is settled. -/
def Section.result? : Section → Option Result
  | .start _ => none
  | .scan _ _ _ result => some result
  | .unlock result => some result

/-- A handler is running in the call. -/
def Frame.running : Frame → Prop
  | .publish _ (.running _ _) => True
  | _ => False

namespace EventBus

/-- The result of the call that holds the mutex, once it is settled. -/
def result? (bus : EventBus count) : Option Result := bus.writeMutex.bind fun owner => owner.2.result?

/-- Where nobody owns the mutex, nothing is to be returned. -/
theorem result?_of_free {bus : EventBus count} (free : bus.writeMutex = none) : bus.result? = none := by
  rw [result?, free, Option.bind_none]

/-- Otherwise it is what the owner will return. -/
theorem result?_of_owns {bus : EventBus count} {state : Section}
    (owns : bus.writeMutex = some (thread, state)) : bus.result? = state.result? := by
  rw [result?, owns, Option.bind_some]

end EventBus

variable {bus next : EventBus count}

/-- The counters count. -/
structure Counted (events : List (Event count)) (bus : EventBus count) : Prop where
  allocated : bus.allocated = tally Event.appends events
  nextId : bus.nextId = 1 + sinceClear events
  publications : bus.publications = tally Event.begins events

/-- Where the threads are. -/
structure Calling (events : List (Event count)) (bus : EventBus count) : Prop where
  called : ∀ thread mutation, .mutate mutation ∈ bus.threads thread →
    .called thread mutation ∈ events
  owner : ∀ thread state, bus.writeMutex = some (thread, state) →
    (∃ mutation below, bus.threads thread = .mutate mutation :: below) ∧
      ∀ mutation, state = .start mutation → .called thread mutation ∈ events
  inner : ∀ thread, ∀ frame ∈ (bus.threads thread).tail, frame.running

/-- What is in the lists has been appended, and stays there until a Clear. -/
structure Registered (events : List (Event count)) (bus : EventBus count) : Prop where
  ids : ∀ thread handler token, .appended thread handler token ∈ events →
    bus.idOf handler = token.id
  standing : ∀ type, ∀ handler ∈ bus.handlersOf type,
    Standing events handler { id := bus.idOf handler, type }
  kept : (∀ thread, .cleared thread ∉ events) → ∀ thread handler token,
    .appended thread handler token ∈ events → handler ∈ bus.handlersOf token.type
  inactive : ∀ handler < bus.allocated, bus.active handler = false →
    ∃ thread token, .deactivated thread token handler ∈ events

/-- A subscription is appended and then returned, once. -/
structure Returning (events : List (Event count)) (bus : EventBus count) : Prop where
  settled : ∀ handler token, bus.result? = some (.subscribed handler token) →
    (∃ thread, .appended thread handler token ∈ events) ∧ ∀ token, ¬ Subscribed events handler token
  waiting : ∀ thread handler token, .appended thread handler token ∈ events →
    Subscribed events handler token ∨ bus.result? = some (.subscribed handler token)

/-- What a trace says about the state it leads to. -/
structure Consistent (events : List (Event count)) (bus : EventBus count) : Prop where
  counted : Counted events bus
  calling : Calling events bus
  registered : Registered events bus
  returning : Returning events bus
  explained : Explained Explains events

/-! ## Counters -/

/-- Events that count nothing. -/
theorem Counted.keep (counted : Counted events bus) (appends : event.appends = false)
    (begins : event.begins = false) (position : ∀ before, event.position before = before)
    (allocated : next.allocated = bus.allocated) (nextId : next.nextId = bus.nextId)
    (publications : next.publications = bus.publications) : Counted (events ++ [event]) next := by
  constructor
  · rw [allocated, counted.allocated, tally_concat, appends]
    rfl
  · rw [nextId, counted.nextId, sinceClear_concat, position]
  · rw [publications, counted.publications, tally_concat, begins]
    rfl

/-- Every step keeps the two counters in step with the history. -/
theorem Counted.step (counted : Counted events bus) (moved : EventBus.Step bus next event) :
    Counted (events ++ [event]) next := by
  cases moved with
  | ignored | called | locked | unknown | missed | deactivated | scanned | installed | returned
  | absent | copied | turned | invoked | handled | finished =>
      exact counted.keep rfl rfl (fun _ => rfl) rfl rfl rfl
  | began =>
      refine ⟨?_, ?_, ?_⟩
      · rw [tally_concat, ← counted.allocated]
        rfl
      · rw [sinceClear_concat]
        exact counted.nextId
      · rw [tally_concat, ← counted.publications]
        rfl
  | appended =>
      refine ⟨?_, ?_, ?_⟩
      · rw [tally_concat, ← counted.allocated]
        rfl
      · rw [sinceClear_concat]
        exact congrArg (· + 1) counted.nextId
      · rw [tally_concat, ← counted.publications]
        rfl
  | cleared =>
      refine ⟨?_, ?_, ?_⟩
      · rw [tally_concat, ← counted.allocated]
        rfl
      · rw [sinceClear_concat]
        rfl
      · rw [tally_concat, ← counted.publications]
        rfl

/-! ## Calls -/

section Calling

variable (calling : Calling events bus)
include calling

/-- The owner of the mutex is in the call that took it. -/
theorem Calling.not_owner {state : Section} (owns : bus.writeMutex = some (other, state))
    (outside : ∀ mutation below, bus.threads thread ≠ .mutate mutation :: below) :
    other ≠ thread := by
  rintro rfl
  obtain ⟨⟨mutation, below, here⟩, _⟩ := calling.owner other state owns
  exact outside mutation below here

/-- A step that changes the stack of one thread, which does not own the mutex after it. -/
theorem Calling.restack {stack : List Frame}
    (threads : next.threads = Function.update bus.threads thread stack)
    (called : ∀ mutation, .mutate mutation ∈ stack →
      .mutate mutation ∈ bus.threads thread ∨ event = .called thread mutation)
    (owner : ∀ other state, next.writeMutex = some (other, state) →
      bus.writeMutex = some (other, state) ∧ other ≠ thread)
    (inner : ∀ frame ∈ stack.tail, frame.running) : Calling (events ++ [event]) next := by
  constructor
  · intro other mutation inside
    rw [threads] at inside
    by_cases same : other = thread
    · subst same
      rw [Function.update_self] at inside
      rcases called mutation inside with before | rfl
      · exact List.mem_append_left _ (calling.called other mutation before)
      · simp
    · rw [Function.update_of_ne same] at inside
      exact List.mem_append_left _ (calling.called other mutation inside)
  · intro other state owns
    obtain ⟨before, apart⟩ := owner other state owns
    obtain ⟨here, start⟩ := calling.owner other state before
    rw [threads, Function.update_of_ne apart]
    exact ⟨here, fun mutation begins => List.mem_append_left _ (start mutation begins)⟩
  · intro other frame inside
    rw [threads] at inside
    by_cases same : other = thread
    · subst same
      rw [Function.update_self] at inside
      exact inner frame inside
    · rw [Function.update_of_ne same] at inside
      exact calling.inner other frame inside

/-- A step of the owner of the mutex. -/
theorem Calling.advance {mutation : Mutation} {below : List Frame} {state : Section}
    (threads : next.threads = bus.threads) (here : bus.threads thread = .mutate mutation :: below)
    (owns : next.writeMutex = some (thread, state))
    (start : ∀ mutation, state = .start mutation → .called thread mutation ∈ events) :
    Calling (events ++ [event]) next := by
  constructor
  · intro other mutation inside
    rw [threads] at inside
    exact List.mem_append_left _ (calling.called other mutation inside)
  · intro other later ownsLater
    rw [owns] at ownsLater
    cases ownsLater
    rw [threads]
    exact ⟨⟨_, _, here⟩, fun mutation begins => List.mem_append_left _ (start mutation begins)⟩
  · intro other frame inside
    rw [threads] at inside
    exact calling.inner other frame inside

/-- A thread that may call is in no call, or in a handler. -/
theorem Calling.running_of_mayCall (may : bus.mayCall thread = true) :
    (∀ frame ∈ bus.threads thread, frame.running) ∧
      ∀ mutation below, bus.threads thread ≠ .mutate mutation :: below := by
  have inner := calling.inner thread
  unfold EventBus.mayCall at may
  split at may
  · next empty =>
    rw [empty]
    exact ⟨nofun, nofun⟩
  · next here =>
    rw [here] at inner ⊢
    refine ⟨fun frame inside => ?_, nofun⟩
    rcases List.mem_cons.mp inside with rfl | below
    · trivial
    · exact inner frame below
  · cases may

/-- A call that is made. -/
theorem Calling.push {frame : Frame} (may : bus.mayCall thread = true)
    (threads : next.threads = Function.update bus.threads thread (frame :: bus.threads thread))
    (mutex : next.writeMutex = bus.writeMutex)
    (called : ∀ mutation, frame = .mutate mutation → event = .called thread mutation) :
    Calling (events ++ [event]) next := by
  obtain ⟨running, outside⟩ := calling.running_of_mayCall may
  refine calling.restack threads ?_ ?_ running
  · intro mutation inside
    rcases List.mem_cons.mp inside with here | before
    · exact .inr (called mutation here.symm)
    · exact .inl before
  · intro other state owns
    rw [mutex] at owns
    exact ⟨owns, calling.not_owner owns outside⟩

/-- A step of the innermost Publish of a thread. -/
theorem Calling.publish {publication : Publication} {state : PublishState} {below stack : List Frame}
    (here : bus.threads thread = .publish publication state :: below)
    (threads : next.threads = Function.update bus.threads thread stack)
    (mutex : next.writeMutex = bus.writeMutex)
    (left : stack = below ∨ ∃ later, stack = .publish publication later :: below) :
    Calling (events ++ [event]) next := by
  have inner := calling.inner thread
  rw [here] at inner
  refine calling.restack threads ?_ ?_ ?_
  · intro mutation inside
    rw [here]
    rcases left with rfl | ⟨later, rfl⟩
    · exact .inl (List.mem_cons_of_mem _ inside)
    · exact .inl (List.mem_cons_of_mem _ (by simpa using inside))
  · intro other state owns
    rw [mutex] at owns
    exact ⟨owns, calling.not_owner owns (by simp [here])⟩
  · intro frame inside
    rcases left with rfl | ⟨later, rfl⟩
    · exact inner frame (List.mem_of_mem_tail inside)
    · exact inner frame inside

/-- Every step keeps the entered callbacks on the stacks. -/
theorem Calling.step (moved : EventBus.Step bus next event) : Calling (events ++ [event]) next := by
  cases moved with
  | ignored =>
      refine ⟨fun other mutation inside => ?_, fun other state owns => ?_, calling.inner⟩
      · exact List.mem_append_left _ (calling.called other mutation inside)
      · obtain ⟨here, start⟩ := calling.owner other state owns
        exact ⟨here, fun mutation begins => List.mem_append_left _ (start mutation begins)⟩
  | called may =>
      refine calling.push may rfl rfl ?_
      intro mutation same
      cases same
      rfl
  | began may => exact calling.push may rfl rfl nofun
  | @locked thread mutation below here free =>
      refine calling.advance rfl here rfl ?_
      intro started same
      cases same
      exact calling.called thread mutation (by simp [here])
  | appended owns | unknown owns | missed owns | deactivated owns | cleared owns | scanned owns
  | installed owns =>
      obtain ⟨⟨mutation, below, here⟩, _⟩ := calling.owner _ _ owns
      exact calling.advance rfl here rfl nofun
  | @returned thread result mutation below owns here =>
      have inner := calling.inner thread
      rw [here] at inner
      refine calling.restack rfl ?_ nofun fun frame inside => inner frame (List.mem_of_mem_tail inside)
      intro mutation inside
      rw [here]
      exact .inl (List.mem_cons_of_mem _ inside)
  | absent here | finished here => exact calling.publish here rfl rfl (.inl rfl)
  | copied here | turned here | invoked here | handled here =>
      exact calling.publish here rfl rfl (.inr ⟨_, rfl⟩)

end Calling

/-! ## Registrations -/

section Registered

variable (registered : Registered events bus)
include registered

/-- A step that leaves the lists and the entries alone. -/
theorem Registered.keep (entries : next.entries = bus.entries)
    (allocated : next.allocated = bus.allocated) (handlers : next.handlers = bus.handlers)
    (appended : ∀ thread handler token, event ≠ .appended thread handler token)
    (cleared : ∀ thread, event ≠ .cleared thread) : Registered (events ++ [event]) next := by
  have lists : next.handlersOf = bus.handlersOf := by
    funext type
    rw [EventBus.handlersOf, EventBus.handlersOf, handlers]
  have ids : next.idOf = bus.idOf := by
    funext handler
    rw [EventBus.idOf, EventBus.idOf, entries]
  have flags : next.active = bus.active := by
    funext handler
    rw [EventBus.active, EventBus.active, entries]
  have before : ∀ {thread handler token}, .appended thread handler token ∈ events ++ [event] →
      .appended thread handler token ∈ events := by
    intro thread handler token member
    exact (List.mem_append.mp member).resolve_right fun last =>
      appended thread handler token (List.mem_singleton.mp last).symm
  constructor
  · intro thread handler token member
    rw [ids]
    exact registered.ids thread handler token (before member)
  · intro type handler member
    rw [lists] at member
    rw [ids]
    exact (registered.standing type handler member).concat cleared
  · intro uncleared thread handler token member
    rw [lists]
    refine registered.kept (fun other inside => ?_) thread handler token (before member)
    exact uncleared other (List.mem_append_left _ inside)
  · intro handler below inactive
    rw [allocated] at below
    rw [flags] at inactive
    obtain ⟨thread, token, member⟩ := registered.inactive handler below inactive
    exact ⟨thread, token, List.mem_append_left _ member⟩

/-- The handler of a new subscription enters the lists. -/
theorem Registered.append {type : EventTypeId} (topology : bus.Topology)
    (old : ∀ thread handler token, .appended thread handler token ∈ events → handler < bus.allocated)
    {state : Section} :
    Registered (events ++ [.appended thread bus.allocated { id := bus.nextId, type }])
      ((bus.append type).setSection thread state) := by
  have apart : ∀ handler < bus.allocated, (bus.append type).entries handler = bus.entries handler :=
    fun handler below => EventBus.entries_append_of_ne (Nat.ne_of_lt below)
  constructor
  · intro other handler token member
    rw [EventBus.idOf_setSection, EventBus.idOf]
    rcases List.mem_append.mp member with before | last
    · rw [apart handler (old other handler token before)]
      exact registered.ids other handler token before
    · cases List.mem_singleton.mp last
      rw [EventBus.entries_append_allocated]
  · intro other handler member
    rw [EventBus.handlersOf_setSection, EventBus.mem_handlersOf_append] at member
    rw [EventBus.idOf_setSection, EventBus.idOf]
    rcases member with before | ⟨rfl, rfl⟩
    · rw [topology.entries_append before]
      exact (registered.standing other handler before).concat (by simp)
    · rw [EventBus.entries_append_allocated]
      exact ⟨events, thread, [], rfl, by simp⟩
  · intro uncleared other handler token member
    rw [EventBus.handlersOf_setSection, EventBus.mem_handlersOf_append]
    rcases List.mem_append.mp member with before | last
    · refine .inl (registered.kept (fun third inside => ?_) other handler token before)
      exact uncleared third (List.mem_append_left _ inside)
    · cases List.mem_singleton.mp last
      exact .inr ⟨rfl, rfl⟩
  · intro handler below inactive
    rw [EventBus.active_setSection, EventBus.active] at inactive
    rcases Nat.lt_succ_iff_lt_or_eq.mp below with before | rfl
    · rw [apart handler before] at inactive
      obtain ⟨other, token, member⟩ := registered.inactive handler before inactive
      exact ⟨other, token, List.mem_append_left _ member⟩
    · rw [EventBus.entries_append_allocated] at inactive
      cases inactive

/-- Clearing a flag keeps the registered handlers those of the history. -/
theorem Registered.deactivate {state : Section} :
    Registered (events ++ [.deactivated thread token handler])
      ((bus.deactivate handler).setSection thread state) := by
  have ids : (bus.deactivate handler).idOf = bus.idOf := funext fun _ => EventBus.idOf_deactivate
  constructor
  · intro other second named member
    rw [EventBus.idOf_setSection, ids]
    exact registered.ids other second named (by simpa using member)
  · intro type second member
    rw [EventBus.idOf_setSection, ids]
    exact (registered.standing type second member).concat nofun
  · intro uncleared other second named member
    refine registered.kept (fun third inside => ?_) other second named (by simpa using member)
    exact uncleared third (List.mem_append_left _ inside)
  · intro second below inactive
    rw [EventBus.active_setSection, EventBus.active_deactivate] at inactive
    by_cases same : second = handler
    · subst same
      exact ⟨thread, token, by simp⟩
    · have before : bus.active second = false := by simpa [same] using inactive
      obtain ⟨other, named, member⟩ := registered.inactive second below before
      exact ⟨other, named, List.mem_append_left _ member⟩

/-- Every step keeps the registered handlers those of the history. -/
theorem Registered.step (topology : bus.Topology) (counted : Counted events bus)
    (explained : Explained Explains events) (moved : EventBus.Step bus next event) :
    Registered (events ++ [event]) next := by
  cases moved with
  | ignored | called | began | locked | unknown | missed | scanned | installed | returned
  | absent | copied | turned | invoked | handled | finished =>
      exact registered.keep rfl rfl rfl nofun nofun
  | appended =>
      refine registered.append topology fun thread handler token member => ?_
      rw [counted.allocated]
      have bound := (appended_numbered.bounds explained member rfl).2
      rwa [Nat.zero_add] at bound
  | deactivated => exact registered.deactivate
  | @cleared thread owns =>
      constructor
      · intro other handler token member
        exact registered.ids other handler token (by simpa using member)
      · simp [EventBus.clear, EventBus.setSection, EventBus.handlersOf]
      · intro uncleared
        exact absurd (by simp) (uncleared thread)
      · intro handler below inactive
        obtain ⟨other, token, member⟩ := registered.inactive handler below inactive
        exact ⟨other, token, List.mem_append_left _ member⟩

end Registered

/-! ## Results -/

section Returning

variable (returning : Returning events bus)
include returning

/-- A step that settles and returns no subscription. -/
theorem Returning.keep
    (result : ∀ handler token, next.result? = some (.subscribed handler token) ↔
      bus.result? = some (.subscribed handler token))
    (appended : ∀ thread handler token, event ≠ .appended thread handler token)
    (returned : ∀ thread handler token, event ≠ .returned thread (.subscribed handler token)) :
    Returning (events ++ [event]) next := by
  constructor
  · intro handler token settled
    obtain ⟨⟨thread, member⟩, unreturned⟩ := returning.settled handler token ((result ..).mp settled)
    refine ⟨⟨thread, List.mem_append_left _ member⟩, ?_⟩
    rintro named ⟨other, inside⟩
    rcases List.mem_append.mp inside with before | last
    · exact unreturned named ⟨other, before⟩
    · exact returned other handler named (List.mem_singleton.mp last).symm
  · intro thread handler token member
    have before : .appended thread handler token ∈ events :=
      (List.mem_append.mp member).resolve_right fun last =>
        appended thread handler token (List.mem_singleton.mp last).symm
    rcases returning.waiting thread handler token before with subscribed | settled
    · exact .inl subscribed.concat
    · exact .inr ((result ..).mpr settled)

/-- Behind its lock a Subscribe settles its result. -/
theorem Returning.append (unsettled : bus.result? = none)
    (settled : next.result? = some (.subscribed handler token))
    (new : ∀ token, ¬ Subscribed events handler token) :
    Returning (events ++ [.appended thread handler token]) next := by
  constructor
  · intro second named same
    rw [settled] at same
    cases same
    refine ⟨⟨thread, by simp⟩, ?_⟩
    rintro other ⟨third, inside⟩
    exact new other ⟨third, by simpa using inside⟩
  · intro other second named member
    rcases List.mem_append.mp member with before | last
    · rcases returning.waiting other second named before with subscribed | waits
      · exact .inl subscribed.concat
      · rw [unsettled] at waits
        cases waits
    · cases List.mem_singleton.mp last
      exact .inr settled

/-- The owner returns what it was to return. -/
theorem Returning.leave {result : Result} (settled : bus.result? = some result)
    (free : next.result? = none) : Returning (events ++ [.returned thread result]) next := by
  constructor
  · intro handler token same
    rw [free] at same
    cases same
  · intro other handler token member
    have before : .appended other handler token ∈ events := by simpa using member
    rcases returning.waiting other handler token before with subscribed | waits
    · exact .inl subscribed.concat
    · rw [settled] at waits
      cases waits
      exact .inl ⟨thread, by simp⟩

/-- Every step keeps what is to be returned explained by the history. -/
theorem Returning.step (counted : Counted events bus) (explained : Explained Explains events)
    (moved : EventBus.Step bus next event) : Returning (events ++ [event]) next := by
  cases moved with
  | ignored | called | began | absent | copied | turned | invoked | handled | finished =>
      exact returning.keep (fun _ _ => Iff.rfl) (by simp) (by simp)
  | locked here free =>
      refine returning.keep (fun handler token => ?_) (by simp) (by simp)
      rw [EventBus.result?_of_free free]
      exact Iff.rfl
  | unknown owns | missed owns | deactivated owns | cleared owns =>
      refine returning.keep (fun handler token => ?_) (by simp) (by simp)
      rw [EventBus.result?_of_owns owns]
      simp [EventBus.result?, EventBus.setSection, Section.result?]
  | scanned owns | installed owns =>
      refine returning.keep (fun handler token => ?_) (by simp) (by simp)
      rw [EventBus.result?_of_owns owns]
      exact Iff.rfl
  | appended owns =>
      refine returning.append (EventBus.result?_of_owns owns) rfl ?_
      intro token subscribed
      obtain ⟨thread, member⟩ := subscribed.appended explained
      have bound := (appended_numbered.bounds explained member rfl).2
      rw [Nat.zero_add, ← counted.allocated] at bound
      exact Nat.lt_irrefl _ bound
  | returned owns =>
      exact returning.leave (EventBus.result?_of_owns owns) rfl

end Returning

/-! ## Every run is consistent -/

/-- Every step is explained by what has happened before. -/
theorem Consistent.explains (consistent : Consistent events bus)
    (moved : EventBus.Step bus next event) : Explains events event := by
  obtain ⟨counted, calling, registered, returning, explained⟩ := consistent
  cases moved with
  | ignored | called | locked | unknown | missed | scanned | installed | absent | copied | turned
  | invoked | handled | finished => trivial
  | began => exact counted.publications
  | appended => exact ⟨counted.allocated, counted.nextId⟩
  | @deactivated thread token handlers handler owns there found =>
      obtain ⟨inside, same⟩ := EventBus.mem_of_found there found
      have standing := registered.standing token.type handler inside
      rw [same] at standing
      obtain ⟨other, appended⟩ := standing.appended
      refine ⟨standing, ?_, (calling.owner thread _ owns).2 _ rfl⟩
      rcases returning.waiting other handler token appended with subscribed | waits
      · exact subscribed
      · rw [EventBus.result?_of_owns owns] at waits
        cases waits
  | @cleared thread owns => exact (calling.owner thread _ owns).2 _ rfl
  | @returned thread result mutation below owns here =>
      cases result with
      | subscribed handler token =>
          exact returning.settled handler token (EventBus.result?_of_owns owns)
      | unsubscribed | cleared => trivial

/-- Every step keeps the bus consistent with its history. -/
theorem Consistent.step (consistent : Consistent events bus) (topology : bus.Topology)
    (moved : EventBus.Step bus next event) : Consistent (events ++ [event]) next where
  counted := consistent.counted.step moved
  calling := consistent.calling.step moved
  registered := consistent.registered.step topology consistent.counted consistent.explained moved
  returning := consistent.returning.step consistent.counted consistent.explained moved
  explained := explained_concat.mpr ⟨consistent.explained, consistent.explains moved⟩

/-- A new bus is consistent with the empty history. -/
theorem consistent_constructed : Consistent [] (EventBus.constructed : EventBus count) where
  counted := ⟨rfl, rfl, rfl⟩
  calling := ⟨nofun, nofun, nofun⟩
  registered := ⟨nofun, nofun, nofun, nofun⟩
  returning := ⟨nofun, nofun⟩
  explained := explained_nil

/-- Every run is consistent with its history. -/
theorem consistent_of_runs (run : EventBus.Reached events bus) : Consistent events bus := by
  apply run.invariant Consistent consistent_constructed
  intro events bus choice next event prior consistent transition _
  exact consistent.step (EventBus.topology_of_runs prior) (EventBus.step_sound transition)

end MmoServer.Events
