import MmoServer.Semantics.Transition
import Mathlib.Logic.Function.Basic

/-!
# EventBus

Any thread calls Subscribe, Unsubscribe, Clear and Publish, and a handler that it
runs may call them again. What a thread has entered and not left is its stack. A
step is one locked section, one access to an active flag, one look into
`snapshots_`, or the entry into or the return from a handler; returning from a call
is folded into its last step. `nextId_` is read and written under `writeMutex_`
only, so its accesses are part of the sections.

A handler is its entry: what its body does is the choice of the run. Publish calls
are numbered as they begin, which the source does not do.
-/

namespace MmoServer.Events

open MmoServer.Semantics

abbrev EventTypeId := UInt32

/-- What a `HandlerPtr` points to. -/
abbrev HandlerRef := Nat

/-- The number of a Publish call. -/
abbrev Publication := Nat

/-- The id is a counter of 64 bits, which does not wrap around: Clear resets it, and
until then every subscription keeps its entry. -/
structure SubscriptionToken where
  id : Nat
  type : EventTypeId
deriving DecidableEq

def SubscriptionToken.valid (token : SubscriptionToken) : Bool := token.id != 0

/-- One registration: its id, and whether Publish may still call it. -/
structure HandlerEntry where
  id : Nat
  active : Bool
deriving DecidableEq

/-- A call that changes the topology. -/
inductive Mutation where
  | subscribe (type : EventTypeId)
  | unsubscribe (token : SubscriptionToken)
  | clear
deriving DecidableEq

/-- What such a call returns, with the handler it registered or deactivated. -/
inductive Result where
  | subscribed (handler : HandlerRef) (token : SubscriptionToken)
  | unsubscribed (token : SubscriptionToken) (handler : Option HandlerRef)
  | cleared
deriving DecidableEq

/-- Where the owner of `writeMutex_` is. -/
inductive Section where
  /-- Right behind the lock. -/
  | start (mutation : Mutation)
  /-- In the loop of RebuildSnapshot, with the handlers to come and those taken. -/
  | scan (type : EventTypeId) (rest snapshot : List HandlerRef) (result : Result)
  /-- At the return. -/
  | unlock (result : Result)

/-- Where a thread is in Publish. -/
inductive PublishState where
  /-- At the look into `snapshots_`. -/
  | copy (type : EventTypeId)
  /-- At the load of the next active flag. -/
  | next (rest : List HandlerRef)
  /-- At `handler->fn(eventRaw)`. -/
  | call (handler : HandlerRef) (rest : List HandlerRef)
  /-- Inside the handler. -/
  | running (handler : HandlerRef) (rest : List HandlerRef)

/-- A call that a thread has entered and not left. -/
inductive Frame where
  | mutate (mutation : Mutation)
  | publish (publication : Publication) (state : PublishState)

/-- Which thread moves, and how. -/
inductive Choice (count : Nat) where
  /-- A thread calls Subscribe, Unsubscribe or Clear. -/
  | call (thread : Fin count) (mutation : Mutation)
  /-- A thread calls Publish. -/
  | publish (thread : Fin count) (type : EventTypeId)
  /-- A thread takes the next step of its innermost call. -/
  | advance (thread : Fin count)

/-- What a step shows of itself. -/
inductive Event (count : Nat) where
  /-- Unsubscribe was called with an invalid token and returned. -/
  | ignored (thread : Fin count) (token : SubscriptionToken)
  | called (thread : Fin count) (mutation : Mutation)
  | locked (thread : Fin count)
  /-- Subscribe has drawn an id and appended its handler. -/
  | appended (thread : Fin count) (handler : HandlerRef) (token : SubscriptionToken)
  /-- Unsubscribe has found no handler with the id. -/
  | missed (thread : Fin count) (token : SubscriptionToken)
  /-- Unsubscribe has found a handler and reset its active flag. -/
  | deactivated (thread : Fin count) (token : SubscriptionToken) (handler : HandlerRef)
  | cleared (thread : Fin count)
  | scanned (thread : Fin count) (handler : HandlerRef)
  | installed (thread : Fin count) (type : EventTypeId)
  | returned (thread : Fin count) (result : Result)
  /-- Publish was called. -/
  | began (thread : Fin count) (publication : Publication) (type : EventTypeId)
  | copied (publication : Publication) (snapshot : List HandlerRef)
  /-- A handler's turn has come, and its active flag was loaded. -/
  | turn (publication : Publication) (handler : HandlerRef) (active : Bool)
  | invoked (publication : Publication) (handler : HandlerRef)
  /-- The handler has returned. -/
  | handled (publication : Publication) (handler : HandlerRef)
  /-- Publish returns. -/
  | finished (publication : Publication)
deriving DecidableEq

/-- The bus: the entries that have been made, the published lists of handlers and who holds the
write mutex. -/
structure EventBus (count : Nat) where
  entries : HandlerRef → HandlerEntry
  /-- How many entries have been made. -/
  allocated : Nat
  handlers : EventTypeId → Option (List HandlerRef)
  snapshots : EventTypeId → Option (List HandlerRef)
  nextId : Nat
  /-- The owner of the mutex, and where it is. -/
  writeMutex : Option (Fin count × Section)
  threads : Fin count → List Frame
  /-- How many Publish calls have begun. -/
  publications : Nat

namespace EventBus

variable {count : Nat}

/-- A bus that nobody has subscribed to. -/
def constructed : EventBus count where
  entries _ := { id := 0, active := false }
  allocated := 0
  handlers _ := none
  snapshots _ := none
  nextId := 1
  writeMutex := none
  threads _ := []
  publications := 0

/-- A thread is in no call, or in a handler. -/
def mayCall (bus : EventBus count) (thread : Fin count) : Bool :=
  match bus.threads thread with
  | [] | .publish _ (.running _ _) :: _ => true
  | _ => false

/-- The thread is in these calls now, the innermost first. -/
def setStack (bus : EventBus count) (thread : Fin count) (stack : List Frame) : EventBus count :=
  { bus with threads := Function.update bus.threads thread stack }

/-- The holder of the write mutex comes to a place in its critical section. -/
def setSection (bus : EventBus count) (thread : Fin count) (state : Section) : EventBus count :=
  { bus with writeMutex := some (thread, state) }

/-- EventBus::RebuildSnapshot, up to its first flag. -/
def rebuildSnapshot (bus : EventBus count) (type : EventTypeId) (result : Result) : Section :=
  match bus.handlers type with
  | none => .unlock result
  | some handlers => .scan type handlers [] result

/-- EventBus::SubscribeInternal, behind its lock. -/
def append (bus : EventBus count) (type : EventTypeId) : EventBus count :=
  { bus with
    entries := Function.update bus.entries bus.allocated { id := bus.nextId, active := true }
    allocated := bus.allocated + 1
    handlers := Function.update bus.handlers type
      (some ((bus.handlers type).getD [] ++ [bus.allocated]))
    nextId := bus.nextId + 1 }

/-- `handler->active.store(false)`. -/
def deactivate (bus : EventBus count) (handler : HandlerRef) : EventBus count :=
  { bus with
    entries := Function.update bus.entries handler { bus.entries handler with active := false } }

/-- EventBus::Clear, behind its lock. -/
def clear (bus : EventBus count) : EventBus count :=
  { bus with handlers := fun _ => none, snapshots := fun _ => none, nextId := 1 }

/-- `snapshots_[type] = std::move(snapshot)`. -/
def install (bus : EventBus count) (type : EventTypeId) (snapshot : List HandlerRef) :
    EventBus count :=
  { bus with snapshots := Function.update bus.snapshots type (some snapshot) }

/-- The owner of the mutex takes its next step; `below` is its stack without the call. -/
def sectionStep (bus : EventBus count) (thread : Fin count) (below : List Frame) :
    Section → EventBus count × Event count
  | .start (.subscribe type) =>
    let token := { id := bus.nextId, type }
    let entry := bus.allocated
    let next := bus.append type
    (next.setSection thread (next.rebuildSnapshot type (.subscribed entry token)),
      .appended thread entry token)
  | .start (.unsubscribe token) =>
    match bus.handlers token.type with
    | none => (bus.setSection thread (.unlock (.unsubscribed token none)), .missed thread token)
    | some handlers =>
      match handlers.find? fun handler => (bus.entries handler).id == token.id with
      | none =>
        (bus.setSection thread (bus.rebuildSnapshot token.type (.unsubscribed token none)),
          .missed thread token)
      | some handler =>
        let next := bus.deactivate handler
        (next.setSection thread (next.rebuildSnapshot token.type (.unsubscribed token (some handler))),
          .deactivated thread token handler)
  | .start .clear => (bus.clear.setSection thread (.unlock .cleared), .cleared thread)
  | .scan type (handler :: rest) snapshot result =>
    let taken := if (bus.entries handler).active then snapshot ++ [handler] else snapshot
    (bus.setSection thread (.scan type rest taken result), .scanned thread handler)
  | .scan type [] snapshot result =>
    ((bus.install type snapshot).setSection thread (.unlock result), .installed thread type)
  | .unlock result =>
    ({ bus with writeMutex := none }.setStack thread below, .returned thread result)

/-- EventBus::PublishInternal, its next step; `below` is the stack without the call. -/
def publishStep (bus : EventBus count) (thread : Fin count) (below : List Frame)
    (publication : Publication) : PublishState → EventBus count × Event count
  | .copy type =>
    match bus.snapshots type with
    | none => (bus.setStack thread below, .finished publication)
    | some snapshot =>
      (bus.setStack thread (.publish publication (.next snapshot) :: below),
        .copied publication snapshot)
  | .next [] => (bus.setStack thread below, .finished publication)
  | .next (handler :: rest) =>
    if (bus.entries handler).active then
      (bus.setStack thread (.publish publication (.call handler rest) :: below),
        .turn publication handler true)
    else
      (bus.setStack thread (.publish publication (.next rest) :: below),
        .turn publication handler false)
  | .call handler rest =>
    (bus.setStack thread (.publish publication (.running handler rest) :: below),
      .invoked publication handler)
  | .running handler rest =>
    (bus.setStack thread (.publish publication (.next rest) :: below),
      .handled publication handler)

/-- A thread enters a call, or goes on with its innermost one. -/
def step (bus : EventBus count) : Choice count → Option (EventBus count × Event count)
  | .call thread mutation =>
    if bus.mayCall thread then
      match mutation with
      | .unsubscribe token =>
        if token.valid then
          some (bus.setStack thread (.mutate (.unsubscribe token) :: bus.threads thread),
            .called thread (.unsubscribe token))
        else some (bus, .ignored thread token)
      | _ =>
        some (bus.setStack thread (.mutate mutation :: bus.threads thread), .called thread mutation)
    else none
  | .publish thread type =>
    if bus.mayCall thread then
      some ({ bus with publications := bus.publications + 1 }.setStack thread
          (.publish bus.publications (.copy type) :: bus.threads thread),
        .began thread bus.publications type)
    else none
  | .advance thread =>
    match bus.threads thread with
    | [] => none
    | .publish publication state :: below =>
      some (bus.publishStep thread below publication state)
    | .mutate mutation :: below =>
      match bus.writeMutex with
      | none => some (bus.setSection thread (.start mutation), .locked thread)
      | some (owner, state) =>
        if owner = thread then some (bus.sectionStep thread below state) else none

/-- The bus under any interleaving of its threads. -/
def system (count : Nat) : TransitionSystem (EventBus count) (Choice count) (Event count) where
  step := step

/-- What a run of a bus has emitted when it reaches a state. -/
abbrev Reached (events : List (Event count)) (bus : EventBus count) : Prop :=
  (system count).Runs constructed events bus

end EventBus
end MmoServer.Events
