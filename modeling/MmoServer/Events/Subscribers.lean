import MmoServer.Events.History

/-!
# The bus as a list of subscribers

To its callers a bus is a list of subscriptions: a Subscribe appends one, an
Unsubscribe takes out the one with its token, a Clear takes out all. `Refines` says
that the live handlers of every type are the subscriptions of that type, in their
order, as soon as the call that holds the mutex has settled its result.
-/

namespace MmoServer.Events

open MmoServer.Semantics

/-- A token, and the handler that Subscribe returned it for. -/
structure Subscription where
  token : SubscriptionToken
  handler : HandlerRef
deriving DecidableEq

/-- What a call does to the subscriptions. -/
def Result.apply (subscribers : List Subscription) : Result → List Subscription
  | .subscribed handler token => subscribers ++ [{ token, handler }]
  | .unsubscribed token _ => subscribers.filter fun subscription => subscription.token != token
  | .cleared => []

/-- The subscriptions of a type. -/
def ofType (type : EventTypeId) (subscribers : List Subscription) : List Subscription :=
  subscribers.filter fun subscription => subscription.token.type == type

variable {count : Nat} {events : List (Event count)} {event : Event count} {bus next : EventBus count}
  {thread : Fin count} {handler : HandlerRef} {token : SubscriptionToken} {type : EventTypeId}
  {subscribers : List Subscription}

/-- What an event does to the subscriptions: a call takes effect where it returns. -/
def Event.apply (subscribers : List Subscription) : Event count → List Subscription
  | .returned _ result => result.apply subscribers
  | _ => subscribers

/-- The subscriptions after a trace. -/
def subscribersAfter (events : List (Event count)) : List Subscription :=
  events.foldl (fun subscribers event => event.apply subscribers) []

/-- The handlers subscribed to a type after a trace, in the order of their subscription. -/
def subscribersOf (type : EventTypeId) (events : List (Event count)) : List HandlerRef :=
  (ofType type (subscribersAfter events)).map Subscription.handler

theorem subscribersAfter_concat :
    subscribersAfter (events ++ [event]) = event.apply (subscribersAfter events) := by
  rw [subscribersAfter, List.foldl_append]
  rfl

theorem ofType_append {later : List Subscription} :
    ofType type (subscribers ++ later) = ofType type subscribers ++ ofType type later :=
  List.filter_append ..

/-! ## The refinement -/

namespace EventBus

/-- The subscription of a handler of a type. -/
def subscription (bus : EventBus count) (type : EventTypeId) (handler : HandlerRef) : Subscription :=
  { token := { id := bus.idOf handler, type }, handler }

/-- The subscriptions with the result that is settled but not yet returned. -/
def settle (bus : EventBus count) (subscribers : List Subscription) : List Subscription :=
  match bus.result? with
  | none => subscribers
  | some result => result.apply subscribers

/-- The live handlers are the subscriptions. -/
def Refines (bus : EventBus count) (subscribers : List Subscription) : Prop :=
  ∀ type, ofType type (bus.settle subscribers) = (bus.liveOf type).map (bus.subscription type)

theorem settle_of_none (unsettled : bus.result? = none) : bus.settle subscribers = subscribers := by
  rw [settle, unsettled]

theorem settle_of_some {result : Result} (settled : bus.result? = some result) :
    bus.settle subscribers = result.apply subscribers := by
  rw [settle, settled]

/-- A step that leaves the lists, the entries and the result alone. -/
theorem Refines.keep (refines : bus.Refines subscribers) (entries : next.entries = bus.entries)
    (handlers : next.handlers = bus.handlers)
    (same : next.result? = bus.result?) : next.Refines subscribers := by
  have live : next.liveOf = bus.liveOf := by
    funext type
    rw [liveOf, liveOf, handlersOf, handlersOf, handlers]
    refine congrArg (List.filter · _) (funext fun handler => ?_)
    rw [active, active, entries]
  have subscription : next.subscription = bus.subscription := by
    funext type handler
    rw [subscription, subscription, idOf, idOf, entries]
  intro type
  rw [settle, same, live, subscription]
  exact refines type

/-- A Subscribe that settles its result. -/
theorem Refines.append {state : Section} (refines : bus.Refines subscribers) (topology : bus.Topology)
    (unsettled : bus.result? = none)
    (settled : ((bus.append type).setSection thread state).result? =
      some (.subscribed bus.allocated { id := bus.nextId, type })) :
    ((bus.append type).setSection thread state).Refines subscribers := by
  intro other
  have before := refines other
  rw [settle_of_none unsettled] at before
  have old : ∀ handler ∈ bus.liveOf other,
      (bus.append type).subscription other handler = bus.subscription other handler := by
    intro handler live
    rw [subscription, subscription, idOf, idOf, topology.entries_append (mem_liveOf.mp live).1]
  rw [settle_of_some settled, Result.apply, ofType_append, before, liveOf_setSection]
  by_cases same : other = type
  · subst same
    rw [topology.liveOf_append_self, List.map_append]
    congr 1
    · exact (List.map_congr_left old).symm
    · simp [ofType, subscription, idOf, setSection, entries_append_allocated]
  · rw [topology.liveOf_append_of_ne same]
    have none :
        ofType other [{ token := { id := bus.nextId, type }, handler := bus.allocated }] = [] := by
      simp [ofType, Ne.symm same]
    rw [none, List.append_nil]
    exact (List.map_congr_left old).symm

/-- An Unsubscribe that settles its result: the handlers with its token are live no longer. -/
theorem Refines.unsubscribe {found : Option HandlerRef} (refines : bus.Refines subscribers)
    (unsettled : bus.result? = none) (settled : next.result? = some (.unsubscribed token found))
    (ids : next.idOf = bus.idOf)
    (live : ∀ type, next.liveOf type =
      (bus.liveOf type).filter fun handler => (bus.subscription type handler).token != token) :
    next.Refines subscribers := by
  intro type
  have before := refines type
  rw [settle_of_none unsettled] at before
  have subscription : next.subscription = bus.subscription := by
    funext type handler
    rw [subscription, subscription, ids]
  rw [settle_of_some settled, Result.apply, ofType, List.filter_comm]
  change (ofType type subscribers).filter _ = _
  rw [before, live, subscription, List.filter_map]
  rfl

/-- What an Unsubscribe does to the handlers of a type: those with its token, at most one,
are live no longer. -/
theorem Topology.liveOf_of_token (topology : bus.Topology)
    (inside : handler ∈ bus.handlersOf token.type)
    (same : bus.idOf handler = token.id) : (bus.deactivate handler).liveOf type =
      (bus.liveOf type).filter fun second => (bus.subscription type second).token != token := by
  rw [liveOf, liveOf, List.filter_filter, handlersOf_deactivate]
  refine List.filter_congr fun second member => ?_
  have names : (bus.subscription type second).token = token ↔ second = handler := by
    constructor
    · rintro rfl
      exact topology.eq_of_idOf member inside same.symm
    · rintro rfl
      rw [subscription, same, topology.disjoint type token.type second member inside]
  rw [active_deactivate, Bool.and_comm]
  congr 1
  rw [Bool.eq_iff_iff, bne_iff_ne, bne_iff_ne]
  exact (not_congr names).symm

/-- An Unsubscribe that finds nothing leaves everything live. -/
theorem liveOf_of_missing
    (missing : ∀ handler ∈ bus.handlersOf token.type, bus.idOf handler ≠ token.id) :
    bus.liveOf type =
      (bus.liveOf type).filter fun handler => (bus.subscription type handler).token != token := by
  refine (List.filter_eq_self.mpr fun handler live => ?_).symm
  rw [bne_iff_ne]
  rintro rfl
  exact missing handler (mem_liveOf.mp live).1 rfl

/-- Every step keeps the subscriptions of its run and the live handlers together. -/
theorem Refines.step (refines : bus.Refines (subscribersAfter events)) (topology : bus.Topology)
    (moved : Step bus next event) : next.Refines (subscribersAfter (events ++ [event])) := by
  rw [subscribersAfter_concat]
  cases moved with
  | ignored | called | began | absent | copied | turned | invoked | handled | finished =>
      exact refines.keep rfl rfl rfl
  | locked here free => exact refines.keep rfl rfl (result?_of_free free).symm
  | scanned owns | installed owns => exact refines.keep rfl rfl (result?_of_owns owns).symm
  | appended owns =>
      exact refines.append topology (result?_of_owns owns) rfl
  | @unknown thread token owns empty =>
      have missing : ∀ handler ∈ bus.handlersOf token.type, bus.idOf handler ≠ token.id := by
        simp [handlersOf, empty]
      exact refines.unsubscribe (result?_of_owns owns) rfl rfl fun _ => liveOf_of_missing missing
  | @missed thread token handlers owns registered missing =>
      rw [← handlersOf_of_registered registered] at missing
      exact refines.unsubscribe (result?_of_owns owns) rfl rfl fun _ => liveOf_of_missing missing
  | @deactivated thread token handlers handler owns registered found =>
      obtain ⟨inside, same⟩ := mem_of_found registered found
      refine refines.unsubscribe (result?_of_owns owns) rfl ?_ fun type => ?_
      · exact funext fun _ => idOf_deactivate
      · exact topology.liveOf_of_token inside same
  | cleared =>
      intro type
      rw [settle_of_some rfl]
      rfl
  | @returned thread result mutation below owns here =>
      intro type
      have before := refines type
      rw [settle_of_some (result?_of_owns owns)] at before
      rw [settle_of_none rfl]
      exact before

/-- The bus refines the list of the subscriptions of its run. -/
theorem refines_of_runs (run : Reached events bus) : bus.Refines (subscribersAfter events) := by
  apply run.invariant (fun events bus => bus.Refines (subscribersAfter events))
  · exact fun _ => rfl
  · intro events bus choice next event prior refines transition _
    exact refines.step (topology_of_runs prior) (step_sound transition)

/-- While no result is settled, the subscribers of a type are its live handlers. -/
theorem subscribersOf_eq (run : Reached events bus) (unsettled : bus.result? = none) :
    subscribersOf type events = bus.liveOf type := by
  have refines := refines_of_runs run type
  rw [settle_of_none unsettled] at refines
  rw [subscribersOf, refines, List.map_map]
  exact List.map_id _

end EventBus
end MmoServer.Events
