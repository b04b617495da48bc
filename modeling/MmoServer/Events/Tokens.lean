import MmoServer.Events.Delivery

/-!
# Tokens

The id of a token is the place of its subscription: how many there have been since
the last Clear, which resets the counter. Unsubscribe looks for the id in the list of
the token's type, so a token that outlives a Clear finds the handler that has taken
its place. `tokens_stay_own` says that nothing else goes wrong.
-/

namespace MmoServer.Events

open MmoServer.Semantics

variable {count : Nat} {events before after : List (Event count)} {event : Event count}
  {bus : EventBus count} {thread other : Fin count} {handler found : HandlerRef}
  {token : SubscriptionToken} {position : Nat}

namespace Event

/-- The type and the place of a subscription. -/
def place? (position : Nat) : Event count → Option (EventTypeId × Nat)
  | .appended _ _ token => some (token.type, position)
  | _ => none

/-- The token that a Subscribe draws. -/
def token? : Event count → Option SubscriptionToken
  | .appended _ _ token => some token
  | _ => none

/-- A Subscribe returns the token. -/
def returnsToken (token : SubscriptionToken) : Event count → Bool
  | .returned _ (.subscribed _ other) => other == token
  | _ => false

end Event

/-- The types and the places of the subscriptions of a trace that starts at a place. -/
def placesFrom (position : Nat) : List (Event count) → List (EventTypeId × Nat)
  | [] => []
  | event :: rest => (event.place? position).toList ++ placesFrom (event.position position) rest

/-- A Subscribe takes a place that no Subscribe of its type has had. -/
def takesNewPlace (events : List (Event count)) (event : Event count) : Bool :=
  (event.place? (sinceClear events)).all fun place => decide (place ∉ placesFrom 0 events)

/-- Every token belongs to one Subscribe, and an Unsubscribe with it deactivates the
handler of that Subscribe only, and nothing after a Clear. -/
structure OwnTokens (events : List (Event count)) : Prop where
  distinct : ∀ token, tally (Event.returnsToken token) events ≤ 1
  own : ∀ before after thread token handler,
    events = before ++ .deactivated thread token handler :: after → Subscribed before handler token
  only : ∀ thread token handler found, .deactivated thread token found ∈ events →
    Subscribed events handler token → found = handler
  gone : ∀ before after thread, events = before ++ .cleared thread :: after →
    ∀ handler token, Subscribed before handler token →
    ∀ other found, .deactivated other token found ∉ after

/-- A Subscribe draws a token that no other has drawn. -/
def DrawsFresh (before : List (Event count)) (event : Event count) : Prop :=
  ∀ token, event.token? = some token → ∀ earlier ∈ before, earlier.token? ≠ some token

/-! ## Places -/

theorem placesFrom_concat : placesFrom position (events ++ [event]) =
    placesFrom position events ++
      (event.place?
        (events.foldl (fun position event => event.position position) position)).toList := by
  induction events generalizing position with
  | nil => simp [placesFrom]
  | cons first rest ih => simp [placesFrom, ih]

theorem token?_eq_some : event.token? = some token ↔
    ∃ thread handler, event = .appended thread handler token := by
  cases event with
  | appended thread handler other => simp [Event.token?]
  | _ => simp [Event.token?]

/-- The place of a subscription is what its id counts. -/
theorem mem_places (explained : Explained Explains events)
    (appended : .appended thread handler token ∈ events) :
    ∃ place, token.id = 1 + place ∧ (token.type, place) ∈ placesFrom 0 events := by
  induction events using List.reverseRecOn with
  | nil => cases appended
  | append_singleton events last ih =>
      obtain ⟨earlier, explanation⟩ := explained_concat.mp explained
      rw [placesFrom_concat]
      rcases List.mem_append.mp appended with before | now
      · obtain ⟨place, same, member⟩ := ih earlier before
        exact ⟨place, same, List.mem_append_left _ member⟩
      · obtain rfl := List.mem_singleton.mp now
        refine ⟨sinceClear events, explanation.2, List.mem_append_right _ ?_⟩
        rw [Event.place?, Option.toList_some]
        exact List.mem_singleton.mpr rfl

/-- A new place is a new token. -/
theorem drawsFresh_of_place (explained : Explained Explains events)
    (explanation : Explains events event) (new : takesNewPlace events event = true) :
    DrawsFresh events event := by
  intro token draws earlier member same
  obtain ⟨thread, handler, rfl⟩ := token?_eq_some.mp draws
  obtain ⟨author, first, rfl⟩ := token?_eq_some.mp same
  obtain ⟨place, counted, inside⟩ := mem_places explained member
  have here : place = sinceClear events := by
    have drawn := explanation.2
    omega
  rw [here] at inside
  have outside : (token.type, sinceClear events) ∉ placesFrom 0 events := by
    simpa [takesNewPlace, Event.place?] using new
  exact outside inside

theorem drawsFresh_of_runs (run : (EventBus.system count).RunsUnder
    (fun events _ _ event => takesNewPlace events event) EventBus.constructed events bus) :
    Explained DrawsFresh events := by
  apply run.invariant (fun events _ => Explained DrawsFresh events) explained_nil
  intro events bus choice next event prior fresh transition new
  have consistent := consistent_of_runs prior.runs
  have explanation := consistent.explains (EventBus.step_sound transition)
  exact explained_concat.mpr ⟨fresh, drawsFresh_of_place consistent.explained explanation new⟩

/-! ## Tokens that are drawn once -/

/-- A token that is drawn once is that of one handler. -/
theorem handler_of_token {second : HandlerRef} (fresh : Explained DrawsFresh events)
    (appended : .appended thread handler token ∈ events)
    (also : .appended other second token ∈ events) : handler = second := by
  have same := fresh.unique Event.appends Event.token? ?_ appended also rfl rfl rfl
  · cases same
    rfl
  · intro before event _ explanation counts earlier member _ same
    cases event with
    | appended author drawn token => exact explanation token rfl earlier member same
    | _ => cases counts

theorem returnsToken_cases (returns : event.returnsToken token = true) :
    ∃ thread handler, event = .returned thread (.subscribed handler token) := by
  cases event with
  | returned thread result =>
      cases result with
      | subscribed handler other =>
          obtain rfl : other = token := by simpa [Event.returnsToken] using returns
          exact ⟨thread, handler, rfl⟩
      | unsubscribed | cleared => cases returns
  | _ => cases returns

/-- A token is returned once. -/
theorem returned_once (explained : Explained Explains events) (fresh : Explained DrawsFresh events) :
    tally (Event.returnsToken token) events ≤ 1 := by
  have both : Explained (fun before event => Explains before event ∧ DrawsFresh before event)
      events := fun before event after split =>
    ⟨explained before event after split, fresh before event after split⟩
  refine both.tally_le_one fun before event front explanation returns => ?_
  have earlier : Explained Explains before := fun first event rest split =>
    (front first event rest split).1
  have drawn : Explained DrawsFresh before := fun first event rest split =>
    (front first event rest split).2
  rw [tally_eq_zero_iff]
  intro last member
  by_contra also
  obtain ⟨thread, handler, rfl⟩ := returnsToken_cases returns
  obtain ⟨other, second, rfl⟩ := returnsToken_cases (Bool.eq_true_of_not_eq_false also)
  obtain ⟨⟨author, appended⟩, unreturned⟩ := explanation.1
  have returned : Subscribed before second token := ⟨other, member⟩
  obtain ⟨writer, appendedToo⟩ := returned.appended earlier
  obtain rfl := handler_of_token drawn appended appendedToo
  exact unreturned token returned

/-- What is in the lists after a Clear has been registered after it. -/
theorem standing_of_cleared {between : List (Event count)} (explained : Explained Explains events)
    (split : events = before ++ .cleared thread :: between)
    (standing : Standing events handler token) {named : SubscriptionToken} :
    .appended other handler named ∉ before := by
  intro appended
  obtain ⟨front, author, rest, cut, uncleared⟩ := standing
  obtain ⟨middle, rfl⟩ := appended_numbered.reaches explained cut rfl split appended rfl rfl
  have tail : rest = middle ++ .cleared thread :: between := by
    have same := cut.symm.trans split
    rw [List.append_assoc, List.cons_append] at same
    exact (List.cons.inj (List.append_cancel_left same)).2
  exact uncleared thread (by simp [tail])

/-- In every run in which no Subscribe takes a place, counted from the last Clear, that
a Subscribe of its type has had, a token only ever removes its own subscription. -/
theorem tokens_stay_own (events : List (Event count)) (bus : EventBus count)
    (run : (EventBus.system count).RunsUnder (fun events _ _ event => takesNewPlace events event)
      EventBus.constructed events bus) : OwnTokens events := by
  have explained := (consistent_of_runs run.runs).explained
  have fresh := drawsFresh_of_runs run
  constructor
  · exact fun token => returned_once explained fresh
  · intro before after thread token handler split
    exact (explained before _ after split).2.1
  · intro thread token handler found deactivated subscribed
    obtain ⟨before, ⟨after, rfl⟩, standing, _, _⟩ := explained.of_mem deactivated
    obtain ⟨author, appended⟩ := standing.appended
    obtain ⟨writer, also⟩ := subscribed.appended explained
    exact handler_of_token fresh (List.mem_append_left _ appended) also
  · intro before after thread split handler token subscribed other found deactivated
    obtain ⟨between, rest, rfl⟩ := List.append_of_mem deactivated
    have cut : events = (before ++ .cleared thread :: between) ++
        .deactivated other token found :: rest := by simp [split]
    obtain ⟨standing, _, _⟩ := explained _ _ rest cut
    rw [cut] at explained fresh
    have front : Explained Explains before := by
      rw [List.append_assoc] at explained
      exact explained.of_append
    obtain ⟨writer, appended⟩ := subscribed.appended front
    obtain ⟨author, also⟩ := standing.appended
    obtain rfl := handler_of_token fresh (List.mem_append_left _ also)
      (List.mem_append_left _ (List.mem_append_left _ appended))
    exact standing_of_cleared explained.of_append rfl standing appended

/-- After a Clear a handler of another type takes the first place, and the old token
finds nothing. -/
theorem cleared_token_finds_nothing : ∃ events bus,
    (EventBus.system 1).RunsUnder (fun events _ _ event => takesNewPlace events event)
      EventBus.constructed events bus ∧ OwnTokens events ∧
    .returned 0 (.subscribed 0 { id := 1, type := 1 }) ∈ events ∧
    .returned 0 (.subscribed 1 { id := 1, type := 2 }) ∈ events ∧
    .missed 0 { id := 1, type := 1 } ∈ events ∧
    .deactivated 0 { id := 1, type := 2 } 1 ∈ events := by
  obtain ⟨events, bus, run, shown⟩ := (EventBus.system 1).runs_of_exec
    (fun events _ _ event => takesNewPlace events event) EventBus.constructed
    (subscribes 0 1 0 ++ .call 0 .clear :: List.replicate 3 (.advance 0) ++ subscribes 0 2 0 ++
      .call 0 (.unsubscribe { id := 1, type := 1 }) :: List.replicate 3 (.advance 0) ++
      unsubscribes 0 { id := 1, type := 2 } 1)
    (fun _ events => .returned 0 (.subscribed 0 { id := 1, type := 1 }) ∈ events ∧
      .returned 0 (.subscribed 1 { id := 1, type := 2 }) ∈ events ∧
      .missed 0 { id := 1, type := 1 } ∈ events ∧
      .deactivated 0 { id := 1, type := 2 } 1 ∈ events)
    (by decide +kernel)
  exact ⟨events, bus, run, tokens_stay_own events bus run, shown⟩

/-- A token that outlives a Clear removes the subscription that came after it. -/
theorem cleared_token_removes_another : ¬ ∀ (events : List (Event 1)) bus,
    EventBus.Reached events bus → OwnTokens events := by
  intro owns
  obtain ⟨events, bus, run, order⟩ := (EventBus.system 1).runs_of_exec (fun _ _ _ _ => True)
    EventBus.constructed
    (subscribes 0 1 0 ++ .call 0 .clear :: List.replicate 3 (.advance 0) ++ subscribes 0 1 0 ++
      unsubscribes 0 { id := 1, type := 1 } 1)
    (fun _ events => [.returned 0 (.subscribed 0 { id := 1, type := 1 }), .cleared 0,
      .deactivated 0 { id := 1, type := 1 } 1].Sublist events)
    (by decide +kernel)
  obtain ⟨front, rest, rfl, returned, later⟩ := List.cons_sublist_iff.mp order
  obtain ⟨middle, last, rfl, cleared, deactivated⟩ := List.cons_sublist_iff.mp later
  obtain ⟨between, behind, rfl⟩ := List.append_of_mem cleared
  refine (owns _ bus run).gone (front ++ between) (behind ++ last) 0 (by simp) 0 _
    ⟨0, List.mem_append_left _ returned⟩ 0 1 ?_
  exact List.mem_append_right _ (List.singleton_sublist.mp deactivated)

end MmoServer.Events
