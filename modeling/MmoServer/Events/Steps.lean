import MmoServer.Events.EventBus

/-!
# The steps of EventBus

`EventBus.Step` lists what a step can do, and `step_sound` says that it lists
everything. All invariants go through it.
-/

namespace MmoServer.Events

open MmoServer.Semantics

/-- What follows the load of an active flag. -/
def PublishState.loaded (handler : HandlerRef) (rest : List HandlerRef) :
    Bool → PublishState
  | true => .call handler rest
  | false => .next rest

namespace EventBus

variable {count : Nat} {bus next : EventBus count} {thread other : Fin count} {stack : List Frame}
  {state : Section} {choice : Choice count} {event : Event count}

/-- `handlers_[type]`, which is empty where there is none. -/
def handlersOf (bus : EventBus count) (type : EventTypeId) : List HandlerRef :=
  (bus.handlers type).getD []

/-- The handlers of `snapshots_[type]`. -/
def snapshotOf (bus : EventBus count) (type : EventTypeId) : List HandlerRef :=
  (bus.snapshots type).getD []

/-- The entry of the handler is active. -/
def active (bus : EventBus count) (handler : HandlerRef) : Bool := (bus.entries handler).active

/-- The id of the handler's entry. -/
def idOf (bus : EventBus count) (handler : HandlerRef) : Nat := (bus.entries handler).id

@[simp] theorem setStack_threads_self : (bus.setStack thread stack).threads thread = stack :=
  Function.update_self ..

@[simp] theorem setStack_threads_of_ne (apart : other ≠ thread) :
    (bus.setStack thread stack).threads other = bus.threads other := Function.update_of_ne apart ..

/-- What a step of the bus can do. -/
inductive Step (bus : EventBus count) : EventBus count → Event count → Prop
  | ignored {thread : Fin count} {token} (may : bus.mayCall thread = true)
      (invalid : token.valid = false) : Step bus bus (.ignored thread token)
  | called {thread : Fin count} {mutation} (may : bus.mayCall thread = true) :
      Step bus (bus.setStack thread (.mutate mutation :: bus.threads thread))
        (.called thread mutation)
  | began {thread : Fin count} {type} (may : bus.mayCall thread = true) :
      Step bus
        ({ bus with publications := bus.publications + 1 }.setStack thread
          (.publish bus.publications (.copy type) :: bus.threads thread))
        (.began thread bus.publications type)
  | locked {thread : Fin count} {mutation below}
      (here : bus.threads thread = .mutate mutation :: below) (free : bus.writeMutex = none) :
      Step bus (bus.setSection thread (.start mutation)) (.locked thread)
  | appended {thread : Fin count} {type}
      (owns : bus.writeMutex = some (thread, .start (.subscribe type))) :
      Step bus
        ((bus.append type).setSection thread (.scan type (bus.handlersOf type ++ [bus.allocated]) []
          (.subscribed bus.allocated { id := bus.nextId, type })))
        (.appended thread bus.allocated { id := bus.nextId, type })
  | unknown {thread : Fin count} {token}
      (owns : bus.writeMutex = some (thread, .start (.unsubscribe token)))
      (empty : bus.handlers token.type = none) :
      Step bus (bus.setSection thread (.unlock (.unsubscribed token none))) (.missed thread token)
  | missed {thread : Fin count} {token handlers}
      (owns : bus.writeMutex = some (thread, .start (.unsubscribe token)))
      (registered : bus.handlers token.type = some handlers)
      (missing : ∀ handler ∈ handlers, bus.idOf handler ≠ token.id) :
      Step bus (bus.setSection thread (.scan token.type handlers [] (.unsubscribed token none)))
        (.missed thread token)
  | deactivated {thread : Fin count} {token handlers handler}
      (owns : bus.writeMutex = some (thread, .start (.unsubscribe token)))
      (registered : bus.handlers token.type = some handlers)
      (found : handlers.find? (fun handler => bus.idOf handler == token.id) = some handler) :
      Step bus
        ((bus.deactivate handler).setSection thread
          (.scan token.type handlers [] (.unsubscribed token (some handler))))
        (.deactivated thread token handler)
  | cleared {thread : Fin count} (owns : bus.writeMutex = some (thread, .start .clear)) :
      Step bus (bus.clear.setSection thread (.unlock .cleared)) (.cleared thread)
  | scanned {thread : Fin count} {type handler rest snapshot result}
      (owns : bus.writeMutex = some (thread, .scan type (handler :: rest) snapshot result)) :
      Step bus
        (bus.setSection thread
          (.scan type rest (if bus.active handler then snapshot ++ [handler] else snapshot) result))
        (.scanned thread handler)
  | installed {thread : Fin count} {type snapshot result}
      (owns : bus.writeMutex = some (thread, .scan type [] snapshot result)) :
      Step bus ((bus.install type snapshot).setSection thread (.unlock result))
        (.installed thread type)
  | returned {thread : Fin count} {result mutation below}
      (owns : bus.writeMutex = some (thread, .unlock result))
      (here : bus.threads thread = .mutate mutation :: below) :
      Step bus ({ bus with writeMutex := none }.setStack thread below) (.returned thread result)
  | absent {thread : Fin count} {publication type below}
      (here : bus.threads thread = .publish publication (.copy type) :: below)
      (empty : bus.snapshots type = none) :
      Step bus (bus.setStack thread below) (.finished publication)
  | copied {thread : Fin count} {publication type below snapshot}
      (here : bus.threads thread = .publish publication (.copy type) :: below)
      (there : bus.snapshots type = some snapshot) :
      Step bus (bus.setStack thread (.publish publication (.next snapshot) :: below))
        (.copied publication snapshot)
  | turned {thread : Fin count} {publication handler rest below}
      (here : bus.threads thread = .publish publication (.next (handler :: rest)) :: below) :
      Step bus
        (bus.setStack thread
          (.publish publication (.loaded handler rest (bus.active handler)) :: below))
        (.turn publication handler (bus.active handler))
  | invoked {thread : Fin count} {publication handler rest below}
      (here : bus.threads thread = .publish publication (.call handler rest) :: below) :
      Step bus (bus.setStack thread (.publish publication (.running handler rest) :: below))
        (.invoked publication handler)
  | handled {thread : Fin count} {publication handler rest below}
      (here : bus.threads thread = .publish publication (.running handler rest) :: below) :
      Step bus (bus.setStack thread (.publish publication (.next rest) :: below))
        (.handled publication handler)
  | finished {thread : Fin count} {publication below}
      (here : bus.threads thread = .publish publication (.next []) :: below) :
      Step bus (bus.setStack thread below) (.finished publication)

theorem sectionStep_sound {mutation : Mutation} {below : List Frame}
    (here : bus.threads thread = .mutate mutation :: below)
    (owns : bus.writeMutex = some (thread, state)) :
    Step bus (bus.sectionStep thread below state).1 (bus.sectionStep thread below state).2 := by
  cases state with
  | start mutation =>
      cases mutation with
      | subscribe type =>
          have grown : (bus.append type).handlers type =
              some (bus.handlersOf type ++ [bus.allocated]) := Function.update_self ..
          have step := Step.appended owns
          simpa only [sectionStep, rebuildSnapshot, grown] using step
      | unsubscribe token =>
          simp only [sectionStep]
          split
          · next empty => exact .unknown owns empty
          · next handlers registered =>
            split
            · next missing =>
              simp only [rebuildSnapshot, registered]
              refine .missed owns registered fun handler member same => ?_
              exact List.find?_eq_none.mp missing handler member (beq_iff_eq.mpr same)
            · next handler found =>
              have kept : (bus.deactivate handler).handlers token.type = some handlers := registered
              simp only [rebuildSnapshot, kept]
              exact .deactivated owns registered found
      | clear => exact .cleared owns
  | scan type rest snapshot result =>
      cases rest with
      | nil => exact .installed owns
      | cons handler rest => exact .scanned owns
  | unlock result => exact .returned owns here

theorem publishStep_sound {publication : Publication} {state : PublishState} {below : List Frame}
    (here : bus.threads thread = .publish publication state :: below) :
    Step bus (bus.publishStep thread below publication state).1
      (bus.publishStep thread below publication state).2 := by
  cases state with
  | copy type =>
      simp only [publishStep]
      split
      · next empty => exact .absent here empty
      · next snapshot there => exact .copied here there
  | next rest =>
      cases rest with
      | nil => exact .finished here
      | cons handler rest =>
          have step := Step.turned here
          simp only [publishStep]
          split
          · next loaded =>
            rw [active, loaded] at step
            exact step
          · next loaded =>
            rw [active, eq_false_of_ne_true loaded] at step
            exact step
  | call handler rest => exact .invoked here
  | running handler rest => exact .handled here

/-- Every step is one of those. -/
theorem step_sound (transition : bus.step choice = some (next, event)) : Step bus next event := by
  cases choice with
  | call thread mutation =>
      simp only [step] at transition
      split at transition
      · next may =>
        split at transition
        · next token =>
          split at transition
          · cases transition
            exact .called may
          · next invalid =>
            cases transition
            exact .ignored may (eq_false_of_ne_true invalid)
        · cases transition
          exact .called may
      · cases transition
  | publish thread type =>
      simp only [step] at transition
      split at transition
      · next may =>
        cases transition
        exact .began may
      · cases transition
  | advance thread =>
      simp only [step] at transition
      split at transition
      · cases transition
      · next publication state below here =>
        have sound := publishStep_sound here
        obtain ⟨rfl, rfl⟩ := Prod.mk.inj (Option.some.inj transition)
        exact sound
      · next mutation below here =>
        split at transition
        · next free =>
          cases transition
          exact .locked here free
        · next owner state owns =>
          split at transition
          · next same =>
            subst same
            have sound := sectionStep_sound here owns
            obtain ⟨rfl, rfl⟩ := Prod.mk.inj (Option.some.inj transition)
            exact sound
          · cases transition

end EventBus
end MmoServer.Events
