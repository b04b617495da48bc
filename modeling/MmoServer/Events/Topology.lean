import MmoServer.Events.Steps
import Mathlib.Data.List.Nodup

/-!
# The lists of the bus

Handlers are only appended to `handlers_`, and only Clear takes them out; an
Unsubscribe leaves its handler where it is, inactive. A snapshot is the active
part of the list it was taken from. `Topology` says so for every state:
outside a RebuildSnapshot of its type, a snapshot is up to date.
-/

namespace MmoServer.Events

open MmoServer.Semantics

namespace EventBus

variable {count : Nat} {bus next : EventBus count} {type other : EventTypeId}
  {handler : HandlerRef} {events : List (Event count)} {event : Event count}

/-- The active handlers of a type, in the order of their registration. -/
def liveOf (bus : EventBus count) (type : EventTypeId) : List HandlerRef :=
  (bus.handlersOf type).filter bus.active

/-- The owner of the mutex is rebuilding the snapshot of a type. -/
def Scanning (bus : EventBus count) (type : EventTypeId) : Prop :=
  ∃ owner rest taken result, bus.writeMutex = some (owner, .scan type rest taken result)

/-- What has been taken is the active part of what has been seen, and the snapshot
lacks no live handler but the one that is being registered. -/
structure Rebuilding (bus : EventBus count) (type : EventTypeId) (rest taken : List HandlerRef)
    (result : Result) : Prop where
  seen : ∃ seen, bus.handlersOf type = seen ++ rest ∧ taken = seen.filter bus.active
  stale : ∀ handler ∈ bus.liveOf type,
    handler ∈ bus.snapshotOf type ∨ ∃ token, result = .subscribed handler token

/-- What holds of the lists in every state. -/
structure Topology (bus : EventBus count) : Prop where
  known : ∀ type, ∀ handler ∈ bus.handlersOf type, handler < bus.allocated
  numbered : ∀ type, ∀ handler ∈ bus.handlersOf type, bus.idOf handler < bus.nextId
  ordered : ∀ type,
    (bus.handlersOf type).Pairwise fun first second => bus.idOf first < bus.idOf second
  disjoint : ∀ type other handler, handler ∈ bus.handlersOf type →
    handler ∈ bus.handlersOf other → type = other
  snapshot : ∀ type, (bus.snapshotOf type).Sublist (bus.handlersOf type)
  fresh : ∀ type, ¬ bus.Scanning type → bus.snapshotOf type = bus.liveOf type
  scan : ∀ owner type rest taken result,
    bus.writeMutex = some (owner, .scan type rest taken result) →
      bus.Rebuilding type rest taken result

/-- The live handlers are the registered ones that are active. -/
theorem mem_liveOf : handler ∈ bus.liveOf type ↔
    handler ∈ bus.handlersOf type ∧ bus.active handler = true := List.mem_filter

/-- Whoever is elsewhere is rebuilding no snapshot. -/
theorem not_scanning {thread : Fin count} {state : Section}
    (owns : bus.writeMutex = some (thread, state))
    (elsewhere : ∀ type rest taken result, state ≠ .scan type rest taken result) (type : EventTypeId) :
    ¬ bus.Scanning type := by
  rintro ⟨_, rest, taken, result, there⟩
  rw [owns] at there
  cases there
  exact elsewhere type rest taken result rfl

/-! ## What the operations do to the lists -/

section setSection

variable {thread : Fin count} {state : Section}

@[simp] theorem handlersOf_setSection :
    (bus.setSection thread state).handlersOf = bus.handlersOf := rfl

@[simp] theorem snapshotOf_setSection :
    (bus.setSection thread state).snapshotOf = bus.snapshotOf := rfl

@[simp] theorem liveOf_setSection : (bus.setSection thread state).liveOf = bus.liveOf := rfl

@[simp] theorem idOf_setSection : (bus.setSection thread state).idOf = bus.idOf := rfl

@[simp] theorem active_setSection : (bus.setSection thread state).active = bus.active := rfl

end setSection

@[simp] theorem handlersOf_deactivate {dead : HandlerRef} :
    (bus.deactivate dead).handlersOf = bus.handlersOf := rfl

@[simp] theorem handlersOf_append_self :
    (bus.append type).handlersOf type = bus.handlersOf type ++ [bus.allocated] := by
  simp [handlersOf, append]

/-- A new handler is registered for its own type only. -/
theorem handlersOf_append_of_ne (apart : other ≠ type) :
    (bus.append type).handlersOf other = bus.handlersOf other := by
  simp [handlersOf, append, Function.update_of_ne apart]

/-- The registered handlers are the earlier ones and the new one. -/
theorem mem_handlersOf_append : handler ∈ (bus.append type).handlersOf other ↔
    handler ∈ bus.handlersOf other ∨ (other = type ∧ handler = bus.allocated) := by
  by_cases same : other = type
  · subst same
    simp
  · simp [handlersOf_append_of_ne same, same]

/-- The earlier entries stay as they are. -/
theorem entries_append_of_ne (apart : handler ≠ bus.allocated) :
    (bus.append type).entries handler = bus.entries handler := Function.update_of_ne apart ..

/-- The new entry has the next id and is active. -/
theorem entries_append_allocated :
    (bus.append type).entries bus.allocated = { id := bus.nextId, active := true } :=
  Function.update_self ..

@[simp] theorem idOf_deactivate {dead : HandlerRef} :
    (bus.deactivate dead).idOf handler = bus.idOf handler := by
  by_cases same : handler = dead
  · simp [idOf, deactivate, same]
  · simp [idOf, deactivate, Function.update_of_ne same]

@[simp] theorem active_deactivate {dead : HandlerRef} :
    (bus.deactivate dead).active handler = (bus.active handler && handler != dead) := by
  by_cases same : handler = dead
  · simp [active, deactivate, same]
  · simp [active, deactivate, same]

/-- The published list is the installed one. -/
theorem snapshotOf_install_self {snapshot : List HandlerRef} :
    (bus.install type snapshot).snapshotOf type = snapshot := by
  simp [snapshotOf, install]

/-- The lists of the other types stay. -/
theorem snapshotOf_install_of_ne {snapshot : List HandlerRef} (apart : other ≠ type) :
    (bus.install type snapshot).snapshotOf other = bus.snapshotOf other := by
  simp [snapshotOf, install, Function.update_of_ne apart]

/-- The handlers of a list, and nothing else of the entries, decide what is live. -/
theorem liveOf_congr (handlers : next.handlersOf type = bus.handlersOf type)
    (same : ∀ handler ∈ bus.handlersOf type, next.active handler = bus.active handler) :
    next.liveOf type = bus.liveOf type := by
  rw [liveOf, liveOf, handlers]
  exact List.filter_congr same

/-- The handlers of a type that has any. -/
theorem handlersOf_of_registered {handlers : List HandlerRef}
    (registered : bus.handlers type = some handlers) : bus.handlersOf type = handlers := by
  rw [handlersOf, registered, Option.getD_some]

/-- The search for an id finds the handler that has it. -/
theorem mem_of_found {id : Nat} {handlers : List HandlerRef}
    (registered : bus.handlers type = some handlers)
    (found : handlers.find? (fun handler => bus.idOf handler == id) = some handler) :
    handler ∈ bus.handlersOf type ∧ bus.idOf handler = id := by
  rw [handlersOf_of_registered registered]
  exact ⟨List.mem_of_find?_eq_some found, by simpa using List.find?_some found⟩

section Topology

variable (topology : bus.Topology)
include topology

/-- One id is one handler. -/
theorem Topology.eq_of_idOf {second : HandlerRef} (member : handler ∈ bus.handlersOf type)
    (also : second ∈ bus.handlersOf type) (same : bus.idOf handler = bus.idOf second) :
    handler = second := by
  have injective : ((bus.handlersOf type).map bus.idOf).Nodup := by
    rw [List.Nodup, List.pairwise_map]
    exact (topology.ordered type).imp fun less => Nat.ne_of_lt less
  exact List.inj_on_of_nodup_map injective member also same

/-- No handler is registered twice for a type. -/
theorem Topology.nodup_handlersOf : (bus.handlersOf type).Nodup :=
  (topology.ordered type).imp fun less same => Nat.ne_of_lt less (congrArg bus.idOf same)

/-- The handler of a new subscription is in no list. -/
theorem Topology.allocated_notMem : bus.allocated ∉ bus.handlersOf type :=
  fun member => Nat.lt_irrefl _ (topology.known type _ member)

/-- The entry of a registered handler is not the new one. -/
theorem Topology.entries_append (member : handler ∈ bus.handlersOf other) :
    (bus.append type).entries handler = bus.entries handler := by
  apply entries_append_of_ne
  rintro rfl
  exact topology.allocated_notMem member

/-- A subscription extends what is live of its type. -/
theorem Topology.liveOf_append_self :
    (bus.append type).liveOf type = bus.liveOf type ++ [bus.allocated] := by
  rw [liveOf, liveOf, handlersOf_append_self, List.filter_append]
  congr 1
  · apply List.filter_congr
    intro handler member
    rw [active, active, topology.entries_append member]
  · simp [active, entries_append_allocated]

/-- A new handler is live for its own type only. -/
theorem Topology.liveOf_append_of_ne (apart : other ≠ type) :
    (bus.append type).liveOf other = bus.liveOf other := by
  apply liveOf_congr (handlersOf_append_of_ne apart)
  intro handler member
  rw [active, active, topology.entries_append member]

/-- What Unsubscribe finds is of the token's type, and no handler of another type. -/
theorem Topology.liveOf_deactivate_of_ne (member : handler ∈ bus.handlersOf type)
    (apart : other ≠ type) : (bus.deactivate handler).liveOf other = bus.liveOf other := by
  refine liveOf_congr rfl fun second also => ?_
  have differ : second ≠ handler := by
    rintro rfl
    exact apart (topology.disjoint other type second also member)
  simp [differ]

/-! ## Every step keeps the lists -/

/-- A step that leaves the lists and the entries alone. -/
theorem Topology.keep (entries : next.entries = bus.entries)
    (allocated : next.allocated = bus.allocated) (handlers : next.handlers = bus.handlers)
    (snapshots : next.snapshots = bus.snapshots) (nextId : next.nextId = bus.nextId)
    (scan : ∀ owner type rest taken result,
      next.writeMutex = some (owner, .scan type rest taken result) →
        bus.Rebuilding type rest taken result)
    (stays : ∀ type, bus.Scanning type → next.Scanning type) : next.Topology := by
  have lists : ∀ type, next.handlersOf type = bus.handlersOf type := by
    intro type
    rw [handlersOf, handlersOf, handlers]
  have flags : next.active = bus.active := by
    funext handler
    rw [active, active, entries]
  have ids : next.idOf = bus.idOf := by
    funext handler
    rw [idOf, idOf, entries]
  have copies : ∀ type, next.snapshotOf type = bus.snapshotOf type := by
    intro type
    rw [snapshotOf, snapshotOf, snapshots]
  constructor
  · simpa only [lists, allocated] using topology.known
  · simpa only [lists, ids, nextId] using topology.numbered
  · simpa only [lists, ids] using topology.ordered
  · simpa only [lists] using topology.disjoint
  · simpa only [lists, copies] using topology.snapshot
  · intro type idle
    rw [copies, liveOf, lists, flags]
    exact topology.fresh type fun scanning => idle (stays type scanning)
  · intro owner type rest taken result owns
    obtain ⟨seen, stale⟩ := scan owner type rest taken result owns
    constructor
    · rw [lists, flags]
      exact seen
    · rw [liveOf, lists, flags, copies]
      exact stale

/-- Subscribe has appended its handler and goes on to rebuild the list. -/
theorem Topology.append {owner : Fin count} {token : SubscriptionToken}
    (idle : ∀ type, ¬ bus.Scanning type) :
    ((bus.append type).setSection owner
      (.scan type (bus.handlersOf type ++ [bus.allocated]) []
        (.subscribed bus.allocated token))).Topology := by
  have old : ∀ other, ∀ handler ∈ bus.handlersOf other,
      (bus.append type).idOf handler = bus.idOf handler := by
    intro other handler member
    rw [idOf, idOf, topology.entries_append member]
  have new : (bus.append type).idOf bus.allocated = bus.nextId := by
    rw [idOf, entries_append_allocated]
  constructor
  · intro other handler member
    rw [handlersOf_setSection, mem_handlersOf_append] at member
    rcases member with before | ⟨_, rfl⟩
    · exact Nat.lt_succ_of_lt (topology.known other handler before)
    · exact Nat.lt_succ_self _
  · intro other handler member
    rw [handlersOf_setSection, mem_handlersOf_append] at member
    rw [idOf_setSection]
    rcases member with before | ⟨_, rfl⟩
    · rw [old other handler before]
      exact Nat.lt_succ_of_lt (topology.numbered other handler before)
    · rw [new]
      exact Nat.lt_succ_self _
  · intro other
    have before : (bus.handlersOf other).Pairwise fun first second =>
        (bus.append type).idOf first < (bus.append type).idOf second := by
      refine (topology.ordered other).imp_of_mem fun first second less => ?_
      rw [old other _ first, old other _ second]
      exact less
    rw [handlersOf_setSection, idOf_setSection]
    by_cases same : other = type
    · subst same
      rw [handlersOf_append_self]
      refine List.pairwise_append.mpr ⟨before, List.pairwise_singleton _ _, ?_⟩
      intro handler member last shown
      obtain rfl := List.mem_singleton.mp shown
      rw [new, old other handler member]
      exact topology.numbered other handler member
    · rw [handlersOf_append_of_ne same]
      exact before
  · intro first second handler member also
    rw [handlersOf_setSection, mem_handlersOf_append] at member also
    rcases member with before | ⟨here, rfl⟩
    · rcases also with beforeToo | ⟨_, rfl⟩
      · exact topology.disjoint first second handler before beforeToo
      · exact absurd before topology.allocated_notMem
    · rcases also with beforeToo | ⟨hereToo, _⟩
      · exact absurd beforeToo topology.allocated_notMem
      · rw [here, hereToo]
  · intro other
    rw [snapshotOf_setSection, handlersOf_setSection]
    refine (topology.snapshot other).trans ?_
    by_cases same : other = type
    · subst same
      rw [handlersOf_append_self]
      exact List.sublist_append_left _ _
    · rw [handlersOf_append_of_ne same]
  · intro other unscanned
    have apart : other ≠ type := by
      rintro rfl
      exact unscanned ⟨_, _, _, _, rfl⟩
    exact (topology.fresh other (idle other)).trans (topology.liveOf_append_of_ne apart).symm
  · intro other scanned rest taken answer owns
    cases owns
    refine ⟨⟨[], handlersOf_append_self, rfl⟩, fun handler live => ?_⟩
    rw [liveOf_setSection, topology.liveOf_append_self] at live
    rcases List.mem_append.mp live with before | last
    · rw [← topology.fresh type (idle type)] at before
      exact .inl before
    · rw [List.mem_singleton.mp last]
      exact .inr ⟨token, rfl⟩

/-- Unsubscribe has cleared the flag and goes on to rebuild the list. -/
theorem Topology.deactivate {owner : Fin count} {result : Result}
    (idle : ∀ type, ¬ bus.Scanning type) (member : handler ∈ bus.handlersOf type) :
    ((bus.deactivate handler).setSection owner
      (.scan type (bus.handlersOf type) [] result)).Topology := by
  have ids : (bus.deactivate handler).idOf = bus.idOf := funext fun _ => idOf_deactivate
  constructor
  · exact topology.known
  · rw [idOf_setSection, ids]
    exact topology.numbered
  · rw [idOf_setSection, ids]
    exact topology.ordered
  · exact topology.disjoint
  · exact topology.snapshot
  · intro other unscanned
    have apart : other ≠ type := by
      rintro rfl
      exact unscanned ⟨_, _, _, _, rfl⟩
    exact (topology.fresh other (idle other)).trans (topology.liveOf_deactivate_of_ne member apart).symm
  · intro other scanned rest taken answer owns
    cases owns
    refine ⟨⟨[], rfl, rfl⟩, fun second live => ?_⟩
    obtain ⟨inside, flag⟩ := mem_liveOf.mp live
    have before : second ∈ bus.liveOf type := mem_liveOf.mpr ⟨inside, by simp_all⟩
    rw [← topology.fresh type (idle type)] at before
    exact .inl before

/-- The rebuilt list is published: it is again the live handlers. -/
theorem Topology.install {owner : Fin count} {taken : List HandlerRef} {result : Result}
    (owns : bus.writeMutex = some (owner, .scan type [] taken result)) :
    ((bus.install type taken).setSection owner (.unlock result)).Topology := by
  obtain ⟨⟨seen, whole, built⟩, _⟩ := topology.scan owner type [] taken result owns
  rw [List.append_nil] at whole
  have live : taken = bus.liveOf type := by rw [built, liveOf, whole]
  constructor
  · exact topology.known
  · exact topology.numbered
  · exact topology.ordered
  · exact topology.disjoint
  · intro other
    rw [snapshotOf_setSection, handlersOf_setSection]
    by_cases same : other = type
    · subst same
      rw [snapshotOf_install_self, live]
      exact List.filter_sublist
    · rw [snapshotOf_install_of_ne same]
      exact topology.snapshot other
  · intro other _
    rw [snapshotOf_setSection]
    by_cases same : other = type
    · subst same
      rw [snapshotOf_install_self]
      exact live
    · rw [snapshotOf_install_of_ne same]
      refine topology.fresh other ?_
      rintro ⟨_, _, _, _, there⟩
      rw [owns] at there
      cases there
      exact same rfl
  · exact nofun

/-- Every step keeps what holds of the lists. -/
theorem Topology.step (moved : Step bus next event) : next.Topology := by
  cases moved with
  | ignored => exact topology
  | called | began | absent | copied | turned | invoked | handled | finished =>
      exact topology.keep rfl rfl rfl rfl rfl topology.scan fun _ scanning => scanning
  | locked here free =>
      refine topology.keep rfl rfl rfl rfl rfl nofun ?_
      rintro type ⟨_, _, _, _, owns⟩
      rw [free] at owns
      cases owns
  | appended owns => exact topology.append (not_scanning owns nofun)
  | unknown owns =>
      exact topology.keep rfl rfl rfl rfl rfl nofun fun type scanning =>
        absurd scanning (not_scanning owns nofun type)
  | @missed thread token handlers owns registered =>
      refine topology.keep rfl rfl rfl rfl rfl ?_ fun type scanning =>
        absurd scanning (not_scanning owns nofun type)
      intro owner type rest taken result scanned
      cases scanned
      refine ⟨⟨[], handlersOf_of_registered registered, rfl⟩, fun handler live => ?_⟩
      rw [← topology.fresh _ (not_scanning owns nofun _)] at live
      exact .inl live
  | @deactivated thread token handlers handler owns registered found =>
      have inside := (mem_of_found registered found).1
      rw [← handlersOf_of_registered registered]
      exact topology.deactivate (not_scanning owns nofun) inside
  | cleared owns =>
      constructor <;> simp [handlersOf, snapshotOf, liveOf, clear, setSection]
  | @scanned thread type handler rest taken result owns =>
      refine topology.keep rfl rfl rfl rfl rfl ?_ ?_
      · intro owner other later built answer scanned
        cases scanned
        obtain ⟨⟨seen, whole, built⟩, stale⟩ := topology.scan _ _ _ _ _ owns
        refine ⟨⟨seen ++ [handler], by simp [whole], ?_⟩, stale⟩
        rw [List.filter_append, built]
        cases loaded : bus.active handler <;> simp [loaded]
      · rintro other ⟨_, _, _, _, there⟩
        rw [owns] at there
        cases there
        exact ⟨_, _, _, _, rfl⟩
  | installed owns => exact topology.install owns
  | returned owns =>
      exact topology.keep rfl rfl rfl rfl rfl nofun fun type scanning =>
        absurd scanning (not_scanning owns nofun type)

end Topology

/-- A new bus has nothing registered and nothing published. -/
theorem topology_constructed : (constructed : EventBus count).Topology := by
  constructor <;> simp [handlersOf, snapshotOf, liveOf, constructed]

/-- The topology holds along every run. -/
theorem topology_of_runs (run : Reached events bus) : bus.Topology := by
  apply run.invariant (fun _ bus => bus.Topology) topology_constructed
  intro events bus choice next event _ topology transition _
  exact topology.step (step_sound transition)

end EventBus
end MmoServer.Events
