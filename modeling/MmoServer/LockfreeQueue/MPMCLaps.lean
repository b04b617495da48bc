import MmoServer.LockfreeQueue.Laps
import MmoServer.LockfreeQueue.MPMCQueue

/-!
# MPMCQueue over any number of laps

Every run follows a run of the ring protocol, however often the counters pass 2^64, as
long as no compare-exchange succeeds on a counter that has gone all the way round since
its thread loaded it.
-/

namespace MmoServer.LockfreeQueue

open MmoServer.Std MmoServer.Semantics

/-- The compare-exchange of Dequeue has succeeded. -/
def DequeueEvent.claims {α : Type} : DequeueEvent α → Bool
  | .claimed _ => true
  | _ => false

namespace DequeueState

variable {α : Type} {capacity : QueueCapacity} {thread : Nat} {since : Nat × Nat}
  {ring nextRing : SlotRing α capacity.value} {hold held : Hold α} {state : DequeueState α}
  {label : Option (RingEvent Nat α)} {labels : List (RingEvent Nat α)}

/-- A thread in Dequeue on the words of a ring, with what it holds of the ring. `since`
is how far the head has gone since the thread's last step and since the one before. -/
def Tracks (ring : SlotRing α capacity.value) (hold : Hold α) (since : Nat × Nat) :
    DequeueState α → Prop
  | .loadHead => hold = .none
  | .loadSequence pos => hold = .none ∧
      ∃ position, pos = toWord position ∧ position + since.1 = ring.head
  | .compareExchange pos => hold = .none ∧
      ∃ position, pos = toWord position ∧ position + since.2 = ring.head ∧ ring.SeenFilled position
  | .moveOut pos => ∃ position, pos = toWord position ∧ hold = .reading position
  | .storeSequence pos item => ∃ position, pos = toWord position ∧ hold = .taken position item

/-- A thread that may have returned. -/
def Tracks? (ring : SlotRing α capacity.value) (hold : Hold α) (since : Nat × Nat) :
    Option (DequeueState α) → Prop
  | none => hold = .none
  | some state => state.Tracks ring hold since

/-- A step of another thread only moves the head on. -/
theorem Tracks.keep (tracks : state.Tracks ring hold since) {mover : Nat} {mine : Hold α}
    (moves : RingProtocol.Moves ring mover mine nextRing held label)
    (holding : RingProtocol.Holding ring labels mover mine) {more : Nat}
    (head : nextRing.head = ring.head + more) :
    state.Tracks nextRing hold (since.1 + more, since.2 + more) := by
  cases state with
  | loadHead => exact tracks
  | loadSequence pos =>
      obtain ⟨free, position, word, behind⟩ := tracks
      exact ⟨free, position, word, by rw [head, ← behind, Nat.add_assoc]⟩
  | compareExchange pos =>
      obtain ⟨free, position, word, behind, seen⟩ := tracks
      exact ⟨free, position, word, by rw [head, ← behind, Nat.add_assoc],
        moves.keep_filled capacity.atLeastTwo holding seen⟩
  | moveOut pos => exact tracks
  | storeSequence pos item => exact tracks

/-- A step on the words of a ring, as a step on the ring. -/
structure Steps (ring : SlotRing α capacity.value) (thread : Nat) (hold : Hold α)
    (since : Nat × Nat) (result : DequeueStep α capacity) (nextRing : SlotRing α capacity.value)
    (held : Hold α) (label : Option (RingEvent Nat α)) : Prop where
  moves : RingProtocol.Moves ring thread hold nextRing held label
  slots : result.slots = slotsOf nextRing
  head : result.head = toWord nextRing.head
  tail : nextRing.tail = ring.tail
  claims : nextRing.head = ring.head + if result.event.claims then 1 else 0
  tracks : Tracks? nextRing held (0, since.1) result.state

/-- Every step of Dequeue is a move on the ring or none, unless the head has gone all
the way round behind a compare-exchange. -/
theorem step_tracks (thread : Nat) (valid : ring.Valid) (tracks : state.Tracks ring hold since)
    (spurious : Bool) (left : α)
    (near : (state.step (slotsOf ring) (toWord ring.head) spurious left).event.claims = true →
      since.2 < 2 ^ 64) :
    ∃ nextRing held label, Steps ring thread hold since
      (state.step (slotsOf ring) (toWord ring.head) spurious left) nextRing held label := by
  cases state with
  | loadHead =>
      obtain rfl : hold = .none := tracks
      exact ⟨ring, .none, none, .stutter, rfl, rfl, rfl, rfl, rfl, ring.head, rfl, rfl⟩
  | loadSequence pos =>
      obtain ⟨rfl, position, rfl, behind⟩ := tracks
      refine ⟨ring, .none, none, ?_⟩
      simp only [step]
      split
      · next same =>
        rw [sequenceDiff_eq_zero_iff] at same
        refine ⟨.stutter, rfl, rfl, rfl, rfl, rfl, position, rfl, behind, by omega, ?_⟩
        rintro rfl
        exact filled_of_word valid same
      · split
        · exact ⟨.stutter, rfl, rfl, rfl, rfl, rfl⟩
        · exact ⟨.stutter, rfl, rfl, rfl, rfl, rfl⟩
  | compareExchange pos =>
      obtain ⟨rfl, position, rfl, behind, seen⟩ := tracks
      simp only [step] at near ⊢
      split
      · next succeeded =>
        rw [if_pos succeeded] at near
        have round : since.2 < 2 ^ 64 := near rfl
        obtain rfl : position = ring.head :=
          ((toWord_inj (by omega) (by omega)).mp succeeded.1).symm
        exact ⟨ring.claimHead, _, _, .move (.claimHead (seen.2 rfl)), rfl,
          (toWord_succ ring.head).symm, rfl, rfl, ring.head, rfl, rfl⟩
      · exact ⟨ring, .none, none, .stutter, rfl, rfl, rfl, rfl, rfl, ring.head, rfl, rfl⟩
  | moveOut pos =>
      obtain ⟨position, rfl, rfl⟩ := tracks
      have stored : (slotsOf ring (capacity.index (toWord position))).storage =
          ring.storageAt position := by
        rw [slotsOf_index]
      exact ⟨ring.store position left, .taken position (ring.storageAt position), _, .move .take,
        (slotsOf_store position left).symm, rfl, rfl, rfl, position, rfl, by rw [stored]⟩
  | storeSequence pos item =>
      obtain ⟨position, rfl, rfl⟩ := tracks
      exact ⟨_, _, _, .move .release, (slotsOf_release position).symm, rfl, rfl, rfl, rfl⟩

end DequeueState
namespace MPMCQueue

variable {α : Type} {capacity : QueueCapacity} {start : Nat} {storage : Fin capacity.value → α}
  {events : List (Event α)} {queue next : MPMCQueue α capacity} {choice : Choice α}
  {event : Event α} {protocol : RingProtocol Nat α capacity.value}

/-- The thread of an event. -/
def Event.thread : Event α → ThreadIndex
  | .called thread _ | .enqueue thread _ | .dequeue thread _ => thread

/-- The event is a step of a thread. -/
def Event.isOf (thread : ThreadIndex) (event : Event α) : Bool := event.thread = thread

/-- A compare-exchange that succeeds finds the counter that its thread has loaded, not
one that has gone all the way round since: each thread loads two steps before. -/
def Unlapped (events : List (Event α)) (event : Event α) : Prop :=
  (event.claimsTail = true →
    (tallySince (Event.isOf event.thread) Event.claimsTail events).2 < 2 ^ 64) ∧
  (event.claimsHead = true →
    (tallySince (Event.isOf event.thread) Event.claimsHead events).2 < 2 ^ 64)

instance (events : List (Event α)) (event : Event α) : Decidable (Unlapped events event) :=
  inferInstanceAs (Decidable (_ ∧ _))

/-- A thread on the words of a ring. -/
def ThreadState.Tracks (ring : SlotRing α capacity.value) (hold : Hold α)
    (sinceTail sinceHead : Nat × Nat) : ThreadState α → Prop
  | .idle => hold = .none
  | .enqueue state => state.Tracks ring hold sinceTail
  | .dequeue state => state.Tracks ring hold sinceHead

/-- A queue that follows a run of the ring protocol in words. -/
structure Follows (start : Nat) (storage : Fin capacity.value → α) (events : List (Event α))
    (queue : MPMCQueue α capacity) (protocol : RingProtocol Nat α capacity.value) : Prop where
  run : ∃ labels, (RingProtocol.system Nat α capacity.value).Runs
    (RingProtocol.startedAt start storage) labels protocol
  slots : queue.slots = slotsOf protocol.ring
  tail : queue.tail = toWord protocol.ring.tail
  head : queue.head = toWord protocol.ring.head
  claimsTail : protocol.ring.tail = start + tally Event.claimsTail events
  claimsHead : protocol.ring.head = start + tally Event.claimsHead events
  tracks : ∀ thread, (queue.threads thread).Tracks protocol.ring (protocol.holds thread)
    (tallySince (Event.isOf thread) Event.claimsTail events)
    (tallySince (Event.isOf thread) Event.claimsHead events)

theorem follows_startedAt : Follows start storage [] (startedAt (toWord start) storage)
    (RingProtocol.startedAt start storage) where
  run := ⟨[], .refl⟩
  slots := (slotsOf_startedAt start storage).symm
  tail := rfl
  head := rfl
  claimsTail := rfl
  claimsHead := rfl
  tracks _ := rfl

theorem ThreadState.Tracks.keep {state : ThreadState α} {ring nextRing : SlotRing α capacity.value}
    {hold held mine : Hold α} {sinceTail sinceHead : Nat × Nat} {mover tailMore headMore : Nat}
    {label : Option (RingEvent Nat α)} {labels : List (RingEvent Nat α)}
    (tracks : state.Tracks ring hold sinceTail sinceHead)
    (moves : RingProtocol.Moves ring mover mine nextRing held label)
    (holding : RingProtocol.Holding ring labels mover mine)
    (tail : nextRing.tail = ring.tail + tailMore) (head : nextRing.head = ring.head + headMore) :
    state.Tracks nextRing hold (sinceTail.1 + tailMore, sinceTail.2 + tailMore)
      (sinceHead.1 + headMore, sinceHead.2 + headMore) := by
  cases state with
  | idle => exact tracks
  | enqueue state => exact EnqueueState.Tracks.keep tracks moves holding tail
  | dequeue state => exact DequeueState.Tracks.keep tracks moves holding head

/-- A step of a thread that is a move on the ring or none keeps the queue following. -/
theorem Follows.moved (follows : Follows start storage events queue protocol)
    (lap : capacity.value ∣ start) {thread : ThreadIndex} {nextRing : SlotRing α capacity.value}
    {held : Hold α} {label : Option (RingEvent Nat α)} {state : ThreadState α}
    (moves : RingProtocol.Moves protocol.ring thread (protocol.holds thread) nextRing held label)
    (slots : next.slots = slotsOf nextRing) (tail : next.tail = toWord nextRing.tail)
    (head : next.head = toWord nextRing.head)
    (tailMore : nextRing.tail = protocol.ring.tail + if event.claimsTail then 1 else 0)
    (headMore : nextRing.head = protocol.ring.head + if event.claimsHead then 1 else 0)
    (mine : event.thread = thread) (threads : next.threads = Function.update queue.threads thread state)
    (tracks : state.Tracks nextRing held
      (0, (tallySince (Event.isOf thread) Event.claimsTail events).1)
      (0, (tallySince (Event.isOf thread) Event.claimsHead events).1)) :
    Follows start storage (events ++ [event]) next
      { ring := nextRing, holds := Function.update protocol.holds thread held } := by
  obtain ⟨labels, run⟩ := follows.run
  have holding := (RingProtocol.consistent_of_runs capacity.atLeastTwo lap run).holding thread
  refine ⟨⟨_, moves.run run⟩, slots, tail, head, ?_, ?_, ?_⟩
  · rw [tally_concat, ← Nat.add_assoc, ← follows.claimsTail]
    exact tailMore
  · rw [tally_concat, ← Nat.add_assoc, ← follows.claimsHead]
    exact headMore
  · intro other
    dsimp only
    rw [threads]
    by_cases same : other = thread
    · subst same
      have marks : event.isOf other = true := decide_eq_true mine
      rw [Function.update_self, Function.update_self, tallySince_marked marks,
        tallySince_marked marks]
      exact tracks
    · have plain : event.isOf other = false := by
        rw [Event.isOf, mine]
        exact decide_eq_false fun also => same also.symm
      rw [Function.update_of_ne same, Function.update_of_ne same, tallySince_unmarked plain,
        tallySince_unmarked plain]
      exact (follows.tracks other).keep moves holding tailMore headMore

theorem tracks_ofEnqueue {ring : SlotRing α capacity.value} {hold : Hold α}
    {sinceTail sinceHead : Nat × Nat} {state : Option (EnqueueState α)}
    (tracks : EnqueueState.Tracks? ring hold sinceTail state) :
    (ThreadState.ofEnqueue state).Tracks ring hold sinceTail sinceHead := by
  cases state <;> exact tracks

theorem tracks_ofDequeue {ring : SlotRing α capacity.value} {hold : Hold α}
    {sinceTail sinceHead : Nat × Nat} {state : Option (DequeueState α)}
    (tracks : DequeueState.Tracks? ring hold sinceHead state) :
    (ThreadState.ofDequeue state).Tracks ring hold sinceTail sinceHead := by
  cases state <;> exact tracks

theorem claimsTail_enqueue {thread : ThreadIndex} {event : EnqueueEvent α} :
    (Event.enqueue thread event).claimsTail = event.claims := by
  cases event <;> rfl

theorem claimsHead_dequeue {thread : ThreadIndex} {event : DequeueEvent α} :
    (Event.dequeue thread event).claimsHead = event.claims := by
  cases event <;> rfl

/-- Every step keeps the queue following a run of the protocol. -/
theorem Follows.step (follows : Follows start storage events queue protocol)
    (lap : capacity.value ∣ start) (transition : queue.step choice = some (next, event))
    (unlapped : Unlapped events event) :
    ∃ protocol, Follows start storage (events ++ [event]) next protocol := by
  obtain ⟨labels, run⟩ := follows.run
  have valid := (RingProtocol.consistent_of_runs capacity.atLeastTwo lap run).valid
  cases step_sound transition with
  | @call thread idle call =>
      have tracks := follows.tracks thread
      rw [idle] at tracks
      refine ⟨_, follows.moved lap .stutter follows.slots follows.tail follows.head rfl rfl rfl
        rfl ?_⟩
      cases call <;> exact tracks
  | @enqueue thread state here spurious left =>
      have tracks := follows.tracks thread
      rw [here] at tracks
      rw [follows.slots, follows.tail] at unlapped ⊢
      obtain ⟨nextRing, held, label, steps⟩ :=
        EnqueueState.step_tracks thread valid tracks spurious
          fun claims => unlapped.1 (claimsTail_enqueue.trans claims)
      refine ⟨_, follows.moved lap steps.moves steps.slots steps.tail ?_ ?_ ?_ rfl rfl
        (tracks_ofEnqueue steps.tracks)⟩
      · exact follows.head.trans (congrArg toWord steps.head.symm)
      · rw [claimsTail_enqueue]
        exact steps.claims
      · exact steps.head
  | @dequeue thread state here spurious left =>
      have tracks := follows.tracks thread
      rw [here] at tracks
      rw [follows.slots, follows.head] at unlapped ⊢
      obtain ⟨nextRing, held, label, steps⟩ :=
        DequeueState.step_tracks thread valid tracks spurious left
          fun claims => unlapped.2 (claimsHead_dequeue.trans claims)
      refine ⟨_, follows.moved lap steps.moves steps.slots ?_ steps.head ?_ ?_ rfl rfl
        (tracks_ofDequeue steps.tracks)⟩
      · exact follows.tail.trans (congrArg toWord steps.tail.symm)
      · exact steps.tail
      · rw [claimsHead_dequeue]
        exact steps.claims

/-- Every run follows the ring protocol as long as no compare-exchange is lapped. -/
theorem follows_of_runs (lap : capacity.value ∣ start)
    (run : (system α capacity).RunsUnder (fun events _ _ event => Unlapped events event)
      (startedAt (toWord start) storage) events queue) :
    ∃ protocol, Follows start storage events queue protocol := by
  apply run.invariant fun events queue => ∃ protocol, Follows start storage events queue protocol
  · exact ⟨_, follows_startedAt⟩
  · rintro events queue choice next event - ⟨protocol, follows⟩ transition unlapped
    exact follows.step lap transition unlapped

end MPMCQueue
end MmoServer.LockfreeQueue
