import MmoServer.Net.SendPipeline
import MmoServer.Std.Exclusive

/-!
# What the send pipeline keeps

`writeInProgress_` has one owner: the thread between TryBeginWrite and EndWrite, or the
write that it has started. Only the owner pops, so the packets leave in the order of the
pushes. A packet that is pushed while the flag is set is not forgotten: whoever clears
the flag looks at the queue afterwards, and so does whoever pushes.
-/

namespace MmoServer.Net

open MmoServer.Semantics MmoServer.Std

/-- Between TryBeginWrite and EndWrite, the write itself apart. -/
def Point.Holds : Point → Prop
  | .pop | .write _ | .endWrite | .completed | .disconnect | .remove | .giveUp => True
  | _ => False

/-- On the way to look at the queue. -/
def Point.Alert : Point → Prop
  | .tryBegin | .recheck => True
  | _ => False

/-- In the handler of a write that failed. -/
def Point.Fails : Point → Prop
  | .disconnect | .remove | .giveUp => True
  | _ => False

/-- A thread that is giving up still owns the flag. -/
theorem Point.Fails.holds {point : Point} (fails : point.Fails) : point.Holds := by
  cases point <;> trivial

/-- Neither a push nor a write. -/
def Event.Quiet {Thread : Type} : Event Thread → Prop
  | .silent | .returned _ _ => True
  | _ => False

namespace SendPipeline

variable {Thread : Type} {pipeline next : SendPipeline Thread} {event : Event Thread}
  {events : List (Event Thread)} {agent : Agent Thread} {point : Point}
  {points : Agent Thread → Point} {outstanding carried : List ByteBuffer}

/-- Who owns the flag: a thread, or a write, which is `none`. -/
def Owns (points : Agent Thread → Point) (outstanding : List ByteBuffer) :
    Option (Agent Thread) → Prop
  | some agent => (points agent).Holds
  | none => outstanding ≠ []

/-- The flag is set exactly while one thread or one write owns it. -/
structure Owned (pipeline : SendPipeline Thread) : Prop where
  single : pipeline.outstanding.length ≤ 1
  exclusive : Exclusive pipeline.writeInProgress (Owns pipeline.points pipeline.outstanding)

/-- A thread that owns the flag is the only one, and no write is under way. -/
theorem Owned.sole (owned : pipeline.Owned) (holds : (pipeline.points agent).Holds) :
    pipeline.outstanding = [] ∧ ∀ other, (pipeline.points other).Holds → other = agent := by
  have owns : Owns pipeline.points pipeline.outstanding (some agent) := holds
  constructor
  · by_contra written
    have write : Owns pipeline.points pipeline.outstanding none := written
    cases owned.exclusive.unique owns write
  · intro other also
    have owns_other : Owns pipeline.points pipeline.outstanding (some other) := also
    exact Option.some.inj (owned.exclusive.unique owns_other owns)

/-- The flag is set while a thread owns it. -/
theorem Owned.set (owned : pipeline.Owned) (holds : (pipeline.points agent).Holds) :
    pipeline.writeInProgress = true := by
  have owns : Owns pipeline.points pipeline.outstanding (some agent) := holds
  exact owned.exclusive.set owns

/-- The packet that a thread has popped and not yet given to `async_write`. -/
def Carries (points : Agent Thread → Point) (carried : List ByteBuffer) : Prop :=
  (∀ agent packet, points agent = .write packet → carried = [packet]) ∧
    (carried ≠ [] → ∃ agent packet, points agent = .write packet)

/-- Where no thread is about to write, nothing is carried. -/
theorem Carries.eq_nil (carries : Carries points carried)
    (empty : ∀ agent packet, points agent ≠ .write packet) : carried = [] := by
  by_contra full
  obtain ⟨agent, packet, here⟩ := carries.2 full
  exact empty agent packet here

/-- Nothing has to be carried there. -/
theorem carries_nil (empty : ∀ agent packet, points agent ≠ .write packet) : Carries points [] :=
  ⟨fun agent packet here => absurd here (empty agent packet), fun full => absurd rfl full⟩

/-- What is carried depends only on who is about to write. -/
theorem Carries.of_same (carries : Carries points carried) {after : Agent Thread → Point}
    (same : ∀ agent packet, after agent = .write packet ↔ points agent = .write packet) :
    Carries after carried := by
  refine ⟨fun agent packet here => carries.1 agent packet ((same agent packet).mp here), ?_⟩
  intro full
  obtain ⟨agent, packet, here⟩ := carries.2 full
  exact ⟨agent, packet, (same agent packet).mpr here⟩

/-- Who does not own the flag is not about to write. -/
theorem ne_write_of_not_holds (outside : ¬ point.Holds) (packet : ByteBuffer) :
    point ≠ .write packet := by
  rintro rfl
  exact outside trivial

@[simp] theorem pushed_append (front back : List (Event Thread)) :
    pushed (front ++ back) = pushed front ++ pushed back := List.filterMap_append

@[simp] theorem handed_append (front back : List (Event Thread)) :
    handed (front ++ back) = handed front ++ handed back := List.filterMap_append

/-- A quiet step pushes nothing and writes nothing. -/
theorem unseen (quiet : event.Quiet) : pushed [event] = [] ∧ handed [event] = [] := by
  cases event <;> first | exact ⟨rfl, rfl⟩ | exact quiet.elim

/-- What has been pushed has been handed on, is carried or is in the queue. -/
structure Ordered (events : List (Event Thread)) (pipeline : SendPipeline Thread)
    (carried : List ByteBuffer) : Prop where
  carries : Carries pipeline.points carried
  order : pushed events = handed events ++ carried ++ pipeline.sendQueue
  bounded : pipeline.sendQueue.length ≤ kMaxPendingSendPackets

/-- A step that neither pushes nor writes. -/
theorem Ordered.quiet (ordered : Ordered events pipeline carried) (quiet : event.Quiet)
    (carries : Carries next.points carried) (queue : next.sendQueue = pipeline.sendQueue) :
    Ordered (events ++ [event]) next carried := by
  obtain ⟨unpushed, unhanded⟩ := unseen quiet
  refine ⟨carries, ?_, queue ▸ ordered.bounded⟩
  rw [pushed_append, handed_append, unpushed, unhanded, List.append_nil, List.append_nil, queue]
  exact ordered.order

variable [DecidableEq Thread] {choice : Choice Thread} {owner : Option (Agent Thread)}

/-! ## The steps -/

/-- Only the moving thread changes its place. -/
theorem points_setPoint {other : Agent Thread} : (pipeline.setPoint agent point).points other =
    if other = agent then point else pipeline.points other := Function.update_apply ..

/-- What a step can do. -/
inductive Step (pipeline : SendPipeline Thread) : SendPipeline Thread → Event Thread → Prop
  /-- A thread moves where it does not own the flag. It does not lose sight of the queue
  unless the flag is set or the queue empty. -/
  | moved {agent : Agent Thread} {point : Point} {event : Event Thread} (quiet : event.Quiet)
      (outside : ¬ (pipeline.points agent).Holds)
      (stays : ¬ point.Holds)
      (alert : (pipeline.points agent).Alert → point.Alert ∨ pipeline.writeInProgress = true ∨
        pipeline.sendQueue = []) :
      Step pipeline (pipeline.setPoint agent point) event
  | pushed {agent : Agent Thread} {packet} (here : pipeline.points agent = .push packet)
      (room : pipeline.sendQueue.length < kMaxPendingSendPackets) :
      Step pipeline
        ({ pipeline with sendQueue := pipeline.sendQueue ++ [packet] }.setPoint agent .tryBegin)
        (.pushed packet)
  | began {agent : Agent Thread} (here : pipeline.points agent = .tryBegin)
      (free : pipeline.writeInProgress = false) :
      Step pipeline ({ pipeline with writeInProgress := true }.setPoint agent .pop) .silent
  | emptied {agent : Agent Thread} (here : pipeline.points agent = .pop)
      (empty : pipeline.sendQueue = []) :
      Step pipeline (pipeline.setPoint agent .endWrite) .silent
  | popped {agent : Agent Thread} {packet rest} (here : pipeline.points agent = .pop)
      (queue : pipeline.sendQueue = packet :: rest) :
      Step pipeline ({ pipeline with sendQueue := rest }.setPoint agent (.write packet)) .silent
  | handed {agent : Agent Thread} {packet} (here : pipeline.points agent = .write packet) :
      Step pipeline
        ({ pipeline with outstanding := pipeline.outstanding ++ [packet] }.setPoint agent
          (.leave true))
        (.handed packet)
  | completed {failed front packet back} (here : pipeline.points .io = .idle)
      (split : pipeline.outstanding = front ++ packet :: back) :
      Step pipeline
        ({ pipeline with outstanding := front ++ back }.setPoint .io
          (if failed then .disconnect else .completed))
        (.completed failed)
  | ended {agent : Agent Thread} {point : Point}
      (here : pipeline.points agent = .endWrite ∧ point = .recheck ∨
        pipeline.points agent = .completed ∧ point = .tryBegin) :
      Step pipeline ({ pipeline with writeInProgress := false }.setPoint agent point) .silent
  | disconnected {agent : Agent Thread} (here : pipeline.points agent = .disconnect) :
      Step pipeline ({ pipeline with connected := false }.setPoint agent .remove) .silent
  | removed {agent : Agent Thread} (here : pipeline.points agent = .remove) :
      Step pipeline ({ pipeline with registered := false }.setPoint agent .giveUp) .silent
  | gaveUp {agent : Agent Thread} (here : pipeline.points agent = .giveUp) :
      Step pipeline ({ pipeline with writeInProgress := false }.setPoint agent (.leave false)) .silent
  | closed {connected registered} :
      Step pipeline { pipeline with connected, registered } .silent

/-- Every step of a thread is one of the listed outcomes. -/
theorem advance_sound (stepped : pipeline.advance agent = some (next, event)) :
    Step pipeline next event := by
  have outside : ∀ {before : Point}, pipeline.points agent = before → ¬ before.Holds →
      ¬ (pipeline.points agent).Holds := fun here free holds => free (here ▸ holds)
  have calm : ∀ {before after : Point}, pipeline.points agent = before → ¬ before.Alert →
      (pipeline.points agent).Alert → after.Alert ∨ pipeline.writeInProgress = true ∨
        pipeline.sendQueue = [] := fun here none alert => absurd (here ▸ alert) none
  rw [advance] at stepped
  split at stepped
  · cases stepped
  · next here =>
    split at stepped <;> cases stepped <;>
      exact .moved trivial (outside here id) id (calm here id)
  · next here =>
    split at stepped <;> cases stepped <;>
      exact .moved trivial (outside here id) id (calm here id)
  · next here =>
    split at stepped <;> cases stepped
    · exact .moved trivial (outside here id) id (calm here id)
    · next room => exact .pushed here (Nat.not_le.mp room)
  · next here =>
    split at stepped <;> cases stepped
    · next set => exact .moved trivial (outside here id) id fun _ => .inr (.inl set)
    · next free => exact .began here (Bool.eq_false_iff.mpr free)
  · next here =>
    split at stepped <;> cases stepped
    · next empty => exact .emptied here empty
    · next queue => exact .popped here queue
  · next here =>
    cases stepped
    exact .ended (.inl ⟨here, rfl⟩)
  · next here =>
    split at stepped <;> cases stepped
    · next empty => exact .moved trivial (outside here id) id fun _ => .inr (.inr empty)
    · exact .moved trivial (outside here id) id fun _ => .inl trivial
  · next here =>
    cases stepped
    exact .handed here
  · next here =>
    cases stepped
    exact .ended (.inr ⟨here, rfl⟩)
  · next here =>
    cases stepped
    exact .disconnected here
  · next here =>
    cases stepped
    exact .removed here
  · next here =>
    cases stepped
    exact .gaveUp here
  · next here =>
    cases stepped
    exact .moved trivial (outside here id) id (calm here id)

/-- Every step of the pipeline is one of the listed outcomes. -/
theorem step_sound (stepped : (system Thread).step pipeline choice = some (next, event)) :
    Step pipeline next event := by
  cases choice with
  | send thread packet =>
      simp only [system, step] at stepped
      split at stepped
      · next here =>
        cases stepped
        refine .moved trivial ?_ id ?_ <;> rw [here]
        · exact id
        · exact False.elim
      · cases stepped
  | step agent => exact advance_sound stepped
  | complete index failed =>
      simp only [system, step] at stepped
      split at stepped
      · next ready =>
        cases stepped
        have inside := ready.2
        have split : pipeline.outstanding = pipeline.outstanding.take index ++
            pipeline.outstanding[index] :: pipeline.outstanding.drop (index + 1) := by
          rw [← List.drop_eq_getElem_cons inside, List.take_append_drop]
        rw [List.eraseIdx_eq_take_drop_succ]
        exact .completed ready.1 split
      · cases stepped
  | disconnect =>
      cases stepped
      exact .closed
  | remove =>
      cases stepped
      exact .closed

/-! ## The owner of the flag -/

/-- The owners after one thread has moved. -/
theorem owns_update : Owns (Function.update points agent point) outstanding owner ↔
    owner = some agent ∧ point.Holds ∨ owner ≠ some agent ∧ Owns points outstanding owner := by
  cases owner with
  | none => simp [Owns]
  | some other =>
      by_cases same : other = agent
      · subst same
        simp [Owns]
      · simp [Owns, same]

/-- They stay where the move neither takes the flag nor releases it. -/
theorem owns_update_of_iff (same : point.Holds ↔ (points agent).Holds) :
    Owns (Function.update points agent point) outstanding owner ↔ Owns points outstanding owner := by
  rw [owns_update]
  by_cases here : owner = some agent
  · subst here
    simp [Owns, same]
  · simp [here]

/-- The owner of the flag moves and keeps it. -/
theorem Owned.keep (owned : pipeline.Owned) (same : point.Holds ↔ (pipeline.points agent).Holds) :
    Exclusive pipeline.writeInProgress
      (Owns (Function.update pipeline.points agent point) pipeline.outstanding) :=
  owned.exclusive.congr fun _ => owns_update_of_iff same

/-- The owner of the flag clears it. -/
theorem Owned.clear (owned : pipeline.Owned) (holds : (pipeline.points agent).Holds)
    (out : ¬ point.Holds) :
    Exclusive false (Owns (Function.update pipeline.points agent point) pipeline.outstanding) := by
  have owns : Owns pipeline.points pipeline.outstanding (some agent) := holds
  refine owned.exclusive.leave owns fun owner after => ?_
  rcases owns_update.mp after with ⟨-, inside⟩ | ⟨different, before⟩
  · exact absurd inside out
  · exact ⟨before, different⟩

/-- Every step keeps the flag with a single owner. -/
theorem Owned.step (owned : pipeline.Owned) (step : Step pipeline next event) : next.Owned := by
  cases step with
  | moved quiet outside stays alert => exact ⟨owned.single, owned.keep (iff_of_false stays outside)⟩
  | pushed here room =>
      exact ⟨owned.single, owned.keep (by rw [here]; exact Iff.rfl)⟩
  | @began agent here free =>
      have clear := owned.exclusive
      rw [free] at clear
      have inside : Owns (Function.update pipeline.points agent .pop) pipeline.outstanding
          (some agent) := owns_update.mpr (.inl ⟨rfl, trivial⟩)
      refine ⟨owned.single, clear.enter (fun owner after => ?_) inside⟩
      rcases owns_update.mp after with ⟨same, -⟩ | ⟨-, before⟩
      · exact .inl same
      · exact .inr before
  | emptied here empty => exact ⟨owned.single, owned.keep (by rw [here]; exact Iff.rfl)⟩
  | popped here queue => exact ⟨owned.single, owned.keep (by rw [here]; exact Iff.rfl)⟩
  | @handed agent packet here =>
      have holds : (pipeline.points agent).Holds := by
        rw [here]
        trivial
      have owns : Owns pipeline.points pipeline.outstanding (some agent) := holds
      have written : Owns (Function.update pipeline.points agent (.leave true))
          (pipeline.outstanding ++ [packet]) none := List.append_ne_nil_of_right_ne_nil _ (by simp)
      refine ⟨?_, owned.exclusive.pass owns (fun owner after => ?_) written⟩
      · have none_written : pipeline.outstanding = [] := (owned.sole holds).1
        rw [setPoint, none_written]
        exact Nat.le_refl _
      · cases owner with
        | none => exact .inl rfl
        | some other =>
            have before : Owns (Function.update pipeline.points agent (.leave true))
              pipeline.outstanding (some other) := after
            rcases owns_update.mp before with ⟨-, inside⟩ | ⟨different, before⟩
            · exact absurd inside id
            · exact .inr ⟨before, different⟩
  | @completed failed front packet back here split =>
      have single := owned.single
      rw [split, List.length_append, List.length_cons] at single
      obtain rfl : front = [] := List.length_eq_zero_iff.mp (by omega)
      obtain rfl : back = [] := List.length_eq_zero_iff.mp (by omega)
      have inside : Point.Holds (if failed then .disconnect else .completed) := by
        cases failed <;> trivial
      have owns : Owns pipeline.points pipeline.outstanding none := by
        rw [split]
        exact List.cons_ne_nil _ _
      have running : Owns (Function.update pipeline.points .io
          (if failed then .disconnect else .completed)) [] (some .io) :=
        owns_update.mpr (.inl ⟨rfl, inside⟩)
      refine ⟨Nat.zero_le _, owned.exclusive.pass owns (fun owner after => ?_) running⟩
      rcases owns_update.mp after with ⟨same, -⟩ | ⟨different, before⟩
      · exact .inl same
      · cases owner with
        | none => exact absurd rfl before
        | some other => exact .inr ⟨before, by simp⟩
  | ended here => 
      rcases here with ⟨here, rfl⟩ | ⟨here, rfl⟩
      · exact ⟨owned.single, owned.clear (by rw [here]; trivial) id⟩
      · exact ⟨owned.single, owned.clear (by rw [here]; trivial) id⟩
  | disconnected here => exact ⟨owned.single, owned.keep (by rw [here]; exact Iff.rfl)⟩
  | removed here => exact ⟨owned.single, owned.keep (by rw [here]; exact Iff.rfl)⟩
  | gaveUp here => exact ⟨owned.single, owned.clear (by rw [here]; trivial) id⟩
  | closed => exact ⟨owned.single, owned.exclusive⟩

/-! ## The order of the packets -/

/-- A move from and to elsewhere than the write. -/
theorem Carries.update (carries : Carries points carried)
    (before : ∀ packet, points agent ≠ .write packet) (after : ∀ packet, point ≠ .write packet) :
    Carries (Function.update points agent point) carried := by
  refine carries.of_same fun other packet => ?_
  rw [Function.update_apply]
  split
  · next same =>
    subst same
    exact iff_of_false (after packet) (before packet)
  · exact Iff.rfl

/-- Every step keeps the packets in the order of their pushes. -/
theorem Ordered.step (ordered : Ordered events pipeline carried) (owned : pipeline.Owned)
    (step : Step pipeline next event) : ∃ carried, Ordered (events ++ [event]) next carried := by
  have carries := ordered.carries
  have order := ordered.order
  have bounded := ordered.bounded
  cases step with
  | moved quiet outside stays alert =>
      exact ⟨carried, ordered.quiet quiet
        (carries.update (ne_write_of_not_holds outside) (ne_write_of_not_holds stays)) rfl⟩
  | pushed here room =>
      refine ⟨carried, carries.update (by simp [here]) (by simp), ?_, ?_⟩
      · rw [pushed_append, handed_append, order]
        simp [pushed, handed, setPoint]
      · rw [setPoint, List.length_append]
        exact room
  | began here free =>
      exact ⟨carried, ordered.quiet trivial (carries.update (by simp [here]) (by simp)) rfl⟩
  | emptied here empty =>
      exact ⟨carried, ordered.quiet trivial (carries.update (by simp [here]) (by simp)) rfl⟩
  | @popped agent packet rest here queue =>
      have sole := (owned.sole (by rw [here]; trivial)).2
      have alone : ∀ other packet, pipeline.points other ≠ .write packet := by
        intro other packet writing
        obtain rfl := sole other (by rw [writing]; trivial)
        rw [here] at writing
        cases writing
      obtain rfl := carries.eq_nil alone
      refine ⟨[packet], ⟨?_, fun _ => ⟨agent, packet, Function.update_self ..⟩⟩, ?_, ?_⟩
      · intro other held writing
        rw [points_setPoint] at writing
        split at writing
        · cases writing
          rfl
        · exact absurd writing (alone other held)
      · rw [pushed_append, handed_append, order, queue]
        simp [pushed, handed, setPoint]
      · rw [queue, List.length_cons] at bounded
        exact Nat.le_of_succ_le bounded
  | @handed agent packet here =>
      have sole := (owned.sole (by rw [here]; trivial)).2
      obtain rfl := carries.1 agent packet here
      refine ⟨[], carries_nil ?_, ?_, bounded⟩
      · intro other held writing
        rw [points_setPoint] at writing
        split at writing
        · cases writing
        · next different => exact different (sole other (by rw [writing]; trivial))
      · rw [pushed_append, handed_append, order]
        simp [pushed, handed, setPoint]
  | @completed failed front packet back here split =>
      have after : ∀ packet, (if failed then Point.disconnect else .completed) ≠ .write packet := by
        cases failed <;> simp
      refine ⟨carried, carries.update (by simp [here]) after, ?_, bounded⟩
      rw [pushed_append, handed_append, order]
      simp [pushed, handed, setPoint]
  | ended here =>
      refine ⟨carried, ordered.quiet trivial ?_ rfl⟩
      rcases here with ⟨here, rfl⟩ | ⟨here, rfl⟩
      · exact carries.update (by simp [here]) (by simp)
      · exact carries.update (by simp [here]) (by simp)
  | disconnected here =>
      exact ⟨carried, ordered.quiet trivial (carries.update (by simp [here]) (by simp)) rfl⟩
  | removed here =>
      exact ⟨carried, ordered.quiet trivial (carries.update (by simp [here]) (by simp)) rfl⟩
  | gaveUp here =>
      exact ⟨carried, ordered.quiet trivial (carries.update (by simp [here]) (by simp)) rfl⟩
  | closed => exact ⟨carried, ordered.quiet trivial carries rfl⟩

/-! ## No packet is forgotten -/

/-- While the queue holds a packet, the flag is set or someone is going to look at it, and
no write has failed. -/
structure Watched (pipeline : SendPipeline Thread) : Prop where
  sound : ∀ agent, ¬ (pipeline.points agent).Fails
  watched : pipeline.sendQueue ≠ [] →
    pipeline.writeInProgress = true ∨ ∃ agent, (pipeline.points agent).Alert

/-- A thread moves on and nothing else matters. -/
theorem sound_update (sound : ∀ agent, ¬ (points agent).Fails) (fine : ¬ point.Fails) :
    ∀ other, ¬ (Function.update points agent point other).Fails := by
  intro other
  rw [Function.update_apply]
  split
  · exact fine
  · exact sound other

/-- As long as no write fails, somebody will look at the queue. -/
theorem Watched.step (watched : pipeline.Watched) (owned : pipeline.Owned)
    (step : Step pipeline next event) (succeeds : event ≠ .completed true) : next.Watched := by
  obtain ⟨sound, watches⟩ := watched
  cases step with
  | @moved agent point event quiet outside stays alert =>
      refine ⟨sound_update sound (fun fails => stays fails.holds), fun full => ?_⟩
      rcases watches full with set | ⟨other, looking⟩
      · exact .inl set
      by_cases same : other = agent
      · subst same
        rcases alert looking with still | set | empty
        · exact .inr ⟨other, by rw [points_setPoint, if_pos rfl]; exact still⟩
        · exact .inl set
        · exact absurd empty full
      · exact .inr ⟨other, by rw [points_setPoint, if_neg same]; exact looking⟩
  | @pushed agent packet here room =>
      refine ⟨sound_update sound id, fun _ => .inr ⟨agent, ?_⟩⟩
      rw [points_setPoint, if_pos rfl]
      trivial
  | began here free => exact ⟨sound_update sound id, fun _ => .inl rfl⟩
  | emptied here empty => exact ⟨sound_update sound id, fun full => absurd empty full⟩
  | popped here queue =>
      exact ⟨sound_update sound id, fun _ => .inl (owned.set (by rw [here]; trivial))⟩
  | handed here =>
      exact ⟨sound_update sound id, fun _ => .inl (owned.set (by rw [here]; trivial))⟩
  | @completed failed front packet back here split =>
      cases failed with
      | true => exact absurd rfl succeeds
      | false =>
          have written : Owns pipeline.points pipeline.outstanding none := by
            rw [split]
            exact List.append_ne_nil_of_right_ne_nil _ (List.cons_ne_nil _ _)
          exact ⟨sound_update sound id, fun _ => .inl (owned.exclusive.set written)⟩
  | @ended agent point here =>
      have looking : point.Alert ∧ ¬ point.Fails := by
        rcases here with ⟨-, rfl⟩ | ⟨-, rfl⟩ <;> exact ⟨trivial, id⟩
      refine ⟨sound_update sound looking.2, fun _ => .inr ⟨agent, ?_⟩⟩
      rw [points_setPoint, if_pos rfl]
      exact looking.1
  | disconnected here => exact absurd (by rw [here]; trivial) (sound _)
  | removed here => exact absurd (by rw [here]; trivial) (sound _)
  | gaveUp here => exact absurd (by rw [here]; trivial) (sound _)
  | closed => exact ⟨sound, watches⟩

/-! ## Runs -/

omit [DecidableEq Thread] in
/-- A new connection has no owner. -/
theorem owned_accepted : (accepted : SendPipeline Thread).Owned := by
  have nobody : ∀ owner, ¬ Owns (fun _ : Agent Thread => .idle) [] owner := by
    rintro (_ | agent) owns
    · exact owns rfl
    · exact owns
  refine ⟨Nat.zero_le _, fun first => absurd first (nobody _), iff_of_false Bool.false_ne_true ?_⟩
  rintro ⟨owner, owns⟩
  exact nobody owner owns

/-- Along every run the flag has one owner and the packets are in order. -/
theorem owned_of_run (run : (system Thread).Runs accepted events pipeline) :
    pipeline.Owned ∧ ∃ carried, Ordered events pipeline carried := by
  have idle : ∀ (agent : Agent Thread) packet, Point.idle ≠ .write packet := by
    rintro _ _ ⟨⟩
  refine run.invariant
    (fun events pipeline => pipeline.Owned ∧ ∃ carried, Ordered events pipeline carried)
    ⟨owned_accepted, [], carries_nil idle, rfl, Nat.zero_le _⟩ ?_
  intro events before choice after event _ kept transition _
  obtain ⟨owned, carried, ordered⟩ := kept
  have step := step_sound transition
  exact ⟨owned.step step, ordered.step owned step⟩

/-- As long as no write fails. -/
theorem watched_of_run (run : (system Thread).Runs accepted events pipeline)
    (succeeds : .completed true ∉ events) : pipeline.Watched := by
  have every : ∀ event ∈ events, event ≠ .completed true := by
    rintro event member rfl
    exact succeeds member
  refine (run.restrict (· ≠ .completed true) every).invariant (fun _ pipeline => pipeline.Watched)
    ⟨fun _ => id, fun full => absurd rfl full⟩ ?_
  intro events before choice after event prior watched transition permitted
  exact watched.step (owned_of_run prior.runs).1 (step_sound transition) permitted.2

/-- At most one write is under way, the packets are written in the order in which they
were pushed, and the queue stays within its bound. As long as no write fails, the queue
is empty and every packet written when all threads are elsewhere. -/
theorem sends_in_order (run : (system Thread).Runs accepted events pipeline) :
    pipeline.outstanding.length ≤ 1 ∧
    (∃ carried, Carries pipeline.points carried ∧
      pushed events = handed events ++ carried ++ pipeline.sendQueue) ∧
    pipeline.sendQueue.length ≤ kMaxPendingSendPackets ∧
    (.completed true ∉ events → (∀ agent, pipeline.points agent = .idle) →
      pipeline.outstanding = [] → pipeline.sendQueue = [] ∧ handed events = pushed events) := by
  obtain ⟨owned, carried, ordered⟩ := owned_of_run run
  refine ⟨owned.single, ⟨carried, ordered.carries, ordered.order⟩, ordered.bounded, ?_⟩
  intro succeeds elsewhere nothing
  have empty : pipeline.sendQueue = [] := by
    by_contra full
    rcases (watched_of_run run succeeds).watched full with set | ⟨agent, looking⟩
    · obtain ⟨_ | agent, owns⟩ := owned.exclusive.set_iff.mp set
      · exact owns nothing
      · have holds : (pipeline.points agent).Holds := owns
        rw [elsewhere agent] at holds
        exact holds
    · rw [elsewhere agent] at looking
      exact looking
  have uncarried : carried = [] := ordered.carries.eq_nil (by simp [elsewhere])
  have order := ordered.order
  rw [empty, uncarried, List.append_nil, List.append_nil] at order
  exact ⟨empty, order.symm⟩

/-- Two senders, the second of which pushes first, and another packet that is pushed between the
writer's look into the empty queue and the release of its flag. -/
theorem two_senders_in_order : ∃ events pipeline,
    (system (Fin 2)).Runs accepted events pipeline ∧
      pushed events =
        [PacketCodec.encode 8 [66], PacketCodec.encode 7 [65], PacketCodec.encode 9 [67]] ∧
      pipeline.sendQueue = [] ∧ handed events = pushed events := by
  obtain ⟨events, pipeline, run, packets, succeeds, nothing, first, second, io⟩ :=
    (system (Fin 2)).runs_of_exec (fun _ _ _ _ => True) accepted
      (.send 0 ⟨7, [65]⟩ :: List.replicate 2 (.step (.sender 0)) ++
        .send 1 ⟨8, [66]⟩ :: List.replicate 3 (.step (.sender 1)) ++
        List.replicate 2 (.step (.sender 0)) ++ .step (.sender 1) ::
        List.replicate 3 (.step (.sender 0)) ++ .step (.sender 1) ::
        .complete 0 false :: List.replicate 5 (.step .io) ++
        .complete 0 false :: List.replicate 3 (.step .io) ++
        .send 0 ⟨9, [67]⟩ :: List.replicate 5 (.step (.sender 0)) ++
        List.replicate 6 (.step .io) ++
        .complete 0 false :: List.replicate 6 (.step .io))
      (fun pipeline events => pushed events =
          [PacketCodec.encode 8 [66], PacketCodec.encode 7 [65], PacketCodec.encode 9 [67]] ∧
        .completed true ∉ events ∧ pipeline.outstanding = [] ∧
        pipeline.points (.sender 0) = .idle ∧ pipeline.points (.sender 1) = .idle ∧
        pipeline.points .io = .idle)
      (by decide +kernel)
  have elsewhere : ∀ agent, pipeline.points agent = .idle := by
    rintro (thread | _)
    · rcases Fin.exists_fin_two.mp ⟨thread, rfl⟩ with same | same <;> rw [same]
      · exact first
      · exact second
    · exact io
  obtain ⟨empty, written⟩ := (sends_in_order run).2.2.2 succeeds elsewhere nothing
  exact ⟨events, pipeline, run, packets, empty, written⟩

end SendPipeline
end MmoServer.Net
