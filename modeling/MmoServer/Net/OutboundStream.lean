import MmoServer.Net.InboundPath
import MmoServer.Net.SendOrder
import MmoServer.Semantics.Tally
import MmoServer.Std.ThreadSum

/-!
# From Send to the bytes of a peer

What the threads push are encoded packets, one for each Send that answers true. The send
pipeline writes them in the order of the pushes, so a peer that feeds what it receives to
Decode gets the packets of these Sends, in that order and however the bytes are cut.

`Turn` says what a thread does next by itself; the flag and the queue only choose among
its turns.
-/

namespace MmoServer.Net

open MmoServer.Semantics MmoServer.Std

/-- In Send, before the packet is pushed. -/
def Point.Sending : Point → Prop
  | .lookup _ | .load _ | .push _ => True
  | _ => False

/-- After the push, on the way to answer true. -/
def Point.accepted : Point → Bool
  | .tryBegin | .pop | .write _ | .endWrite | .recheck | .completed | .leave true => true
  | _ => false

/-- What is on its way to be pushed is a packet that may be sent. -/
def Point.Sends (sendable : Packet → Prop) : Point → Prop
  | .lookup packet => sendable packet
  | .load bytes | .push bytes => ∃ packet, sendable packet ∧ bytes = packet.encode
  | _ => True

/-- Neither a push nor an answer. -/
def Event.Inner {Thread : Type} : Event Thread → Prop
  | .silent | .handed _ | .completed _ => True
  | _ => False

/-- A packet has been pushed. -/
def Event.pushes {Thread : Type} : Event Thread → Bool
  | .pushed _ => true
  | _ => false

/-- A Send answers true. -/
def Event.accepts {Thread : Type} : Event Thread → Bool
  | .returned (.sender _) result => result
  | _ => false

/-- The packet of a call of Send. -/
def Choice.sent? {Thread : Type} : Choice Thread → Option Packet
  | .send _ packet => some packet
  | _ => none

namespace SendPipeline

/-! ## Turns -/

variable {count : Nat} {pipeline next : SendPipeline (Fin count)} {event : Event (Fin count)}
  {events : List (Event (Fin count))} {agent : Agent (Fin count)} {choice : Choice (Fin count)}
  {before after : Point} {sendable : Packet → Prop}

/-- What a thread may do next from where it is. -/
inductive Turn (agent : Agent (Fin count)) : Point → Point → Event (Fin count) → Prop
  | found {packet} : Turn agent (.lookup packet) (.load packet.encode) .silent
  | loaded {bytes} : Turn agent (.load bytes) (.push bytes) .silent
  | refused {before : Point} (sending : before.Sending) : Turn agent before (.leave false) .silent
  | pushed {bytes} : Turn agent (.push bytes) .tryBegin (.pushed bytes)
  | writes {before after : Point} {event : Event (Fin count)} (here : before.accepted = true)
      (there : after.accepted = true) (inner : event.Inner) : Turn agent before after event
  | fails {before after : Point} (here : before.Fails) (there : after.Fails ∨ after = .leave false) :
      Turn agent before after .silent
  | left {result} : Turn agent (.leave result) .idle (.returned agent result)

/-- A step of a thread is a turn of its place. -/
theorem advance_turn (stepped : pipeline.advance agent = some (next, event)) :
    ∃ after, next.points = Function.update pipeline.points agent after ∧
      Turn agent (pipeline.points agent) after event := by
  rw [advance] at stepped
  split at stepped
  · cases stepped
  · next here =>
    rw [here]
    split at stepped <;> cases stepped
    · exact ⟨_, rfl, .found⟩
    · exact ⟨_, rfl, .refused trivial⟩
  · next here =>
    rw [here]
    split at stepped <;> cases stepped
    · exact ⟨_, rfl, .loaded⟩
    · exact ⟨_, rfl, .refused trivial⟩
  · next here =>
    rw [here]
    split at stepped <;> cases stepped
    · exact ⟨_, rfl, .refused trivial⟩
    · exact ⟨_, rfl, .pushed⟩
  · next here =>
    rw [here]
    split at stepped <;> cases stepped <;> exact ⟨_, rfl, .writes rfl rfl trivial⟩
  · next here =>
    rw [here]
    split at stepped <;> cases stepped <;> exact ⟨_, rfl, .writes rfl rfl trivial⟩
  · next here =>
    cases stepped
    rw [here]
    exact ⟨_, rfl, .writes rfl rfl trivial⟩
  · next here =>
    rw [here]
    split at stepped <;> cases stepped <;> exact ⟨_, rfl, .writes rfl rfl trivial⟩
  · next here =>
    cases stepped
    rw [here]
    exact ⟨_, rfl, .writes rfl rfl trivial⟩
  · next here =>
    cases stepped
    rw [here]
    exact ⟨_, rfl, .writes rfl rfl trivial⟩
  · next here =>
    cases stepped
    rw [here]
    exact ⟨_, rfl, .fails trivial (.inl trivial)⟩
  · next here =>
    cases stepped
    rw [here]
    exact ⟨_, rfl, .fails trivial (.inl trivial)⟩
  · next here =>
    cases stepped
    rw [here]
    exact ⟨_, rfl, .fails trivial (.inr rfl)⟩
  · next here =>
    cases stepped
    rw [here]
    exact ⟨_, rfl, .left⟩

/-- A thread in none of these moves makes no packet of its own. -/
theorem Turn.sends (turn : Turn agent before after event) (sends : before.Sends sendable) :
    after.Sends sendable ∧ ∀ bytes, event = .pushed bytes →
      ∃ packet, sendable packet ∧ bytes = packet.encode := by
  cases turn with
  | found => exact ⟨⟨_, sends, rfl⟩, nofun⟩
  | loaded => exact ⟨sends, nofun⟩
  | refused sending => exact ⟨trivial, nofun⟩
  | pushed =>
      refine ⟨trivial, fun bytes same => ?_⟩
      cases same
      exact sends
  | writes here there inner =>
      constructor
      · cases after <;> trivial
      · rintro bytes rfl
        exact inner.elim
  | fails here there =>
      refine ⟨?_, nofun⟩
      rcases there with fails | rfl
      · cases after <;> trivial
      · trivial
  | left => exact ⟨trivial, nofun⟩

/-- A push will be answered true, and nothing else will. -/
theorem Turn.balanced {thread : Fin count} (turn : Turn (.sender thread) before after event) :
    before.accepted.toNat + event.pushes.toNat = after.accepted.toNat + event.accepts.toNat := by
  cases turn with
  | found | loaded | pushed => rfl
  | refused sending => cases before <;> first | rfl | exact sending.elim
  | writes here there inner =>
      rw [here, there]
      cases event <;> first | rfl | exact inner.elim
  | fails here there =>
      rcases there with fails | rfl
      · cases before <;> first | exact here.elim | (cases after <;> first | rfl | exact fails.elim)
      · cases before <;> first | exact here.elim | rfl
  | @left result => cases result <;> rfl

/-- Only Send leads to a push. -/
theorem Turn.io (turn : Turn agent before after event) (elsewhere : ¬ before.Sending) :
    ¬ after.Sending ∧ event.pushes = false := by
  cases turn with
  | found | loaded | pushed => exact absurd trivial elsewhere
  | refused | left => exact ⟨id, rfl⟩
  | writes here there inner =>
      constructor
      · cases after <;> first | exact id | cases there
      · cases event <;> first | rfl | exact inner.elim
  | fails here there =>
      refine ⟨?_, rfl⟩
      rcases there with fails | rfl
      · cases after <;> first | exact id | exact fails.elim
      · exact id

/-! ## What is pushed -/

/-- Every Send is of one of some packets. -/
def OnlySends (sendable : Packet → Prop) :
    TransitionSystem.StepCondition (SendPipeline (Fin count)) (Choice (Fin count)) (Event (Fin count)) :=
  fun _ _ choice _ => ∀ packet ∈ choice.sent?, sendable packet

instance (sendable : Packet → Prop) [DecidablePred sendable] (events : List (Event (Fin count)))
    (pipeline : SendPipeline (Fin count)) (choice : Choice (Fin count)) (event : Event (Fin count)) :
    Decidable (OnlySends sendable events pipeline choice event) :=
  inferInstanceAs (Decidable (∀ packet ∈ choice.sent?, sendable packet))

/-- The threads as their Sends leave them: what has been pushed are packets, one for each
Send that has answered true or will. -/
structure Pushes (sendable : Packet → Prop) (events : List (Event (Fin count)))
    (pipeline : SendPipeline (Fin count)) : Prop where
  sends : ∀ agent, (pipeline.points agent).Sends sendable
  io : ¬ (pipeline.points .io).Sending
  packets : ∃ packets : List Packet, pushed events = packets.map Packet.encode ∧
    ∀ packet ∈ packets, sendable packet
  counted : tally Event.pushes events = tally Event.accepts events +
    threadSum (fun point => point.accepted.toNat) fun thread => pipeline.points (.sender thread)

/-- Nothing has been pushed on a new connection. -/
theorem pushes_accepted : Pushes sendable [] (accepted : SendPipeline (Fin count)) where
  sends _ := trivial
  io := id
  packets := ⟨[], rfl, nofun⟩
  counted := by
    symm
    rw [tally_nil, tally_nil, Nat.zero_add, threadSum_eq_zero_iff]
    exact fun _ => rfl

/-- One thread moves, and what it pushes or answers is balanced by where it goes. -/
theorem Pushes.move (pushes : Pushes sendable events pipeline)
    (points : next.points = Function.update pipeline.points agent after)
    (sends : after.Sends sendable)
    (encoded : ∀ bytes, event = .pushed bytes → ∃ packet, sendable packet ∧ bytes = packet.encode)
    (io : agent = .io → ¬ after.Sending ∧ event.pushes = false ∧ event.accepts = false)
    (balanced : ∀ thread, agent = .sender thread →
      (pipeline.points agent).accepted.toNat + event.pushes.toNat =
        after.accepted.toNat + event.accepts.toNat) :
    Pushes sendable (events ++ [event]) next where
  sends other := by
    rw [points, Function.update_apply]
    split
    · exact sends
    · exact pushes.sends other
  io := by
    rw [points, Function.update_apply]
    split
    · next same => exact (io same.symm).1
    · exact pushes.io
  packets := by
    obtain ⟨packets, same, sent⟩ := pushes.packets
    cases event with
    | pushed bytes =>
        obtain ⟨packet, may, rfl⟩ := encoded bytes rfl
        refine ⟨packets ++ [packet], ?_, ?_⟩
        · rw [pushed_append, same, List.map_append]
          rfl
        · intro other member
          rcases List.mem_append.mp member with earlier | last
          · exact sent other earlier
          · rw [List.mem_singleton.mp last]
            exact may
    | handed | completed | returned | silent =>
        exact ⟨packets, by rw [pushed_append, same]; exact List.append_nil _, sent⟩
  counted := by
    have before := pushes.counted
    have bit : ∀ shown : Bool, (if shown = true then 1 else 0) = shown.toNat := by decide
    rw [tally_concat, tally_concat, bit, bit, before]
    cases agent with
    | io =>
        obtain ⟨-, unpushed, unanswered⟩ := io rfl
        have same : (fun thread => next.points (.sender thread)) =
            fun thread => pipeline.points (.sender thread) := by
          funext thread
          rw [points, Function.update_of_ne (by simp)]
        rw [same, unpushed, unanswered]
        rfl
    | sender thread =>
        have moved : (fun other => next.points (.sender other)) =
            Function.update (fun other => pipeline.points (.sender other)) thread after := by
          funext other
          rw [points, Function.update_apply, Function.update_apply]
          simp
        have trade := threadSum_update (fun point => point.accepted.toNat)
          (fun other => pipeline.points (.sender other)) thread after
        have balance := balanced thread rfl
        rw [moved]
        omega

/-- The io thread accepts nothing. -/
theorem Turn.accepts_io (turn : Turn .io before after event) : event.accepts = false := by
  cases turn with
  | found | loaded | refused | pushed | fails | left => rfl
  | writes here there inner => cases event <;> first | rfl | exact inner.elim

/-- Every step keeps the pushes those of the Sends. -/
theorem Pushes.step (pushes : Pushes sendable events pipeline)
    (transition : (system (Fin count)).step pipeline choice = some (next, event))
    (only : OnlySends sendable events pipeline choice event) :
    Pushes sendable (events ++ [event]) next := by
  cases choice with
  | send thread packet =>
      simp only [system, step] at transition
      split at transition
      · next idle =>
        cases transition
        refine pushes.move rfl (only packet rfl) (by rintro _ ⟨⟩) (by rintro ⟨⟩) fun _ _ => ?_
        rw [idle]
        rfl
      · cases transition
  | step agent =>
      obtain ⟨after, points, turn⟩ := advance_turn transition
      obtain ⟨sends, encoded⟩ := turn.sends (pushes.sends agent)
      refine pushes.move points sends encoded ?_ ?_
      · rintro rfl
        obtain ⟨elsewhere, unpushed⟩ := turn.io pushes.io
        exact ⟨elsewhere, unpushed, turn.accepts_io⟩
      · rintro thread rfl
        exact turn.balanced
  | complete index failed =>
      simp only [system, step] at transition
      split at transition
      · cases transition
        refine pushes.move rfl ?_ (by rintro _ ⟨⟩) ?_ (by rintro _ ⟨⟩)
        · cases failed <;> trivial
        · intro _
          cases failed <;> exact ⟨id, rfl, rfl⟩
      · cases transition
  | disconnect | remove =>
      cases transition
      refine pushes.move (Function.update_eq_self .io _).symm (pushes.sends .io)
        (by rintro _ ⟨⟩) ?_ (by rintro _ ⟨⟩)
      exact fun _ => ⟨pushes.io, rfl, rfl⟩

/-- Along every run they are. -/
theorem pushes_of_runs
    (run : (system (Fin count)).RunsUnder (OnlySends sendable) accepted events pipeline) :
    Pushes sendable events pipeline := by
  apply run.invariant fun events pipeline => Pushes sendable events pipeline
  · exact pushes_accepted
  · intro events pipeline choice next event _ pushes transition only
    exact pushes.step transition only

/-! ## What a peer decodes -/

/-- No thread is in Send or a handler, and no write is under way. -/
structure Quiescent (pipeline : SendPipeline (Fin count)) : Prop where
  idle : ∀ agent, pipeline.points agent = .idle
  written : pipeline.outstanding = []

/-- The pushes are as many as the packets pushed. -/
theorem tally_pushes (events : List (Event (Fin count))) :
    tally Event.pushes events = (pushed events).length := by
  rw [pushed, List.length_filterMap_eq_countP, tally]
  congr 1
  funext event
  cases event <;> rfl

/-- What is written was pushed before the rest. -/
theorem handed_prefix (run : (system (Fin count)).Runs accepted events pipeline) :
    handed events <+: pushed events := by
  obtain ⟨-, carried, ordered⟩ := owned_of_run run
  rw [ordered.order, List.append_assoc]
  exact List.prefix_append _ _

/-- At rest, all that was pushed has been written, as long as no write failed. -/
theorem Quiescent.handed_all (quiescent : pipeline.Quiescent)
    (run : (system (Fin count)).Runs accepted events pipeline)
    (succeeds : .completed true ∉ events) : handed events = pushed events := by
  obtain ⟨owned, carried, ordered⟩ := owned_of_run run
  have nobody : ¬ ∃ owner, Owns pipeline.points pipeline.outstanding owner := by
    rintro ⟨_ | agent, owns⟩
    · exact owns quiescent.written
    · have holds : (pipeline.points agent).Holds := owns
      rw [quiescent.idle] at holds
      exact holds
  have empty : pipeline.sendQueue = [] := by
    by_contra full
    rcases (watched_of_run run succeeds).watched full with set | ⟨agent, looking⟩
    · exact nobody (owned.exclusive.set_iff.mp set)
    · rw [quiescent.idle] at looking
      exact looking
  have uncarried : carried = [] := ordered.carries.eq_nil (by simp [quiescent.idle])
  rw [ordered.order, empty, uncarried, List.append_nil, List.append_nil]

/-- No Send is between its push and its answer. -/
theorem Quiescent.nobody_accepted (quiescent : pipeline.Quiescent) :
    threadSum (fun point => point.accepted.toNat)
      (fun thread => pipeline.points (.sender thread)) = 0 := by
  rw [threadSum_eq_zero_iff]
  intro thread
  rw [quiescent.idle]
  rfl

/-- The packets that a peer decodes from what has been written are those of Sends, in the
order in which they were pushed. While no write has failed, once every thread is back and
the peer has received everything, they are those of all Sends that have answered true. -/
theorem peer_decodes_sends (count : Nat) (sendable : Packet → Prop)
    (fits : ∀ packet, sendable packet → packet.payload.length ≤ PacketCodec.maxPacketSize)
    (events : List (Event (Fin count))) (pipeline : SendPipeline (Fin count))
    (run : (system (Fin count)).RunsUnder (OnlySends sendable) accepted events pipeline)
    (connectionId : ConnectionId) (chunks : List ByteBuffer)
    (received : chunks.flatten <+: (handed events).flatten) :
    ∃ packets : List Packet, pushed events = packets.map Packet.encode ∧
      (∀ packet ∈ packets, sendable packet) ∧
      tally Event.accepts events ≤ packets.length ∧
      (deliver connectionId [] chunks).1 <+: packets.map (Packet.received connectionId) ∧
      (.completed true ∉ events → pipeline.Quiescent →
        chunks.flatten = (handed events).flatten →
        packets.length = tally Event.accepts events ∧
        (deliver connectionId [] chunks).1 = packets.map (Packet.received connectionId)) := by
  obtain ⟨-, -, ⟨packets, encoded, sent⟩, counted⟩ := pushes_of_runs run
  have small : ∀ packet ∈ packets, packet.payload.length ≤ PacketCodec.maxPacketSize :=
    fun packet member => fits packet (sent packet member)
  have stream : (pushed events).flatten = packets.flatMap Packet.encode := by
    rw [encoded, List.flatMap_def]
  have written : (handed events).flatten <+: packets.flatMap Packet.encode := by
    rw [← stream]
    exact List.IsPrefix.flatten ( handed_prefix run.runs)
  obtain ⟨front, whole⟩ := InboundPath.deliver_of_sent connectionId small (received.trans written)
  rw [tally_pushes, encoded, List.length_map] at counted
  refine ⟨packets, encoded, sent, ?_, front, fun succeeds quiescent all => ⟨?_, whole ?_⟩⟩
  · rw [counted]
    exact Nat.le_add_right _ _
  · rw [counted, quiescent.nobody_accepted, Nat.add_zero]
  · rw [all, quiescent.handed_all run.runs succeeds, stream]

/-- Two packets of one thread, received in two pieces. -/
theorem two_sends_decoded : ∃ events pipeline,
    (system (Fin 1)).RunsUnder (OnlySends fun packet => packet.payload.length ≤ 1) accepted events
      pipeline ∧
    ∃ packets : List Packet, [⟨7, [65]⟩, ⟨8, []⟩].map Packet.encode = packets.map Packet.encode ∧
      packets.length = 2 ∧ (deliver 3 [] [[1], [0, 0, 0, 7, 0, 65, 0, 0, 0, 0, 8, 0]]).1 =
        packets.map (Packet.received 3) := by
  obtain ⟨events, pipeline, run, sent, wrote, answered, succeeds, nothing, sender, io⟩ :=
    (system (Fin 1)).runs_of_exec (OnlySends fun packet => packet.payload.length ≤ 1) accepted
      (.send 0 ⟨7, [65]⟩ :: List.replicate 7 (.step (.sender 0)) ++
        .send 0 ⟨8, []⟩ :: List.replicate 5 (.step (.sender 0)) ++
        .complete 0 false :: List.replicate 5 (.step .io) ++
        .complete 0 false :: List.replicate 6 (.step .io))
      (fun pipeline events => pushed events = [⟨7, [65]⟩, ⟨8, []⟩].map Packet.encode ∧
        handed events = [⟨7, [65]⟩, ⟨8, []⟩].map Packet.encode ∧
        tally Event.accepts events = 2 ∧
        .completed true ∉ events ∧ pipeline.outstanding = [] ∧
        pipeline.points (.sender 0) = .idle ∧ pipeline.points .io = .idle)
      (by decide)
  have idle : ∀ agent, pipeline.points agent = .idle := by
    rintro (thread | _)
    · rw [Subsingleton.elim thread 0]
      exact sender
    · exact io
  have all : [[1], [0, 0, 0, 7, 0, 65, 0, 0, 0, 0, 8, 0]].flatten = (handed events).flatten := by
    rw [wrote]
    decide
  obtain ⟨packets, same, -, -, -, whole⟩ := peer_decodes_sends 1
    (fun packet => packet.payload.length ≤ 1) (fun packet small => Nat.le_trans small (by decide))
    events pipeline run 3 [[1], [0, 0, 0, 7, 0, 65, 0, 0, 0, 0, 8, 0]] (all ▸ List.prefix_rfl)
  obtain ⟨length, decoded⟩ := whole succeeds ⟨idle, nothing⟩ all
  exact ⟨events, pipeline, run, packets, sent.symm.trans same, length.trans answered, decoded⟩

end SendPipeline
end MmoServer.Net
