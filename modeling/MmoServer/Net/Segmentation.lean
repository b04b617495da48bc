import MmoServer.Net.ReadLoop

/-!
# Segmentation of malformed streams

A header that announces more than 64 KB makes Decode clear the receive buffer,
and the handler goes on reading. What is cleared is whatever has arrived in the
same chunk, so the rest of the stream is read from a position that the sender
chooses: a packet placed behind the bad header is delivered in some
segmentations and lost in others (`segmentation_smuggles`).

`segmentation_independent_iff` says for which streams this cannot happen: those
without an oversized header, and those in which no whole packet begins anywhere
behind the first one.
-/

namespace MmoServer.Net

open MmoServer.Std PacketCodec

/-- The chunks a read of at most 4096 bytes can bring. -/
def ReadSizes (chunks : List ByteBuffer) : Prop :=
  ∀ chunk ∈ chunks, 1 ≤ chunk.length ∧ chunk.length ≤ 4096

instance (chunks : List ByteBuffer) : Decidable (ReadSizes chunks) :=
  inferInstanceAs (Decidable (∀ chunk ∈ chunks, _))

/-- A stream yields the same packets in every segmentation. -/
def SegmentationIndependent (stream : ByteBuffer) : Prop :=
  ∀ (connectionId : ConnectionId) (chunks others : List ByteBuffer),
    ReadSizes chunks → chunks.flatten = stream → ReadSizes others → others.flatten = stream →
    (deliver connectionId [] chunks).1 = (deliver connectionId [] others).1

/-- Reading packets from the front of the stream meets an oversized header, and
`tail` is what follows it. -/
inductive MeetsViolation : ByteBuffer → ByteBuffer → Prop
  | here {buffer} (oversized : Oversized buffer) : MeetsViolation buffer (buffer.drop headerSize)
  | later {buffer tail}
      (complete : Complete buffer)
      (there : MeetsViolation
        (buffer.drop (headerSize + (PacketFrame.ofBytes buffer).payloadLength.toNat)) tail) :
      MeetsViolation buffer tail

/-- No whole packet begins anywhere in the bytes. -/
def NoPacket (bytes : ByteBuffer) : Prop := ∀ position, ¬ Complete (bytes.drop position)

variable {buffer rest later tail bytes stream : ByteBuffer} {packet : Packet}
  {chunks : List ByteBuffer} {packets : List Packet}

/-- Packets of one connection differ as they did on the wire. -/
theorem Packet.received_injective (connectionId : ConnectionId) :
    Function.Injective (Packet.received connectionId) := by
  rintro ⟨id, payload⟩ ⟨otherId, otherPayload⟩ same
  cases same
  rfl

/-- Silent bytes are those without a packet. -/
theorem silent_iff_noPacket : packetDecoder.Silent bytes ↔ NoPacket bytes := by
  constructor
  · intro silent position complete
    exact silent position _ _ (packetVerdict_of_complete complete)
  · intro none position packet rest taken
    exact none position (complete_of_frame taken)

/-- A violation is a rejection of the packet decoder. -/
theorem MeetsViolation.rejectsAt (meets : MeetsViolation stream tail) :
    ∃ rejected, packetDecoder.RejectsAt stream rejected ∧ tail = rejected.drop headerSize := by
  induction meets with
  | here oversized => exact ⟨_, .here (packetVerdict_eq_reject_iff.mpr oversized), rfl⟩
  | later complete _ ih =>
      obtain ⟨rejected, there, same⟩ := ih
      exact ⟨rejected, .later (packetVerdict_of_complete complete) there, same⟩

/-- A refusal of the decoder is a violation in the stream. -/
theorem MeetsViolation.of_rejectsAt {rejected : ByteBuffer}
    (rejects : packetDecoder.RejectsAt stream rejected) :
    MeetsViolation stream (rejected.drop headerSize) := by
  induction rejects with
  | here verdict => exact .here (packetVerdict_eq_reject_iff.mp verdict)
  | later taken _ ih =>
      have complete := complete_of_frame taken
      rw [show packetDecoder.decode _ = _ from packetVerdict_of_complete complete] at taken
      cases taken
      exact .later complete ih

/-- The rest of a stream after a rejected buffer is part of what follows the header. -/
theorem noPacket_of_rejected {cut : ByteBuffer} (none : NoPacket ((cut ++ later).drop headerSize))
    (rejected : packetDecoder.decode cut = .reject) : packetDecoder.Silent later := by
  have header := (packetVerdict_eq_reject_iff.mp rejected).1
  rw [List.drop_append_of_le_length header] at none
  exact (silent_iff_noPacket.mpr none).of_append

/-! ## Streams that do not depend on their segmentation -/

/-- Where nothing decodes behind a violation, the chunks make no difference. -/
theorem segmentation_independent_of (none : ∀ tail, MeetsViolation stream tail → NoPacket tail) :
    SegmentationIndependent stream := by
  have frames : ∀ chunks : List ByteBuffer, chunks.flatten = stream →
      (packetDecoder.feed [] chunks).1 = (packetDecoder.drain stream).1 := by
    rintro chunks rfl
    by_cases clean : packetDecoder.Clean chunks.flatten
    · rw [StreamDecoder.feed_eq_drain_flatten clean]
    · obtain ⟨rejected, rejects⟩ : ∃ rejected, packetDecoder.RejectsAt chunks.flatten rejected := by
        by_contra never
        exact clean fun rejected rejects => never ⟨rejected, rejects⟩
      have quiet := none _ (.of_rejectsAt rejects)
      refine StreamDecoder.feed_frames_of_silent packetDecoder.decode_nil rejects ?_
      rintro cut later rfl verdict
      exact noPacket_of_rejected quiet verdict
  intro connectionId chunks others _ same _ sameToo
  rw [deliver_eq_feed, deliver_eq_feed, frames chunks same, frames others sameToo]

/-! ## Streams that do -/

/-- The segmentation into single bytes. -/
def singles (bytes : ByteBuffer) : List ByteBuffer := bytes.map fun byte => [byte]

@[simp] theorem flatten_singles (bytes : ByteBuffer) : (singles bytes).flatten = bytes := by
  induction bytes with
  | nil => rfl
  | cons byte rest ih => exact congrArg (byte :: ·) ih

/-- Reads of one byte are of the right size. -/
theorem readSizes_singles (bytes : ByteBuffer) : ReadSizes (singles bytes) := by
  intro chunk member
  obtain ⟨byte, _, rfl⟩ := List.mem_map.mp member
  exact ⟨Nat.le_refl 1, Nat.le_add_left 1 4095⟩

/-- So are those of two streams. -/
theorem ReadSizes.append {before after : List ByteBuffer} (first : ReadSizes before)
    (second : ReadSizes after) : ReadSizes (before ++ after) := by
  intro chunk member
  rcases List.mem_append.mp member with earlier | later
  · exact first chunk earlier
  · exact second chunk later

/-- And one more read of up to 4096 bytes. -/
theorem ReadSizes.cons {chunk : ByteBuffer} (positive : 1 ≤ chunk.length)
    (fits : chunk.length ≤ 4096) (rest : ReadSizes chunks) : ReadSizes (chunk :: chunks) := by
  rintro each (_ | ⟨_, member⟩)
  · exact ⟨positive, fits⟩
  · exact rest each member

/-- From a position on, every segmentation yields the given packets. -/
def Steady (bytes : ByteBuffer) (packets : List Packet) (position : Nat) : Prop :=
  ∀ chunks, ReadSizes chunks → chunks.flatten = bytes.drop position →
    (packetDecoder.feed [] chunks).1 = packets

/-- A chunk that brings an oversized header to an empty buffer, with whatever
follows the header in it, is lost. -/
theorem feed_oversized (header : headerSize ≤ buffer.length)
    (oversized : Oversized (buffer ++ later)) (chunks : List ByteBuffer) :
    packetDecoder.feed [] (buffer :: chunks) = packetDecoder.feed [] chunks := by
  have rejected : packetDecoder.decode buffer = .reject :=
    packetVerdict_eq_reject_iff.mpr (oversized.of_append header)
  rw [StreamDecoder.feed_cons, List.nil_append, StreamDecoder.drain_of_reject rejected]
  rfl

/-- A packet at the front of a stream that is cut into single bytes is delivered. -/
theorem exists_segmentation_of_complete (complete : Complete bytes) : ∃ chunks packet packets,
    ReadSizes chunks ∧ chunks.flatten = bytes ∧
      (packetDecoder.feed [] chunks).1 = packet :: packets := by
  obtain ⟨used, rest, rfl, whole, small⟩ := exists_used complete
  have alone := packetVerdict_append whole small []
  rw [List.append_nil] at alone
  have taken : packetDecoder.decode used = .frame _ [] := alone
  have clean : packetDecoder.Clean (singles used).flatten := by
    rw [flatten_singles]
    exact .of_frame taken (.of_wait packetDecoder.decode_nil)
  refine ⟨singles used ++ singles rest,
    { packetId := (PacketFrame.ofBytes used).packetId, payload := used.drop headerSize },
    (packetDecoder.feed [] (singles rest)).1,
    (readSizes_singles used).append (readSizes_singles rest), ?_, ?_⟩
  · rw [List.flatten_append, flatten_singles, flatten_singles]
  · rw [StreamDecoder.feed_append, StreamDecoder.feed_eq_drain_flatten clean, flatten_singles,
      StreamDecoder.drain_of_whole taken]
    rfl

/-- A header that is not oversized has a zero as its fourth byte. -/
theorem fourth_byte_zero {first second third fourth fifth sixth : Byte}
    (small : ¬ Oversized (first :: second :: third :: fourth :: fifth :: sixth :: rest)) :
    fourth = 0 := by
  by_contra nonzero
  have positive : 0 < fourth.toNat := by
    apply Nat.pos_of_ne_zero
    exact fun zero => nonzero (UInt8.toNat_inj.mp zero)
  apply small
  constructor
  · exact Nat.le_add_left 6 rest.length
  · have bounds := And.intro first.toNat_lt (And.intro second.toNat_lt (And.intro third.toNat_lt
      fourth.toNat_lt))
    have limit : maxPacketSize = 65536 := rfl
    simp only [PacketFrame.ofBytes, List.take_succ_cons, List.take_zero, ofLittleEndian_cons,
      ofLittleEndian_nil, UInt32.toNat_ofNat']
    omega

section Steady

variable {position next : Nat}

/-- An oversized header at a steady position makes every later position steady
that a chunk from the header on can reach. -/
theorem Steady.jump (steady : Steady bytes packets position)
    (oversized : Oversized (bytes.drop position)) (header : position + headerSize ≤ next)
    (near : next ≤ position + 4096) (inside : next ≤ bytes.length) :
    Steady bytes packets next := by
  intro chunks sizes same
  have size : headerSize = 6 := rfl
  have split := List.take_append_drop (next - position) (bytes.drop position)
  rw [List.drop_drop, Nat.add_sub_cancel' (by omega)] at split
  have length : ((bytes.drop position).take (next - position)).length = next - position := by
    apply List.length_take_of_le
    rw [List.length_drop]
    omega
  have yields := steady ((bytes.drop position).take (next - position) :: chunks)
    (sizes.cons (by omega) (by omega)) (by rw [List.flatten_cons, same, split])
  rw [← split] at oversized
  rwa [feed_oversized (by omega) oversized] at yields

/-- Four zero bytes begin a packet without payload, so the packets from there on
cannot be those from behind it. -/
theorem Steady.not_zeros {first second : Byte}
    (steady : Steady bytes packets position)
    (zeros : bytes.drop position = 0 :: 0 :: 0 :: 0 :: first :: second :: rest)
    (behind : Steady bytes packets (position + headerSize)) : False := by
  have left : bytes.drop (position + headerSize) = rest := by
    rw [← List.drop_drop, zeros]
    rfl
  have whole : Complete [0, 0, 0, 0, first, second] := ⟨Nat.le_refl 6, Nat.zero_le _⟩
  have taken : packetDecoder.decode [0, 0, 0, 0, first, second] = .frame
      { packetId := (PacketFrame.ofBytes [0, 0, 0, 0, first, second]).packetId, payload := [] } [] :=
    packetVerdict_of_complete whole
  have here := steady ([0, 0, 0, 0, first, second] :: singles rest)
    ((readSizes_singles rest).cons (Nat.le_add_left 1 5) (Nat.le_add_left 6 4090)) (by simp [zeros])
  have there := behind (singles rest) (readSizes_singles rest) (by rw [flatten_singles, left])
  rw [StreamDecoder.feed_cons, List.nil_append, StreamDecoder.drain_of_whole taken] at here
  have lengths := congrArg List.length (here.trans there.symm)
  simp at lengths

/-- From ten steady positions to the next one: if none of the first four begins
an oversized header, the bytes there are zeros. -/
theorem Steady.advance (steady : ∀ offset < 10, Steady bytes packets (position + offset))
    (inside : position + 10 ≤ bytes.length) : Steady bytes packets (position + 10) := by
  have size : headerSize = 6 := rfl
  by_cases oversized : ∃ offset < 4, Oversized (bytes.drop (position + offset))
  · obtain ⟨offset, below, oversized⟩ := oversized
    exact (steady offset (by omega)).jump oversized (by omega) (by omega) inside
  · exfalso
    have small : ∀ offset < 4, ¬ Oversized (bytes.drop (position + offset)) :=
      fun offset below here => oversized ⟨offset, below, here⟩
    have enough : 9 ≤ (bytes.drop position).length := by
      rw [List.length_drop]
      omega
    simp only [← List.drop_drop] at small
    obtain ⟨b0, b1, b2, b3, b4, b5, b6, b7, b8, rest, window⟩ :
        ∃ b0 b1 b2 b3 b4 b5 b6 b7 b8 rest,
          bytes.drop position = b0 :: b1 :: b2 :: b3 :: b4 :: b5 :: b6 :: b7 :: b8 :: rest := by
      rcases same : bytes.drop position with
        _ | ⟨b0, _ | ⟨b1, _ | ⟨b2, _ | ⟨b3, _ | ⟨b4, _ | ⟨b5, _ | ⟨b6, _ | ⟨b7, _ | ⟨b8, rest⟩⟩⟩⟩⟩⟩⟩⟩⟩
      all_goals simp [same] at enough ⊢
    rw [window] at small
    have zero3 := fourth_byte_zero (small 0 (by decide))
    have zero4 := fourth_byte_zero (small 1 (by decide))
    have zero5 := fourth_byte_zero (small 2 (by decide))
    have zero6 := fourth_byte_zero (small 3 (by decide))
    have zeros : bytes.drop (position + 3) = 0 :: 0 :: 0 :: 0 :: b7 :: b8 :: rest := by
      rw [← List.drop_drop, window, zero3, zero4, zero5, zero6]
      rfl
    exact (steady 3 (by decide)).not_zeros zeros (steady 9 (by decide))

/-- Steady at the first ten positions, steady everywhere. -/
theorem Steady.everywhere (steady : ∀ position < 10, position ≤ bytes.length →
    Steady bytes packets position) (inside : position ≤ bytes.length) :
    Steady bytes packets position := by
  induction position using Nat.strong_induction_on with
  | _ position ih =>
      by_cases near : position < 10
      · exact steady position near inside
      · obtain ⟨before, rfl⟩ : ∃ before, position = before + 10 := ⟨position - 10, by omega⟩
        apply Steady.advance _ inside
        intro offset below
        exact ih (before + offset) (by omega) (by omega)

/-- Bytes that yield the same packets from every position on hold none. -/
theorem Steady.noPacket (steady : ∀ position ≤ bytes.length, Steady bytes packets position) :
    NoPacket bytes := by
  have nothing : packets = [] := by
    have ends := steady bytes.length (Nat.le_refl _) [] nofun (by rw [List.drop_length]; rfl)
    exact ends.symm
  intro position complete
  have header := complete.header
  have size : headerSize = 6 := rfl
  rw [List.length_drop] at header
  obtain ⟨chunks, packet, others, sizes, same, yields⟩ := exists_segmentation_of_complete complete
  rw [steady position (by omega) chunks sizes same, nothing] at yields
  cases yields

end Steady

/-- The packets before an oversized header are delivered byte by byte. The chunk
that completes the header may bring any number of the bytes behind it. -/
theorem MeetsViolation.exists_segmentation (meets : MeetsViolation stream tail) :
    ∃ packets, ∀ position chunks, position < 4096 → position ≤ tail.length → ReadSizes chunks →
      chunks.flatten = tail.drop position → ∃ whole, ReadSizes whole ∧ whole.flatten = stream ∧
        (packetDecoder.feed [] whole).1 = packets ++ (packetDecoder.feed [] chunks).1 := by
  obtain ⟨rejected, rejects, rfl⟩ := meets.rejectsAt
  obtain ⟨before, packets, rfl, drains⟩ := rejects.split
  have oversized := packetVerdict_eq_reject_iff.mp rejects.decode
  have header := oversized.1
  have size : headerSize = 6 := rfl
  have short : (rejected.take 5).length = 5 := List.length_take_of_le (by omega)
  have waits : packetDecoder.decode (rejected.take 5) = .wait := by
    apply packetVerdict_of_incomplete
    · intro whole
      have long := whole.1
      omega
    · intro complete
      have long := complete.header
      omega
  have front := drains (rejected.take 5)
  rw [StreamDecoder.drain_of_wait waits, List.append_nil] at front
  have clean : packetDecoder.Clean (singles (before ++ rejected.take 5)).flatten := by
    rw [flatten_singles]
    exact front.1 (.of_wait waits)
  use packets
  intro position chunks near inside sizes same
  rw [List.length_drop] at inside
  have length : ((rejected.drop 5).take (1 + position)).length = 1 + position := by
    apply List.length_take_of_le
    rw [List.length_drop]
    omega
  have split : (rejected.drop 5).take (1 + position) ++ chunks.flatten = rejected.drop 5 := by
    rw [same, List.drop_drop, show headerSize + position = 5 + (1 + position) by omega,
      ← List.drop_drop, List.take_append_drop]
  use singles (before ++ rejected.take 5) ++ (rejected.drop 5).take (1 + position) :: chunks
  refine ⟨(readSizes_singles _).append (sizes.cons (by omega) (by omega)), ?_, ?_⟩
  · rw [List.flatten_append, flatten_singles, List.flatten_cons, split, List.append_assoc,
      List.take_append_drop]
  · have lost : packetDecoder.decode (rejected.take 5 ++ (rejected.drop 5).take (1 + position)) =
        .reject := by
      apply packetVerdict_eq_reject_iff.mpr
      apply Oversized.of_append
      · rw [List.length_append]
        omega
      · rw [List.append_assoc, split, List.take_append_drop]
        exact oversized
    rw [StreamDecoder.feed_append, StreamDecoder.feed_eq_drain_flatten clean, flatten_singles,
      front.2, StreamDecoder.feed_cons, StreamDecoder.drain_of_reject lost]
    rfl

/-- If the segmentation does not matter, neither does how many bytes are lost
with the oversized header. -/
theorem SegmentationIndependent.steady (independent : SegmentationIndependent stream)
    (meets : MeetsViolation stream tail) {position : Nat} (near : position < 4096)
    (inside : position ≤ tail.length) :
    Steady tail (packetDecoder.feed [] (singles tail)).1 position := by
  intro chunks sizes same
  obtain ⟨packets, segmentation⟩ := meets.exists_segmentation
  obtain ⟨whole, wholeSizes, isStream, yields⟩ := segmentation position chunks near inside sizes same
  obtain ⟨other, otherSizes, isToo, yieldsToo⟩ := segmentation 0 (singles tail) (by decide)
    (Nat.zero_le _) (readSizes_singles tail) (flatten_singles tail)
  have agree := independent invalidConnectionId whole other wholeSizes isStream otherSizes isToo
  rw [deliver_eq_feed, deliver_eq_feed] at agree
  have equal := List.map_injective_iff.mpr (Packet.received_injective _) agree
  rw [yields, yieldsToo] at equal
  exact List.append_cancel_left equal

/-- A stream yields the same packets in every segmentation exactly when no whole
packet begins anywhere behind its first oversized header. -/
theorem segmentation_independent_iff (stream : ByteBuffer) : SegmentationIndependent stream ↔
    ∀ tail, MeetsViolation stream tail → NoPacket tail := by
  constructor
  · intro independent tail meets
    have near : ∀ position < 10, position ≤ tail.length →
        Steady tail (packetDecoder.feed [] (singles tail)).1 position :=
      fun position below inside => independent.steady meets (by omega) inside
    exact Steady.noPacket fun position inside => Steady.everywhere near inside
  · exact segmentation_independent_of

/-- Six bytes announce a payload of 4 GB, and a packet follows. It is lost when
it arrives with them, and delivered when it arrives after them. -/
theorem segmentation_smuggles : ¬ ∀ stream, SegmentationIndependent stream := by
  intro claim
  have agree := claim ([255, 255, 255, 255, 0, 0] ++ PacketCodec.encode 1 []) 1
    [[255, 255, 255, 255, 0, 0] ++ PacketCodec.encode 1 []]
    [[255, 255, 255, 255, 0, 0], PacketCodec.encode 1 []]
    (by decide) (by decide) (by decide) (by decide)
  exact absurd agree (by decide)

end MmoServer.Net
