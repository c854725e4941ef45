import Contra.Packet

/-! # The packet codec

What the two functions of `packet.cpp` guarantee about each other.

* `deserialize_message_append`: a serialized packet decodes to the packet, whatever follows it,
  and `deserializePacket_serializePacket_append` adds that the bytes behind it are never read.
* `deserialize_eq_ok_iff`: the exact condition under which a message is accepted, and
  `message_eq_take_of_deserialize`: an accepted message starts with the serialization of its packet.
* `deserialize_accepts_iff` states both without the limits of memory, and that the serialization at
  the front of an accepted message determines the packet.
* `deserialize_reads_inside_iff`: the exact condition under which no read leaves the message. -/

namespace Contra

open CheckedMemory

/-! ## Decoding a serialized packet -/

section RoundTrip

variable {fits : ℕ → Bool} {packet : Packet}

/-- A size below the message size of a packet fits in eight bytes. -/
theorem decode_encode_size {size : ℕ} (h : size < 2 ^ 64) :
    LittleEndian.decode (LittleEndian.encode 8 size) = size :=
  LittleEndian.decode_encode_of_lt (by norm_num at h ⊢; exact h)

/-- The first field of a serialized packet is its schema size. -/
theorem schemaSizeField_message_append (hsize : packet.messageSize < 2 ^ 64) (tail : List UInt8) :
    schemaSizeField (packet.message ++ tail) = packet.schema.length := by
  have hfield : slice (packet.message ++ tail) ⟨0, 8⟩
      = LittleEndian.encode 8 packet.schema.length := by
    have := slice_append [] (LittleEndian.encode 8 packet.schema.length)
      (packet.schema ++ (LittleEndian.encode 8 packet.data.length ++ packet.data) ++ tail)
      (show Span.start ⟨0, 8⟩ = 0 from rfl) (by simp)
    simpa only [Packet.message, List.nil_append, List.append_assoc] using this
  rw [Packet.messageSize] at hsize
  rw [schemaSizeField, hfield, decode_encode_size (by omega)]

/-- The field behind the schema is the data size. -/
theorem dataSizeField_message_append (hsize : packet.messageSize < 2 ^ 64) (tail : List UInt8) :
    dataSizeField (packet.message ++ tail) = packet.data.length := by
  have hfield : slice (packet.message ++ tail) ⟨8 + packet.schema.length, 8⟩
      = LittleEndian.encode 8 packet.data.length := by
    have := slice_append (LittleEndian.encode 8 packet.schema.length ++ packet.schema)
      (LittleEndian.encode 8 packet.data.length) (packet.data ++ tail)
      (show Span.start ⟨8 + packet.schema.length, 8⟩ = _ by
        rw [List.length_append, LittleEndian.length_encode]) (by simp)
    simpa only [Packet.message, List.append_assoc] using this
  rw [dataSizeField, schemaSizeField_message_append hsize, hfield]
  rw [Packet.messageSize] at hsize
  rw [decode_encode_size (by omega)]

/-- Decoding a serialized packet makes four reads, all in front of whatever follows the packet. -/
theorem deserializePacket_message_append (hsize : packet.messageSize < 2 ^ 64)
    (hschema : fits packet.schema.length = true) (hdata : fits packet.data.length = true)
    (tail : List UInt8) (log : List Span) :
    deserializePacket fits (packet.message ++ tail) log
      = .ok (packet, log ++ [⟨0, 8⟩, ⟨8, packet.schema.length⟩, ⟨8 + packet.schema.length, 8⟩,
          ⟨8 + packet.schema.length + 8, packet.data.length⟩]) := by
  have hlength : (packet.message ++ tail).length = packet.messageSize + tail.length := by
    rw [List.length_append, Packet.length_message]
  have hschemaSlice : slice (packet.message ++ tail) ⟨8, packet.schema.length⟩ = packet.schema := by
    have := slice_append (LittleEndian.encode 8 packet.schema.length) packet.schema
      (LittleEndian.encode 8 packet.data.length ++ packet.data ++ tail)
      (show Span.start ⟨8, packet.schema.length⟩ = _ by rw [LittleEndian.length_encode]) rfl
    simpa only [Packet.message, List.append_assoc] using this
  have hdataSlice : slice (packet.message ++ tail)
      ⟨8 + packet.schema.length + 8, packet.data.length⟩ = packet.data := by
    have := slice_append (LittleEndian.encode 8 packet.schema.length ++ packet.schema ++
      LittleEndian.encode 8 packet.data.length) packet.data tail
      (show Span.start ⟨8 + packet.schema.length + 8, packet.data.length⟩ = _ by
        simp only [List.length_append, LittleEndian.length_encode]) rfl
    simpa only [Packet.message, List.append_assoc] using this
  rw [deserializePacket_run (schemaSizeField_message_append hsize tail)
    (dataSizeField_message_append hsize tail) (by rw [Packet.messageSize] at hsize; omega)]
  rw [Packet.messageSize] at hlength
  rw [if_neg (by omega), if_neg (by simp [hschema]), if_neg (by omega), if_neg (by omega),
    if_neg (by simp [hdata]), if_neg (by omega), hschemaSlice, hdataSlice]

/-- A serialized packet decodes to the packet, whatever follows it. -/
theorem deserialize_message_append (hsize : packet.messageSize < 2 ^ 64)
    (hschema : fits packet.schema.length = true) (hdata : fits packet.data.length = true)
    (tail : List UInt8) : deserialize fits (packet.message ++ tail) = .ok packet := by
  rw [deserialize, StateT.run'_eq, StateT.run,
    deserializePacket_message_append hsize hschema hdata tail []]
  rfl

/-- **The codec round trip.** Serializing writes inside its buffer, decoding the message with any
bytes behind it gives the packet back, and the four reads stay inside the message. -/
theorem deserializePacket_serializePacket_append (packet : Packet) (tail : List UInt8)
    (hsize : packet.schema.length + packet.data.length + 16 < 2 ^ 64) :
    ∃ message, serializePacket unlimited packet = .ok message ∧
      ∃ reads, (deserializePacket unlimited (message ++ tail)).run [] = .ok (packet, reads) ∧
        reads.length = 4 ∧ ∀ span ∈ reads, span.stop ≤ message.length := by
  refine ⟨packet.message, serializePacket_eq hsize rfl, _,
    deserializePacket_message_append hsize rfl rfl tail [], rfl, ?_⟩
  -- the four spans, one by one
  intro span hspan
  simp only [List.nil_append, List.mem_cons, List.not_mem_nil, or_false] at hspan
  rw [Packet.length_message, Packet.messageSize]
  rcases hspan with rfl | rfl | rfl | rfl <;> simp only [Span.stop_mk] <;> omega

/-- Two one-byte strings that look like size fields. -/
theorem deserializePacket_serializePacket_append_imitation :
    ∃ message, serializePacket unlimited ⟨[16], [0]⟩ = .ok message ∧
      ∃ reads, (deserializePacket unlimited (message ++ [1, 2])).run []
          = .ok (⟨[16], [0]⟩, reads) ∧
        reads.length = 4 ∧ ∀ span ∈ reads, span.stop ≤ message.length :=
  deserializePacket_serializePacket_append ⟨[16], [0]⟩ [1, 2] (by decide)

end RoundTrip

/-! ## Accepted messages -/

section Accepted

variable {fits : ℕ → Bool} {message : List UInt8}

/-- The cases of `deserializePacket_run` for the packet alone. -/
theorem deserialize_eq (hmessage : message.length < 2 ^ 63) :
    deserialize fits message =
      if message.length < 8 then .error (.outOfBounds ⟨0, 8⟩)
      else if fits (schemaSizeField message) = false then
        .error (.allocation (schemaSizeField message))
      else if message.length < 8 + schemaSizeField message then
        .error (.outOfBounds ⟨8, schemaSizeField message⟩)
      else if message.length < 8 + schemaSizeField message + 8 then
        .error (.outOfBounds ⟨8 + schemaSizeField message, 8⟩)
      else if fits (dataSizeField message) = false then .error (.allocation (dataSizeField message))
      else if message.length < 8 + schemaSizeField message + 8 + dataSizeField message then
        .error (.outOfBounds ⟨8 + schemaSizeField message + 8, dataSizeField message⟩)
      else .ok ⟨slice message ⟨8, schemaSizeField message⟩,
        slice message ⟨8 + schemaSizeField message + 8, dataSizeField message⟩⟩ := by
  rw [deserialize, StateT.run'_eq, StateT.run, deserializePacket_run rfl rfl (by omega)]
  split_ifs <;> rfl

/-- A message is accepted when the sizes it announces can be allocated and lie inside it. -/
def Accepts (fits : ℕ → Bool) (message : List UInt8) : Prop :=
  fits (schemaSizeField message) = true ∧ fits (dataSizeField message) = true ∧
    8 + schemaSizeField message + 8 + dataSizeField message ≤ message.length

/-- The accepted messages and the packets they decode to. -/
theorem deserialize_eq_ok_iff (hmessage : message.length < 2 ^ 63) (packet : Packet) :
    deserialize fits message = .ok packet ↔
      Accepts fits message ∧ packet = ⟨slice message ⟨8, schemaSizeField message⟩,
        slice message ⟨8 + schemaSizeField message + 8, dataSizeField message⟩⟩ := by
  rw [deserialize_eq hmessage, Accepts]
  constructor
  · intro h
    -- the only branch that returns a packet is the last
    split_ifs at h with h1 h2 h3 h4 h5 h6
    refine ⟨⟨by simpa using h2, by simpa using h5, Nat.not_lt.mp h6⟩, ?_⟩
    exact (Except.ok.inj h).symm
  · rintro ⟨⟨hschema, hdata, hlength⟩, rfl⟩
    rw [if_neg (by omega), if_neg (by simp [hschema]), if_neg (by omega), if_neg (by omega),
      if_neg (by simp [hdata]), if_neg (by omega)]

/-- Splitting a buffer at the end of a span. -/
theorem take_stop (buffer : List UInt8) (span : Span) :
    buffer.take span.stop = buffer.take span.start ++ slice buffer span := List.take_add ..

/-- The byte strings of a decoded packet have the lengths its message announces. -/
theorem lengths_of_deserialize (hmessage : message.length < 2 ^ 63) {packet : Packet}
    (h : deserialize fits message = .ok packet) :
    packet.schema.length = schemaSizeField message ∧
      packet.data.length = dataSizeField message := by
  obtain ⟨⟨-, -, hlength⟩, rfl⟩ := (deserialize_eq_ok_iff hmessage packet).mp h
  constructor
  · exact length_slice (by simp only [Span.stop_mk]; omega)
  · exact length_slice (by simp only [Span.stop_mk]; omega)

/-- **Canonicity.** An accepted message starts with the serialization of the packet it decodes
to. -/
theorem message_eq_take_of_deserialize (hmessage : message.length < 2 ^ 63) {packet : Packet}
    (h : deserialize fits message = .ok packet) :
    packet.messageSize ≤ message.length ∧ packet.message = message.take packet.messageSize := by
  obtain ⟨⟨-, -, hlength⟩, hpacket⟩ := (deserialize_eq_ok_iff hmessage packet).mp h
  obtain ⟨hschema, hdata⟩ := lengths_of_deserialize hmessage h
  obtain ⟨s, hs⟩ : ∃ s, s = schemaSizeField message := ⟨_, rfl⟩
  obtain ⟨d, hd⟩ : ∃ d, d = dataSizeField message := ⟨_, rfl⟩
  rw [← hs, ← hd] at hlength hpacket
  rw [← hs] at hschema
  rw [← hd] at hdata
  have hsize : packet.messageSize = 8 + s + 8 + d := by
    rw [Packet.messageSize, hschema, hdata]
    omega
  -- the two size fields are the encodings of the lengths they announce
  have hfield : ∀ start, start + 8 ≤ message.length →
      LittleEndian.encode 8 (LittleEndian.decode (slice message ⟨start, 8⟩))
        = slice message ⟨start, 8⟩ := by
    intro start hstart
    have height : (slice message ⟨start, 8⟩).length = 8 := length_slice hstart
    have := LittleEndian.encode_decode (slice message ⟨start, 8⟩)
    rwa [height] at this
  have hfirst : LittleEndian.encode 8 s = slice message ⟨0, 8⟩ := by
    rw [hs]
    exact hfield 0 (by omega)
  have hsecond : LittleEndian.encode 8 d = slice message ⟨8 + s, 8⟩ := by
    rw [hd, dataSizeField, ← hs]
    exact hfield (8 + s) (by omega)
  refine ⟨by omega, ?_⟩
  calc packet.message
      = slice message ⟨0, 8⟩ ++ (slice message ⟨8, s⟩ ++ (slice message ⟨8 + s, 8⟩ ++
          slice message ⟨8 + s + 8, d⟩)) := by
        rw [Packet.message, hschema, hdata, hfirst, hsecond, hpacket]
    _ = message.take (8 + s + 8 + d) := by
        -- the four slices follow each other without a gap
        have h1 := take_stop message ⟨8 + s + 8, d⟩
        have h2 := take_stop message ⟨8 + s, 8⟩
        have h3 := take_stop message ⟨8, s⟩
        have h4 := take_stop message ⟨0, 8⟩
        simp only [Span.stop_mk, Nat.zero_add, List.take_zero, List.nil_append] at h1 h2 h3 h4
        rw [h1, h2, h3, h4, List.append_assoc, List.append_assoc]
    _ = message.take packet.messageSize := by rw [hsize]

/-- A message that starts with the serialization of a packet decodes to that packet. -/
theorem deserialize_of_take_eq {packet : Packet} (hmessage : message.length < 2 ^ 63)
    (h : message.take packet.messageSize = packet.message) :
    deserialize unlimited message = .ok packet := by
  have hlength : packet.messageSize ≤ message.length := by
    have := congrArg List.length h
    rw [List.length_take, Packet.length_message] at this
    omega
  have hsplit : deserialize unlimited (packet.message ++ message.drop packet.messageSize)
      = .ok packet := deserialize_message_append (by omega) rfl rfl _
  rwa [← h, List.take_append_drop] at hsplit

/-- **Acceptance and canonicity.** A message is accepted exactly when it has room for two sizes and
for the bytes they announce, over the natural numbers and for every value of the two fields. The
packet it decodes to serializes to the bytes in front of the tail, and no other message with these
bytes in front decodes to another packet. -/
theorem deserialize_accepts_iff (message : List UInt8) (hmessage : message.length < 2 ^ 63) :
    ((∃ packet, deserialize unlimited message = .ok packet) ↔
      16 ≤ message.length ∧ schemaSizeField message ≤ message.length - 16 ∧
        dataSizeField message ≤ message.length - 16 - schemaSizeField message) ∧
    ∀ packet, deserialize unlimited message = .ok packet →
      serializePacket unlimited packet
        = .ok (message.take (16 + schemaSizeField message + dataSizeField message)) ∧
      ∀ other otherPacket, other.length < 2 ^ 63 →
        deserialize unlimited other = .ok otherPacket →
        other.take (16 + schemaSizeField message + dataSizeField message)
          = message.take (16 + schemaSizeField message + dataSizeField message) →
        otherPacket = packet := by
  refine ⟨?_, fun packet hpacket => ?_⟩
  · constructor
    · rintro ⟨packet, hpacket⟩
      obtain ⟨⟨-, -, hlength⟩, -⟩ := (deserialize_eq_ok_iff hmessage packet).mp hpacket
      exact ⟨by omega, by omega, by omega⟩
    · rintro ⟨hroom, hschema, hdata⟩
      exact ⟨_, (deserialize_eq_ok_iff hmessage _).mpr ⟨⟨rfl, rfl, by omega⟩, rfl⟩⟩
  · obtain ⟨hschema, hdata⟩ := lengths_of_deserialize hmessage hpacket
    obtain ⟨hlength, htake⟩ := message_eq_take_of_deserialize hmessage hpacket
    have hsize : 16 + schemaSizeField message + dataSizeField message = packet.messageSize := by
      rw [Packet.messageSize, hschema, hdata]
      omega
    rw [hsize, ← htake]
    refine ⟨serializePacket_eq (by omega) rfl, fun other otherPacket hother hdecoded hsame => ?_⟩
    -- the other message is the same serialization with a tail of its own
    have hagain := deserialize_of_take_eq hother hsame
    exact Except.ok.inj (hdecoded.symm.trans hagain)

/-- Two bytes behind a packet are no part of it. -/
theorem deserialize_accepts_iff_tail :
    serializePacket unlimited ⟨[65], [7]⟩
      = .ok [1, 0, 0, 0, 0, 0, 0, 0, 65, 1, 0, 0, 0, 0, 0, 0, 0, 7] :=
  ((deserialize_accepts_iff [1, 0, 0, 0, 0, 0, 0, 0, 65, 1, 0, 0, 0, 0, 0, 0, 0, 7, 200, 201]
    (by decide)).2 ⟨[65], [7]⟩ rfl).1

/-- No read of `deserializePacket` leaves the message: each size it gets to lies in the message and
announces bytes that do too, or more bytes than can be allocated. -/
def ReadsInside (fits : ℕ → Bool) (message : List UInt8) : Prop :=
  8 ≤ message.length ∧ (fits (schemaSizeField message) = true →
    8 + schemaSizeField message + 8 ≤ message.length ∧ (fits (dataSizeField message) = true →
      8 + schemaSizeField message + 8 + dataSizeField message ≤ message.length))

/-- `ReadsInside` is exactly the condition under which decoding does not leave the message. -/
theorem deserialize_reads_inside_iff (hmessage : message.length < 2 ^ 63) :
    (∀ span, deserialize fits message ≠ .error (.outOfBounds span)) ↔ ReadsInside fits message := by
  rw [deserialize_eq hmessage, ReadsInside]
  split_ifs with h1 h2 h3 h4 h5 h6
  · simp; omega
  · simp [h2]; omega
  · simp [h2]; omega
  · simp [h2]; omega
  · simp [h5]; omega
  · simp [h2, h5]; omega
  · simp; omega

theorem ReadsInside.of_accepts (h : Accepts fits message) : ReadsInside fits message := by
  obtain ⟨-, -, hlength⟩ := h
  exact ⟨by omega, fun _ => ⟨by omega, fun _ => hlength⟩⟩

end Accepted

end Contra
