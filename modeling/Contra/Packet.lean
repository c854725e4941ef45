import Contra.Foundation.CheckedMemory
import Contra.Foundation.LittleEndian

/-! # Packets and their serialization (`packet.cpp`)

`serializePacket` and `deserializePacket` are the two functions of `packet.cpp` with their offset
arithmetic in `size_t` (`UInt64`, so modulo `2 ^ 64`), every `memcpy` and every range construction
an access to a bounds-checked buffer. The parameter `fits` says which container sizes can be
allocated; a size that does not fit throws.

The closed forms `serializePacket_eq` and `deserializePacket_run` say what the two compute, and
later files use these and not the definitions. -/

namespace Contra

open CheckedMemory

/-- `contra::Packet`: the bytes of the schema string and of the data vector. -/
structure Packet where
  /-- `schema`, a `std::string` that may hold any bytes. -/
  schema : List UInt8
  /-- `data`, a `std::vector<uint8_t>`. -/
  data : List UInt8
  deriving DecidableEq, Repr

/-- Memory in which every container can be allocated. -/
def unlimited : ℕ → Bool := fun _ => true

/-- Memory in which exactly the sizes a `std::streamsize` can count can be allocated. -/
def addressable : ℕ → Bool := fun size => decide (size < 2 ^ 63)

@[simp] theorem unlimited_apply (size : ℕ) : unlimited size = true := rfl

@[simp] theorem addressable_eq_true {size : ℕ} : addressable size = true ↔ size < 2 ^ 63 :=
  decide_eq_true_iff

/-- `sizeof(size_t)`. -/
def sizeofSizeT : UInt64 := 8

@[simp] theorem toNat_sizeofSizeT : sizeofSizeT.toNat = 8 := rfl

/-- The bytes of a `size_t` in memory. -/
def sizeBytes (size : UInt64) : List UInt8 := LittleEndian.encode sizeofSizeT.toNat size.toNat

/-- The `size_t` with the given bytes. -/
def sizeOfBytes (bytes : List UInt8) : UInt64 := UInt64.ofNat (LittleEndian.decode bytes)

/-- `memcpy` of a `size_t` out of a message. -/
def readSize (message : List UInt8) (offset : UInt64) : Access UInt64 := do
  let bytes ← read message ⟨offset.toNat, sizeofSizeT.toNat⟩
  return sizeOfBytes bytes

section Functions

variable (fits : ℕ → Bool)

/-- `SerializePacket`: the message is allocated zero-filled, then written in four pieces. -/
def serializePacket (packet : Packet) : Except Fault (List UInt8) := do
  let schemaSize := UInt64.ofNat packet.schema.length
  let dataSize := UInt64.ofNat packet.data.length
  let schemaSizeOffset : UInt64 := 0
  let schemaOffset := schemaSizeOffset + sizeofSizeT
  let dataSizeOffset := schemaOffset + schemaSize
  let dataOffset := dataSizeOffset + sizeofSizeT
  let messageSize := dataOffset + dataSize
  -- `std::vector<uint8_t>(message_size)`, then the four `memcpy` calls
  let message ← allocate fits messageSize.toNat
  let message ← write message schemaSizeOffset.toNat (sizeBytes schemaSize)
  let message ← write message schemaOffset.toNat (slice packet.schema ⟨0, schemaSize.toNat⟩)
  let message ← write message dataSizeOffset.toNat (sizeBytes dataSize)
  write message dataOffset.toNat (slice packet.data ⟨0, dataSize.toNat⟩)

/-- `DeserializePacket`: no size is compared with the size of the message. -/
def deserializePacket (message : List UInt8) : Access Packet := do
  -- every size is taken from the message and trusted at once
  let schemaSizeOffset : UInt64 := 0
  let schemaSize ← readSize message schemaSizeOffset
  let schemaOffset := schemaSizeOffset + sizeofSizeT
  let schema ← copy fits message ⟨schemaOffset.toNat, schemaSize.toNat⟩
  let dataSizeOffset := schemaOffset + schemaSize
  let dataSize ← readSize message dataSizeOffset
  let dataOffset := dataSizeOffset + sizeofSizeT
  let data ← copy fits message ⟨dataOffset.toNat, dataSize.toNat⟩
  return ⟨schema, data⟩

/-- The packet `deserializePacket` returns, without the record of its reads. -/
def deserialize (message : List UInt8) : Except Fault Packet := (deserializePacket fits message).run' []

end Functions

/-! ## The message layout -/

namespace Packet

/-- `|schema| + |data| + 16`, the size of the message of a packet. -/
def messageSize (packet : Packet) : ℕ := packet.schema.length + packet.data.length + 16

/-- The message of a packet: both byte strings, each behind its 8-byte size. -/
def message (packet : Packet) : List UInt8 :=
  LittleEndian.encode 8 packet.schema.length ++ (packet.schema ++
    (LittleEndian.encode 8 packet.data.length ++ packet.data))

@[simp] theorem length_message (packet : Packet) : packet.message.length = packet.messageSize := by
  simp only [message, messageSize, List.length_append, LittleEndian.length_encode]
  omega

theorem sixteen_le_messageSize (packet : Packet) : 16 ≤ packet.messageSize := Nat.le_add_left ..

end Packet

/-! ## Sizes without wrap-around -/

theorem toNat_ofNat_size {size : ℕ} (h : size < 2 ^ 64) : (UInt64.ofNat size).toNat = size :=
  UInt64.toNat_ofNat_of_lt' h

theorem sizeBytes_ofNat {size : ℕ} (h : size < 2 ^ 64) :
    sizeBytes (UInt64.ofNat size) = LittleEndian.encode 8 size := by
  rw [sizeBytes, toNat_ofNat_size h, toNat_sizeofSizeT]

/-- Reading a `size_t` back from eight bytes loses nothing. -/
theorem toNat_sizeOfBytes {bytes : List UInt8} (h : bytes.length ≤ 8) :
    (sizeOfBytes bytes).toNat = LittleEndian.decode bytes := by
  have hlt : LittleEndian.decode bytes < 256 ^ 8 :=
    lt_of_lt_of_le (LittleEndian.decode_lt bytes) (Nat.pow_le_pow_right (by norm_num) h)
  exact toNat_ofNat_size (by norm_num at hlt ⊢; exact hlt)

/-! ## What the two functions compute -/

/-- The four writes of `serializePacket` tile the zero-filled message. -/
theorem serializePacket_eq {fits : ℕ → Bool} {packet : Packet} (hsize : packet.messageSize < 2 ^ 64)
    (hfits : fits packet.messageSize = true) : serializePacket fits packet = .ok packet.message := by
  obtain ⟨schema, data⟩ := packet
  simp only [Packet.messageSize] at hsize hfits
  have hschema : (UInt64.ofNat schema.length).toNat = schema.length := toNat_ofNat_size (by omega)
  have hdata : (UInt64.ofNat data.length).toNat = data.length := toNat_ofNat_size (by omega)
  have hschemaBytes : sizeBytes (UInt64.ofNat schema.length)
      = LittleEndian.encode 8 schema.length := sizeBytes_ofNat (by omega)
  have hdataBytes : sizeBytes (UInt64.ofNat data.length) = LittleEndian.encode 8 data.length :=
    sizeBytes_ofNat (by omega)
  -- none of the offsets wraps
  have hschemaOffset : (0 + sizeofSizeT).toNat = 8 := rfl
  have hdataSizeOffset : (0 + sizeofSizeT + UInt64.ofNat schema.length).toNat
      = 8 + schema.length := by
    rw [UInt64.toNat_add, hschemaOffset, hschema]
    omega
  have hdataOffset : (0 + sizeofSizeT + UInt64.ofNat schema.length + sizeofSizeT).toNat
      = 8 + schema.length + 8 := by
    rw [UInt64.toNat_add, hdataSizeOffset, toNat_sizeofSizeT]
    omega
  have hmessageSize : (0 + sizeofSizeT + UInt64.ofNat schema.length + sizeofSizeT
      + UInt64.ofNat data.length).toNat = schema.length + data.length + 16 := by
    rw [UInt64.toNat_add, hdataOffset, hdata]
    omega
  have hzero : List.replicate (schema.length + data.length + 16) (0 : UInt8)
      = List.replicate 8 0 ++ (List.replicate schema.length 0 ++
        (List.replicate 8 0 ++ List.replicate data.length 0)) := by
    simp only [List.replicate_append_replicate]
    congr 1
    omega
  -- each write replaces the zeros at its place between what is written and what is not
  have hfirst := write_append [] (List.replicate 8 0)
    (List.replicate schema.length 0 ++ (List.replicate 8 0 ++ List.replicate data.length 0))
    (LittleEndian.encode 8 schema.length) (show UInt64.toNat 0 = 0 from rfl) (by simp)
  have hsecond := write_append (LittleEndian.encode 8 schema.length)
    (List.replicate schema.length 0) (List.replicate 8 0 ++ List.replicate data.length 0) schema
    (show 8 = _ by simp) (by simp)
  have hthird := write_append (LittleEndian.encode 8 schema.length ++ schema) (List.replicate 8 0)
    (List.replicate data.length 0) (LittleEndian.encode 8 data.length)
    (show 8 + schema.length = _ by rw [List.length_append, LittleEndian.length_encode]) (by simp)
  have hfourth := write_append (LittleEndian.encode 8 schema.length ++ (schema ++
    LittleEndian.encode 8 data.length)) (List.replicate data.length 0) [] data
    (show 8 + schema.length + 8 = _ by simp; omega) (by simp)
  simp only [List.nil_append, List.append_nil, List.append_assoc] at hfirst hsecond hthird hfourth
  simp only [serializePacket, hmessageSize, hdataOffset, hdataSizeOffset, hschemaOffset, hschema,
    hdata, allocate_of_fits hfits, slice_full, hzero, ok_bind, hschemaBytes, hdataBytes, hfirst,
    hsecond, hthird, hfourth, Packet.message]

/-- The schema size a message announces. -/
def schemaSizeField (message : List UInt8) : ℕ := LittleEndian.decode (slice message ⟨0, 8⟩)

/-- The data size a message announces, at the place the schema size puts it. -/
def dataSizeField (message : List UInt8) : ℕ :=
  LittleEndian.decode (slice message ⟨8 + schemaSizeField message, 8⟩)

theorem readSize_of_le {message : List UInt8} {offset : UInt64} {log : List Span}
    (h : offset.toNat + 8 ≤ message.length) :
    readSize message offset log
      = .ok (sizeOfBytes (slice message ⟨offset.toNat, 8⟩), log ++ [⟨offset.toNat, 8⟩]) := by
  have hspan : Span.stop ⟨offset.toNat, sizeofSizeT.toNat⟩ ≤ message.length := h
  rw [readSize, bind_of_ok (read_of_le hspan)]
  rfl

theorem readSize_of_lt {message : List UInt8} {offset : UInt64} {log : List Span}
    (h : message.length < offset.toNat + 8) :
    readSize message offset log = .error (.outOfBounds ⟨offset.toNat, 8⟩) := by
  have hspan : message.length < Span.stop ⟨offset.toNat, sizeofSizeT.toNat⟩ := h
  rw [readSize, bind_of_error (read_of_lt hspan)]
  rfl

/-- `deserializePacket` reads the two sizes and the two byte strings from left to right and stops
at the first that is outside the message or cannot be allocated. The hypothesis keeps the offsets
behind the schema from wrapping. -/
theorem deserializePacket_run {fits : ℕ → Bool} {message : List UInt8} {log : List Span} {s d : ℕ}
    (hs : schemaSizeField message = s) (hd : dataSizeField message = d)
    (hwrap : 8 + s ≤ message.length → s + 16 < 2 ^ 64) :
    deserializePacket fits message log =
      if message.length < 8 then .error (.outOfBounds ⟨0, 8⟩)
      else if fits s = false then .error (.allocation s)
      else if message.length < 8 + s then .error (.outOfBounds ⟨8, s⟩)
      else if message.length < 8 + s + 8 then .error (.outOfBounds ⟨8 + s, 8⟩)
      else if fits d = false then .error (.allocation d)
      else if message.length < 8 + s + 8 + d then .error (.outOfBounds ⟨8 + s + 8, d⟩)
      else .ok (⟨slice message ⟨8, s⟩, slice message ⟨8 + s + 8, d⟩⟩,
        log ++ [⟨0, 8⟩, ⟨8, s⟩, ⟨8 + s, 8⟩, ⟨8 + s + 8, d⟩]) := by
  have hslice : ∀ start, (slice message ⟨start, 8⟩).length ≤ 8 := fun start => by simp [slice]
  simp only [deserializePacket]
  by_cases h1 : message.length < 8
  · rw [if_pos h1, bind_of_error (readSize_of_lt h1)]
    rfl
  rw [if_neg h1, bind_of_ok (readSize_of_le (Nat.not_lt.mp h1))]
  -- the schema size is known
  obtain ⟨schemaSize, hschemaSize⟩ :
      ∃ size, size = sizeOfBytes (slice message ⟨(0 : UInt64).toNat, 8⟩) := ⟨_, rfl⟩
  have hsize : schemaSize.toNat = s := by rw [hschemaSize, toNat_sizeOfBytes (hslice _), ← hs]; rfl
  have hspan : (⟨(0 + sizeofSizeT).toNat, schemaSize.toNat⟩ : Span) = ⟨8, s⟩ := by rw [hsize]; rfl
  rw [← hschemaSize, hspan]
  by_cases h2 : fits s = false
  · rw [if_pos h2, bind_of_error (copy_of_not_fits h2)]
  rw [if_neg h2]
  have hfits : fits s = true := by simpa using h2
  by_cases h3 : message.length < 8 + s
  · rw [if_pos h3, bind_of_error (copy_of_lt hfits h3)]
  rw [if_neg h3, bind_of_ok (copy_of_le hfits (Nat.not_lt.mp h3))]
  -- the schema lies inside the message, so the offsets behind it do not wrap
  have hbound : s + 16 < 2 ^ 64 := hwrap (Nat.not_lt.mp h3)
  have hoffset : (0 + sizeofSizeT + schemaSize).toNat = 8 + s := by
    rw [UInt64.toNat_add, hsize]
    exact Nat.mod_eq_of_lt (by show 8 + s < 2 ^ 64; omega)
  by_cases h4 : message.length < 8 + s + 8
  · rw [if_pos h4, bind_of_error (readSize_of_lt (by rw [hoffset]; exact h4)), hoffset]
  rw [if_neg h4, bind_of_ok (readSize_of_le (by rw [hoffset]; exact Nat.not_lt.mp h4)), hoffset]
  -- the data size is known
  obtain ⟨dataSize, hdataSize⟩ : ∃ size, size = sizeOfBytes (slice message ⟨8 + s, 8⟩) := ⟨_, rfl⟩
  have hsize' : dataSize.toNat = d := by
    rw [hdataSize, toNat_sizeOfBytes (hslice _), ← hd, dataSizeField, hs]
  have hoffset' : (0 + sizeofSizeT + schemaSize + sizeofSizeT).toNat = 8 + s + 8 := by
    rw [UInt64.toNat_add, hoffset]
    exact Nat.mod_eq_of_lt (by show 8 + s + 8 < 2 ^ 64; omega)
  rw [← hdataSize, hoffset', hsize']
  by_cases h5 : fits d = false
  · rw [if_pos h5, bind_of_error (copy_of_not_fits h5)]
  rw [if_neg h5]
  have hfits' : fits d = true := by simpa using h5
  by_cases h6 : message.length < 8 + s + 8 + d
  · rw [if_pos h6, bind_of_error (copy_of_lt hfits' h6)]
  rw [if_neg h6, bind_of_ok (copy_of_le hfits' (Nat.not_lt.mp h6))]
  simp only [List.append_assoc, List.cons_append, List.nil_append]
  rfl

end Contra
