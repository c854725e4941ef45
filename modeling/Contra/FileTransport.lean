import Contra.Foundation.FileStream
import Contra.PacketCodec

/-! # The file transport (`file_transport.cpp`)

`FileTransport.send` and `FileTransport.receive` are the two operations of the class over a disk.
A send gets the outcome of its open from outside; reads, writes and allocations behave as
`FileStream` and `CheckedMemory` say. `receiveLoop` is the `while` loop of `Receive`, for any
decoder and by well-founded recursion on what is left of the stream, and `receiveLoop_good` is the
one equation the later files use. -/

namespace Contra

open CheckedMemory FileStream

/-- `kSignature`: the letters `CONTRA`. -/
def kSignature : List UInt8 := [67, 79, 78, 84, 82, 65]

/-- `kSignatureLength`. -/
def kSignatureLength : ℕ := 6

/-- A `FileTransport` object. -/
structure FileTransport where
  /-- `filename_`. -/
  filename : String
  /-- `first_time_sending_`. -/
  firstTimeSending : Bool := true
  deriving DecidableEq, Repr

/-! ## Receiving -/

/-- The string at a C pointer: the bytes in front of the first NUL. -/
def cString (buffer : List UInt8) : Except Fault (List UInt8) :=
  if 0 ∈ buffer then .ok (buffer.takeWhile (· ≠ 0)) else .error (.outOfBounds ⟨buffer.length, 1⟩)

/-- `ReadAndCheckSignature`, with the stream it leaves behind. -/
def readAndCheckSignature (stream : Reader) : Except Fault (Bool × Reader) := do
  let signatureBuffer := List.replicate (kSignatureLength + 1) 0
  let (signatureBuffer, stream) ← stream.read signatureBuffer kSignatureLength
  let signature ← cString signatureBuffer
  return (decide (signature = kSignature), stream)

section Loop

variable (decode : List UInt8 → Except Fault Packet) (fits : ℕ → Bool)

/-- The body of the loop of `Receive`: `none` where it breaks, else the packet it appends. The size
in a frame header is read as a signed `std::streamsize`. -/
def receiveIteration (stream : Reader) : Except Fault (Option (Packet × Reader)) := do
  -- the outcome of the read is not looked at: missing header bytes stay zero
  let (header, stream) ← stream.read (List.replicate 8 0) (8 : ℕ)
  let size : Int64 := (sizeOfBytes header).toInt64
  if size = 0 then
    return none
  let serializedPacket ← allocate fits size.toUInt64.toNat
  -- nor is the outcome of this one: missing bytes of the packet stay zero
  let (serializedPacket, stream) ← stream.read serializedPacket size.toInt
  let packet ← decode serializedPacket
  return some (packet, stream)

end Loop

/-! ### Streamsize -/

theorem toInt64_eq_zero_iff {size : UInt64} : size.toInt64 = 0 ↔ size.toNat = 0 := by
  constructor
  · intro h
    rw [← UInt64.toUInt64_toInt64 size, h]
    rfl
  · intro h
    have hsize : size = 0 := UInt64.toNat_inj.mp h
    rw [hsize]
    rfl

/-- A size below `2 ^ 63` keeps its value as a `std::streamsize`. -/
theorem toInt_toInt64 {size : UInt64} (h : size.toNat < 2 ^ 63) : size.toInt64.toInt = size.toNat := by
  show BitVec.toInt size.toBitVec = _
  exact BitVec.toInt_eq_toNat_of_lt (by show 2 * size.toNat < 2 ^ 64; omega)

/-! ### The loop -/

section Loop

variable {decode : List UInt8 → Except Fault Packet} {fits : ℕ → Bool}

/-- An iteration that continues has taken the eight bytes of a header or met the end of the
file. -/
theorem receiveIteration_progress {stream stream' : Reader} {packet : Packet}
    (h : receiveIteration decode fits stream = .ok (some (packet, stream'))) :
    stream'.rest.length ≤ stream.rest.length ∧
      (stream'.rest.length + 8 ≤ stream.rest.length ∨ stream'.eof = true) := by
  unfold receiveIteration at h
  obtain ⟨⟨header, middle⟩, hheader, h⟩ := bind_eq_ok.mp h
  dsimp only at h
  split_ifs at h with hsize
  · cases h
  obtain ⟨buffer, -, h⟩ := bind_eq_ok.mp h
  obtain ⟨⟨message, last⟩, hmessage, h⟩ := bind_eq_ok.mp h
  obtain ⟨packet', -, h⟩ := bind_eq_ok.mp h
  obtain rfl : last = stream' := by cases h; rfl
  obtain ⟨hrest, hmono⟩ := Reader.rest_le_of_read hmessage
  have hrest' := (Reader.rest_le_of_read hheader).1
  refine ⟨le_trans hrest hrest', ?_⟩
  -- the header took eight bytes, or hit the end of the file, or the size is still zero
  rcases Reader.read_progress hheader with htaken | heof | hzero
  · left
    omega
  · right
    exact hmono heof
  · exact absurd (by rw [hzero]; rfl) hsize

/-- What is left of the stream gets less in every iteration that continues. -/
theorem remaining_lt_of_receiveIteration {stream stream' : Reader} {packet : Packet}
    (heof : stream.eof = false)
    (h : receiveIteration decode fits stream = .ok (some (packet, stream'))) :
    stream'.remaining < stream.remaining := by
  obtain ⟨hrest, hprogress⟩ := receiveIteration_progress h
  have hstream : stream.remaining = stream.rest.length + 1 := by
    rw [Reader.remaining, heof]
    rfl
  rcases hprogress with htaken | heof'
  · have hlast : stream'.remaining ≤ stream'.rest.length + 1 := by
      unfold Reader.remaining
      split <;> omega
    omega
  · have hlast : stream'.remaining = stream'.rest.length := by
      rw [Reader.remaining, heof']
      rfl
    omega

end Loop

section Receive

variable (decode : List UInt8 → Except Fault Packet) (fits : ℕ → Bool)

/-- The `while` loop of `Receive`, with the packets appended so far. -/
def receiveLoop (stream : Reader) (returnPackets : List Packet) : Except Fault (List Packet) :=
  if _heof : stream.eof = true then .ok returnPackets
  else
    match _hstep : receiveIteration decode fits stream with
    | .error fault => .error fault
    | .ok none => .ok returnPackets
    | .ok (some (packet, stream')) => receiveLoop stream' (returnPackets ++ [packet])
termination_by stream.remaining
decreasing_by exact remaining_lt_of_receiveIteration (by simpa using _heof) _hstep

/-- `FileTransport::Receive` on the content of its file. -/
def receiveContent (content : Option (List UInt8)) : Except Fault (List Packet) := do
  let (matched, stream) ← readAndCheckSignature (Reader.openFile content)
  if matched then receiveLoop decode fits stream [] else return []

end Receive

namespace FileTransport

variable (fits : ℕ → Bool)

/-- `FileTransport::Receive`: a function of the disk that changes neither the disk nor the
object. -/
def receive (transport : FileTransport) (disk : Disk) : Except Fault (List Packet) :=
  receiveContent (deserialize fits) fits (disk transport.filename)

/-! ## Sending -/

/-- `FileTransport::Send`; `opens` is the outcome of its open. The first send truncates the file and
signs it, and from then on the object appends, whether or not the open succeeded. -/
def send (opens : Bool) (packet : Packet) (transport : FileTransport) (disk : Disk) :
    Except Fault Unit × FileTransport × Disk :=
  let (stream, transport, disk) :=
    if transport.firstTimeSending then
      -- the flag is cleared whatever becomes of the open and of the signature
      let (stream, disk) := Writer.openFile .truncate opens transport.filename disk
      (stream, { transport with firstTimeSending := false }, stream.write kSignature disk)
    else
      let (stream, disk) := Writer.openFile .append opens transport.filename disk
      (stream, transport, disk)
  match serializePacket fits packet with
  | .error fault => (.error fault, transport, disk)
  | .ok serializedPacket =>
    -- the length in front, then as many bytes as it says
    let size := UInt64.ofNat serializedPacket.length
    let disk := stream.write (sizeBytes size) disk
    let count : Int64 := size.toInt64
    let disk := stream.write (serializedPacket.take count.toInt.toNat) disk
    (.ok (), transport, disk)

end FileTransport

end Contra
