import Contra.Foundation.CheckedMemory
import Mathlib.Data.Int.Basic
import Mathlib.Logic.Function.Basic
import Mathlib.Order.Basic

/-! # Binary file streams

The part of `std::ifstream` and `std::ofstream` that binary readers and writers use, over a disk of
byte contents. A read that gets fewer bytes than it asked for sets both `eof` and `fail` and leaves
the rest of its buffer alone; a read on a stream that is not good transfers nothing. A write to a
stream whose open failed changes nothing. Neither reports an error. -/

namespace FileStream

open CheckedMemory

/-- The content of every path; `none` where there is no file. -/
abbrev Disk : Type := String → Option (List UInt8)

/-! ## Reading -/

/-- An input stream: what is left to read, and the two state bits. -/
structure Reader where
  /-- Bytes between the read position and the end of the file. -/
  rest : List UInt8
  /-- `eofbit`. -/
  eof : Bool
  /-- `failbit`. -/
  fail : Bool
  deriving DecidableEq, Repr

namespace Reader

/-- A stream in good state in front of `rest`. -/
def good (rest : List UInt8) : Reader := ⟨rest, false, false⟩

/-- A stream that hit the end of its file in the middle of a read. -/
def exhausted : Reader := ⟨[], true, true⟩

/-- Open a file for reading; without a file the stream starts in failed state. -/
def openFile : Option (List UInt8) → Reader
  | none => ⟨[], false, true⟩
  | some content => good content

/-- `stream.read(buffer, count)`: the bytes read replace the front of the buffer. A buffer with
less than `count` bytes is overrun. -/
def read (stream : Reader) (buffer : List UInt8) (count : ℤ) : Except Fault (List UInt8 × Reader) :=
  if buffer.length < count.toNat then .error (.outOfBounds ⟨0, count.toNat⟩)
  -- the sentry of `read` refuses a stream that is not good
  else if stream.eof || stream.fail then .ok (buffer, { stream with fail := true })
  else
    -- what the file has of the bytes asked for; too few of them set both state bits
    let got := stream.rest.take count.toNat
    let short := decide ((got.length : ℤ) ≠ count)
    .ok (got ++ buffer.drop got.length, ⟨stream.rest.drop got.length, short, short⟩)

/-- What is left of the stream, counting the end of file as one more thing to find. -/
def remaining (stream : Reader) : ℕ := stream.rest.length + if stream.eof then 0 else 1

section Read

variable {stream stream' : Reader} {buffer buffer' rest : List UInt8} {count : ℤ} {size : ℕ}

/-- A read that the rest of the file can satisfy. -/
theorem read_of_le (hbuffer : size ≤ buffer.length) (hrest : size ≤ rest.length) :
    (good rest).read buffer size
      = .ok (rest.take size ++ buffer.drop size, good (rest.drop size)) := by
  have hgot : (rest.take size).length = size := by rw [List.length_take]; omega
  simp only [read, good, Int.toNat_natCast, hgot]
  rw [if_neg (by omega)]
  simp

/-- A read that runs into the end of the file. -/
theorem read_of_lt (hbuffer : size ≤ buffer.length) (hrest : rest.length < size) :
    (good rest).read buffer size = .ok (rest ++ buffer.drop rest.length, exhausted) := by
  have hgot : rest.take size = rest := List.take_of_length_le (by omega)
  have hshort : ((rest.length : ℤ) ≠ size) := by omega
  simp only [read, good, Int.toNat_natCast, hgot]
  rw [if_neg (by omega)]
  simp [hshort, exhausted]

/-- A read after the end of the file leaves the buffer alone. -/
theorem read_exhausted (hbuffer : size ≤ buffer.length) :
    exhausted.read buffer size = .ok (buffer, exhausted) := by
  rw [read, if_neg (by simp; omega)]
  rfl

/-- A read on a file that was not opened leaves the buffer alone. -/
theorem read_openFile_none (hbuffer : size ≤ buffer.length) :
    (Reader.openFile none).read buffer size = .ok (buffer, Reader.openFile none) := by
  rw [read, if_neg (by simp; omega)]
  rfl

/-- Reading never gives bytes back and never clears `eof`. -/
theorem rest_le_of_read (h : stream.read buffer count = .ok (buffer', stream')) :
    stream'.rest.length ≤ stream.rest.length ∧ (stream.eof = true → stream'.eof = true) := by
  unfold read at h
  split_ifs at h with _ hstate
  · obtain ⟨-, rfl⟩ := Prod.mk.inj (Except.ok.inj h)
    exact ⟨le_rfl, id⟩
  · obtain ⟨-, rfl⟩ := Prod.mk.inj (Except.ok.inj h)
    refine ⟨by simp, fun heof => ?_⟩
    simp [heof] at hstate

/-- A read of `size` bytes takes them from the file, or sets `eof`, or finds the stream unusable
and leaves the buffer as it was. -/
theorem read_progress (h : stream.read buffer size = .ok (buffer', stream')) :
    stream'.rest.length + size = stream.rest.length ∨ stream'.eof = true ∨ buffer' = buffer := by
  unfold read at h
  split_ifs at h with _ hstate
  · -- the stream was not good
    obtain ⟨rfl, -⟩ := Prod.mk.inj (Except.ok.inj h)
    exact Or.inr (Or.inr rfl)
  · obtain ⟨-, rfl⟩ := Prod.mk.inj (Except.ok.inj h)
    by_cases hshort : ((stream.rest.take size).length : ℤ) = size
    · left
      simp only [Int.toNat_natCast, List.length_drop, List.length_take] at hshort ⊢
      omega
    · right; left
      simpa using hshort

end Read

end Reader

/-! ## Writing -/

/-- How an output stream is opened: `out` alone truncates, `out | app` keeps the content. -/
inductive OpenMode where
  /-- The file is emptied or created. -/
  | truncate
  /-- The file is kept or created; every write goes to its end. -/
  | append
  deriving DecidableEq, Repr

/-- An output stream on a path. -/
structure Writer where
  /-- The file written to. -/
  path : String
  /-- Whether the open succeeded. -/
  isOpen : Bool
  deriving DecidableEq, Repr

namespace Writer

/-- Open a path for writing; `succeeds` is the outcome the system gives the open. -/
def openFile (mode : OpenMode) (succeeds : Bool) (path : String) (disk : Disk) : Writer × Disk :=
  if succeeds then
    -- both modes create a file that does not exist
    let content := match mode with
      | .truncate => []
      | .append => (disk path).getD []
    (⟨path, true⟩, Function.update disk path (some content))
  else (⟨path, false⟩, disk)

/-- `stream.write`: the bytes go to the end of an open file. -/
def write (stream : Writer) (bytes : List UInt8) (disk : Disk) : Disk :=
  if stream.isOpen then
    Function.update disk stream.path (some ((disk stream.path).getD [] ++ bytes))
  else disk

section Write

variable {path : String} {bytes content : List UInt8} {disk : Disk}

@[simp] theorem openFile_truncate :
    Writer.openFile .truncate true path disk = (⟨path, true⟩, Function.update disk path (some [])) := rfl

@[simp] theorem openFile_append :
    Writer.openFile .append true path disk
      = (⟨path, true⟩, Function.update disk path (some ((disk path).getD []))) := rfl

@[simp] theorem openFile_failed (mode : OpenMode) :
    Writer.openFile mode false path disk = (⟨path, false⟩, disk) := rfl

/-- Writing behind known content. -/
@[simp] theorem write_update :
    write ⟨path, true⟩ bytes (Function.update disk path (some content))
      = Function.update disk path (some (content ++ bytes)) := by
  simp [write]

@[simp] theorem write_closed : write ⟨path, false⟩ bytes disk = disk := rfl

end Write

end Writer

end FileStream
