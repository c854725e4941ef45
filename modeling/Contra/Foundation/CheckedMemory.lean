import Mathlib.Data.List.Basic
import Mathlib.Tactic.Common

/-! # Bounds-checked access to byte buffers

Raw memory reads and writes over a byte list, in which leaving the buffer is a result of its own
(`Fault.outOfBounds`) and not a default value. Reads run in `Access`, which records the spans
read, so that a development can say which bytes a reader looked at. `Fault.allocation` is the
other way to stop: a container of the wanted size cannot be had and an exception is thrown before
anything is copied. -/

namespace CheckedMemory

/-- A range of `size` bytes at offset `start` of a buffer. -/
structure Span where
  /-- Offset of the first byte. -/
  start : ℕ
  /-- Number of bytes. -/
  size : ℕ
  deriving DecidableEq, Repr

/-- The offset just past a span. -/
def Span.stop (span : Span) : ℕ := span.start + span.size

@[simp] theorem Span.stop_mk (start size : ℕ) : (Span.mk start size).stop = start + size := rfl

/-- Why a computation over buffers does not end normally. -/
inductive Fault where
  /-- A span outside its buffer was read or written: the language gives it no meaning. -/
  | outOfBounds (span : Span)
  /-- A container of this many bytes cannot be built: an exception leaves the function. -/
  | allocation (size : ℕ)
  deriving DecidableEq, Repr

/-- Computations that read buffers: they may fault, and they keep the spans read so far. -/
abbrev Access (α : Type) : Type := StateT (List Span) (Except Fault) α

/-- The bytes of a span, as far as the buffer has them. -/
def slice (buffer : List UInt8) (span : Span) : List UInt8 := (buffer.drop span.start).take span.size

/-- Read a span of a buffer. -/
def read (buffer : List UInt8) (span : Span) : Access (List UInt8) := fun log =>
  if span.stop ≤ buffer.length then .ok (slice buffer span, log ++ [span])
  else .error (.outOfBounds span)

/-- Overwrite the bytes of a buffer from offset `start` on. -/
def write (buffer : List UInt8) (start : ℕ) (bytes : List UInt8) : Except Fault (List UInt8) :=
  if start + bytes.length ≤ buffer.length then
    .ok (buffer.take start ++ bytes ++ buffer.drop (start + bytes.length))
  else .error (.outOfBounds ⟨start, bytes.length⟩)

/-- A fresh container of `size` zero bytes; `fits` says which sizes can be had. -/
def allocate (fits : ℕ → Bool) (size : ℕ) : Except Fault (List UInt8) :=
  if fits size then .ok (List.replicate size 0) else .error (.allocation size)

/-- Construct a container from a span of a buffer: get its memory first, then copy the span. -/
def copy (fits : ℕ → Bool) (buffer : List UInt8) (span : Span) : Access (List UInt8) :=
  if fits span.size then read buffer span else throw (.allocation span.size)

/-! ## Reading -/

section Reading

variable {buffer : List UInt8} {span : Span} {fits : ℕ → Bool} {log : List Span}

theorem read_of_le (h : span.stop ≤ buffer.length) :
    read buffer span log = .ok (slice buffer span, log ++ [span]) := if_pos h

theorem read_of_lt (h : buffer.length < span.stop) :
    read buffer span log = .error (.outOfBounds span) := if_neg (Nat.not_le.mpr h)

theorem copy_of_le (hfits : fits span.size = true) (h : span.stop ≤ buffer.length) :
    copy fits buffer span log = .ok (slice buffer span, log ++ [span]) := by
  rw [copy, if_pos hfits, read_of_le h]

theorem copy_of_lt (hfits : fits span.size = true) (h : buffer.length < span.stop) :
    copy fits buffer span log = .error (.outOfBounds span) := by
  rw [copy, if_pos hfits, read_of_lt h]

theorem copy_of_not_fits (hfits : fits span.size = false) :
    copy fits buffer span log = .error (.allocation span.size) := by
  rw [copy, if_neg (by simp [hfits])]
  rfl

/-- The slice in the middle of a concatenation. -/
theorem slice_append (front middle back : List UInt8) {span : Span}
    (hstart : span.start = front.length) (hsize : span.size = middle.length) :
    slice (front ++ (middle ++ back)) span = middle := by
  simp [slice, hstart, hsize]

@[simp] theorem slice_full (buffer : List UInt8) : slice buffer ⟨0, buffer.length⟩ = buffer := by
  simp [slice]

/-- A slice inside the buffer has the size of its span. -/
theorem length_slice (h : span.stop ≤ buffer.length) : (slice buffer span).length = span.size := by
  have hspan : span.start + span.size ≤ buffer.length := h
  rw [slice, List.length_take, List.length_drop]
  omega

end Reading

/-! ## Running reads in sequence -/

section Sequence

variable {α β : Type} {first : Access α} {next : α → Access β} {log log' : List Span}

/-- A sequence continues from the value and the log of its first part. -/
theorem bind_of_ok {value : α} (h : first log = .ok (value, log')) :
    (first >>= next) log = next value log' := by
  -- a bind of `StateT` is a bind of `Except` on values with logs
  show (first log >>= fun r => next r.1 r.2) = _
  rw [h]
  rfl

/-- A sequence stops at the first fault. -/
theorem bind_of_error {fault : Fault} (h : first log = .error fault) :
    (first >>= next) log = .error fault := by
  show (first log >>= fun r => next r.1 r.2) = _
  rw [h]
  rfl

/-- The same for computations that only fault. -/
@[simp] theorem ok_bind (value : α) (next : α → Except Fault β) :
    (Except.ok value >>= next) = next value := rfl

@[simp] theorem error_bind (fault : Fault) (next : α → Except Fault β) :
    ((Except.error fault : Except Fault α) >>= next) = .error fault := rfl

/-- A sequence that ends normally did so in both parts. -/
theorem bind_eq_ok {computation : Except Fault α} {next : α → Except Fault β} {result : β} :
    (computation >>= next) = .ok result ↔
      ∃ value, computation = .ok value ∧ next value = .ok result := by
  cases computation with
  | error fault => simp
  | ok value => simp

end Sequence

/-! ## Writing and allocating -/

/-- Writing over the middle of a concatenation replaces the middle. -/
theorem write_append (front old back bytes : List UInt8) {start : ℕ}
    (hstart : start = front.length) (hsize : bytes.length = old.length) :
    write (front ++ (old ++ back)) start bytes = .ok (front ++ (bytes ++ back)) := by
  subst hstart
  rw [write, if_pos (by simp; omega)]
  simp [hsize, List.drop_append]

theorem allocate_of_fits {fits : ℕ → Bool} {size : ℕ} (h : fits size = true) :
    allocate fits size = .ok (List.replicate size 0) := if_pos h

theorem allocate_of_not_fits {fits : ℕ → Bool} {size : ℕ} (h : fits size = false) :
    allocate fits size = .error (.allocation size) := if_neg (by simp [h])

end CheckedMemory
