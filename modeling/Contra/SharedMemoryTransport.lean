import Contra.Foundation.NamedObjects
import Contra.Packet
import Mathlib.Data.Int.Basic

/-! # The shared memory transport (`shared_memory_transport.cpp`)

All `SharedMemoryTransport` objects on one name. The name has a segment and, with a suffix, a mutex;
the segment holds two named objects, the packet storage and the reference count. Every operation of
the class is a function on this memory, built from the operations of Boost.Interprocess: `find` gives
the address of a named object or nothing, `construct` throws when the name is taken, and a removed
name is unbound while the handles that are open stay usable. The count is an unbounded integer here.

`none` is an exception, or an access through a pointer to nothing. -/

namespace Contra

open NamedObjects

/-! ## Memory -/

/-- `InternalPacket`: a packet in shared memory. -/
structure InternalPacket where
  /-- `schema`. -/
  schema : List UInt8
  /-- `data`. -/
  data : List UInt8
  deriving DecidableEq, Repr

/-- The copy that `Send` makes. -/
def InternalPacket.ofPacket (packet : Packet) : InternalPacket := ⟨packet.schema, packet.data⟩

/-- The copy that `Receive` makes. -/
def InternalPacket.toPacket (internalPacket : InternalPacket) : Packet :=
  ⟨internalPacket.schema, internalPacket.data⟩

@[simp] theorem InternalPacket.toPacket_ofPacket (packet : Packet) :
    (InternalPacket.ofPacket packet).toPacket = packet := rfl

/-- A named object in a segment. -/
structure NamedObject (α : Type) where
  /-- Its place in the segment. -/
  address : ℕ
  /-- Its value. -/
  value : α
  deriving DecidableEq, Repr

namespace NamedObject

variable {α : Type}

/-- `segment.find`. -/
def find (entry : Option (NamedObject α)) : Option ℕ := entry.map address

/-- `segment.construct`, at the given place. -/
def construct (entry : Option (NamedObject α)) (address : ℕ) (value : α) : Option (NamedObject α) :=
  match entry with
  | some _ => none
  | none => some ⟨address, value⟩

/-- The value at an address, if the object is there. -/
def load (entry : Option (NamedObject α)) (address : ℕ) : Option α :=
  match entry with
  | some object => if object.address = address then some object.value else none
  | none => none

theorem find_eq_some {entry : Option (NamedObject α)} {address : ℕ} :
    find entry = some address ↔ ∃ value, entry = some ⟨address, value⟩ := by
  cases entry with
  | none => simp [find]
  | some object =>
    obtain ⟨place, value⟩ := object
    simp [find]

theorem load_eq_some {entry : Option (NamedObject α)} {address : ℕ} {value : α} :
    load entry address = some value ↔ entry = some ⟨address, value⟩ := by
  cases entry with
  | none => simp [load]
  | some object =>
    obtain ⟨place, content⟩ := object
    simp [load]

end NamedObject

/-- A shared memory segment. -/
structure Segment where
  /-- The object named `PacketStorage`. -/
  packetStorage : Option (NamedObject (List InternalPacket))
  /-- The object named `ReferenceCount`. -/
  referenceCount : Option (NamedObject ℤ)
  /-- The first free address. -/
  top : ℕ
  deriving DecidableEq, Repr

/-- A segment as `open_or_create` creates it. -/
def Segment.fresh : Segment := ⟨none, none, 0⟩

/-- A pointer into a segment. -/
structure Pointer where
  /-- The number of the segment. -/
  segment : ℕ
  /-- The place in it. -/
  address : ℕ
  deriving DecidableEq, Repr

/-- The segments and the mutexes of the name; a mutex knows who has locked it. -/
structure SharedMemory (ι : Type*) where
  /-- The segments. -/
  segments : Name Segment
  /-- The mutexes. -/
  mutexes : Name (Option ι)

/-- A `SharedMemoryTransport` object. -/
structure SharedMemoryTransport where
  /-- `segment_`. -/
  segment : ℕ
  /-- `mutex_`. -/
  mutex : ℕ
  /-- `packet_storage_`. -/
  packetStorage : Pointer
  /-- `reference_count_`. -/
  referenceCount : Pointer
  deriving DecidableEq, Repr

namespace SharedMemory

variable {ι : Type*}

/-- The name was never used. -/
def empty : SharedMemory ι := ⟨⟨fun _ => .fresh, 0, none⟩, ⟨fun _ => none, 0, none⟩⟩

variable (memory : SharedMemory ι)

/-- `segment_{open_or_create, ...}`. -/
def openSegment : ℕ × SharedMemory ι :=
  let (segment, segments) := memory.segments.openOrCreate .fresh
  (segment, { memory with segments := segments })

/-- `mutex_{open_or_create, ...}`. -/
def openMutex : ℕ × SharedMemory ι :=
  let (mutex, mutexes) := memory.mutexes.openOrCreate none
  (mutex, { memory with mutexes := mutexes })

/-- New content for a segment. -/
def setSegment (segment : ℕ) (content : Segment) : SharedMemory ι :=
  { memory with segments := memory.segments.set segment content }

@[simp] theorem object_setSegment (segment : ℕ) (content : Segment) :
    (memory.setSegment segment content).segments.object segment = content := Name.object_set_self

@[simp] theorem setSegment_setSegment (segment : ℕ) (first second : Segment) :
    (memory.setSegment segment first).setSegment segment second
      = memory.setSegment segment second := by
  simp [setSegment, Name.set]

@[simp] theorem bound_setSegment (segment : ℕ) (content : Segment) :
    (memory.setSegment segment content).segments.bound = memory.segments.bound := rfl

@[simp] theorem created_setSegment (segment : ℕ) (content : Segment) :
    (memory.setSegment segment content).segments.created = memory.segments.created := rfl

@[simp] theorem mutexes_setSegment (segment : ℕ) (content : Segment) :
    (memory.setSegment segment content).mutexes = memory.mutexes := rfl

/-- `segment_.find<PacketStorage>`. -/
def findPacketStorage (segment : ℕ) : Option Pointer :=
  (NamedObject.find (memory.segments.object segment).packetStorage).map (Pointer.mk segment)

/-- `segment_.construct<PacketStorage>`. -/
def constructPacketStorage (segment : ℕ) : Option (Pointer × SharedMemory ι) :=
  let content := memory.segments.object segment
  (NamedObject.construct content.packetStorage content.top []).map fun object =>
    (⟨segment, object.address⟩, memory.setSegment segment
      { content with packetStorage := some object, top := content.top + 1 })

/-- `segment_.find<int>`. -/
def findReferenceCount (segment : ℕ) : Option Pointer :=
  (NamedObject.find (memory.segments.object segment).referenceCount).map (Pointer.mk segment)

/-- `segment_.construct<int>`. -/
def constructReferenceCount (segment : ℕ) : Option (Pointer × SharedMemory ι) :=
  let content := memory.segments.object segment
  (NamedObject.construct content.referenceCount content.top 0).map fun object =>
    (⟨segment, object.address⟩, memory.setSegment segment
      { content with referenceCount := some object, top := content.top + 1 })

/-- `*packet_storage_`. -/
def loadPacketStorage (pointer : Pointer) : Option (List InternalPacket) :=
  NamedObject.load (memory.segments.object pointer.segment).packetStorage pointer.address

/-- A new value for `*packet_storage_`. -/
def storePacketStorage (pointer : Pointer) (value : List InternalPacket) : SharedMemory ι :=
  let content := memory.segments.object pointer.segment
  memory.setSegment pointer.segment
    { content with packetStorage := some ⟨pointer.address, value⟩ }

/-- `*reference_count_`. -/
def loadReferenceCount (pointer : Pointer) : Option ℤ :=
  NamedObject.load (memory.segments.object pointer.segment).referenceCount pointer.address

/-- A new value for `*reference_count_`. -/
def storeReferenceCount (pointer : Pointer) (value : ℤ) : SharedMemory ι :=
  let content := memory.segments.object pointer.segment
  memory.setSegment pointer.segment
    { content with referenceCount := some ⟨pointer.address, value⟩ }

/-- `++(*reference_count_)` for `1` and `--(*reference_count_)` for `-1`. -/
def addReferenceCount (pointer : Pointer) (change : ℤ) : Option (SharedMemory ι) :=
  (memory.loadReferenceCount pointer).map fun count =>
    memory.storeReferenceCount pointer (count + change)

/-- `shared_memory_object::remove`. -/
def removeSegment : SharedMemory ι := { memory with segments := memory.segments.remove }

/-- `named_mutex::remove`. -/
def removeMutex : SharedMemory ι := { memory with mutexes := memory.mutexes.remove }

/-! ## The operations of the class -/

/-- `FindOrConstructPacketStorage`. -/
def findOrConstructPacketStorage (segment : ℕ) : Option (Pointer × SharedMemory ι) :=
  match memory.findPacketStorage segment with
  | some storage => some (storage, memory)
  | none => memory.constructPacketStorage segment

/-- `FindOrConstructReferenceCount`. -/
def findOrConstructReferenceCount (segment : ℕ) : Option (Pointer × SharedMemory ι) :=
  match memory.findReferenceCount segment with
  | some count => some (count, memory)
  | none => memory.constructReferenceCount segment

/-- The constructor. -/
def construct : Option (SharedMemoryTransport × SharedMemory ι) := do
  -- the members in the order of their declaration; the mutex is opened and not locked
  let (segment, memory) := memory.openSegment
  let (mutex, memory) := memory.openMutex
  let (packetStorage, memory) ← memory.findOrConstructPacketStorage segment
  let (referenceCount, memory) ← memory.findOrConstructReferenceCount segment
  let memory ← memory.addReferenceCount referenceCount 1
  return (⟨segment, mutex, packetStorage, referenceCount⟩, memory)

/-- `Destroy`. -/
def destroy : SharedMemory ι := memory.removeSegment.removeMutex

/-- The destructor. -/
def destruct (transport : SharedMemoryTransport) : Option (SharedMemory ι) :=
  (memory.addReferenceCount transport.referenceCount (-1)).bind fun memory =>
    (memory.loadReferenceCount transport.referenceCount).map fun count =>
      if count = 0 then memory.destroy else memory

/-- `Send`, under the lock. -/
def send (transport : SharedMemoryTransport) (packet : Packet) : Option (SharedMemory ι) :=
  (memory.loadPacketStorage transport.packetStorage).map fun storage =>
    memory.storePacketStorage transport.packetStorage (storage ++ [.ofPacket packet])

/-- `Receive`, under the lock: all packets stored, and then the storage is cleared. -/
def receive (transport : SharedMemoryTransport) : Option (List Packet × SharedMemory ι) :=
  (memory.loadPacketStorage transport.packetStorage).map fun storage =>
    (storage.map InternalPacket.toPacket, memory.storePacketStorage transport.packetStorage [])

end SharedMemory

end Contra
