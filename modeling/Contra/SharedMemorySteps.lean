import Contra.SharedMemoryLifecycle

/-! # Shared memory step by step

The constructor and the destructor of `SharedMemoryTransport` as the steps they take, so that the
steps of different objects come between each other. Each call of Boost.Interprocess is a step of its
own: the two opens, every `find` and every `construct` that follows a `find` that missed, the
increment, and in the destructor the decrement, the test for zero and the two removals. `Send` and
`Receive` take the lock, do their work and release the lock; who holds it is recorded with its call. An
exception in the constructor ends it and leaves nothing behind, since nothing was counted yet.

`ShmProcesses.atomic_runs` connects these steps with the atomic operations of `ShmWorld`. -/

namespace Contra

open NamedObjects

/-! ## Where an object is -/

/-- A call that takes the lock. -/
inductive Operation where
  /-- `Send(packet)`. -/
  | send (packet : Packet)
  /-- `Receive()`. -/
  | receive
  deriving DecidableEq, Repr

/-- The place of an object in its constructor, its life or its destructor. -/
inductive Phase where
  /-- There is no object. -/
  | absent
  /-- `segment_` is open. -/
  | openedSegment (segment : ℕ)
  /-- `mutex_` is open. -/
  | openedMutex (segment mutex : ℕ)
  /-- `find<PacketStorage>` returned nothing. -/
  | missedStorage (segment mutex : ℕ)
  /-- `packet_storage_` is set. -/
  | hasStorage (segment mutex : ℕ) (packetStorage : Pointer)
  /-- `find<int>` returned nothing. -/
  | missedCount (segment mutex : ℕ) (packetStorage : Pointer)
  /-- All members are set. -/
  | hasCount (transport : SharedMemoryTransport)
  /-- The constructor is done. -/
  | live (transport : SharedMemoryTransport)
  /-- Inside `Send` or `Receive`, with the lock and with what is to be done before it is released. -/
  | locked (transport : SharedMemoryTransport) (left : Option Operation)
  /-- The destructor has taken the object off the count. -/
  | decremented (transport : SharedMemoryTransport)
  /-- The count was zero: `Destroy` is to remove the segment. -/
  | removingSegment (transport : SharedMemoryTransport)
  /-- `Destroy` is to remove the mutex. -/
  | removingMutex (transport : SharedMemoryTransport)
  /-- The constructor threw. -/
  | failed
  deriving DecidableEq, Repr

/-- A step of a constructor. -/
inductive ConstructorStep where
  /-- `segment_{open_or_create, ...}`. -/
  | openSegment
  /-- `mutex_{open_or_create, ...}`. -/
  | openMutex
  /-- `segment_.find<PacketStorage>`. -/
  | findPacketStorage
  /-- `segment_.construct<PacketStorage>`. -/
  | constructPacketStorage
  /-- `segment_.find<int>`. -/
  | findReferenceCount
  /-- `segment_.construct<int>`. -/
  | constructReferenceCount
  /-- `++(*reference_count_)`. -/
  | increment
  deriving DecidableEq, Repr

/-- A step of an object. -/
inductive ProcessStep where
  /-- A step of its constructor. -/
  | constructor (step : ConstructorStep)
  /-- `ScopedLock lock(mutex_)` in a call. -/
  | lock (operation : Operation)
  /-- The work of `Send`. -/
  | send
  /-- The work of `Receive`. -/
  | receive
  /-- The end of the `ScopedLock`. -/
  | unlock
  /-- `--(*reference_count_)`. -/
  | decrement
  /-- `*reference_count_ == 0`. -/
  | testZero
  /-- `shared_memory_object::remove`. -/
  | removeSegment
  /-- `named_mutex::remove`. -/
  | removeMutex
  deriving DecidableEq

/-- The work of a call. -/
def Operation.work : Operation → ProcessStep
  | .send _ => .send
  | .receive => .receive

namespace SharedMemory

variable {ι : Type*} (memory : SharedMemory ι)

/-- A step of a constructor, from a place in it to the next. -/
def construction : ConstructorStep → Phase → Option (Phase × SharedMemory ι)
  | .openSegment, .absent =>
    some (.openedSegment memory.openSegment.1, memory.openSegment.2)
  | .openMutex, .openedSegment segment =>
    some (.openedMutex segment memory.openMutex.1, memory.openMutex.2)
  | .findPacketStorage, .openedMutex segment mutex =>
    match memory.findPacketStorage segment with
    | some storage => some (.hasStorage segment mutex storage, memory)
    | none => some (.missedStorage segment mutex, memory)
  | .constructPacketStorage, .missedStorage segment mutex =>
    match memory.constructPacketStorage segment with
    | some (storage, memory) => some (.hasStorage segment mutex storage, memory)
    -- the name is taken by now, and `construct` throws
    | none => some (.failed, memory)
  | .findReferenceCount, .hasStorage segment mutex storage =>
    match memory.findReferenceCount segment with
    | some count => some (.hasCount ⟨segment, mutex, storage, count⟩, memory)
    | none => some (.missedCount segment mutex storage, memory)
  | .constructReferenceCount, .missedCount segment mutex storage =>
    match memory.constructReferenceCount segment with
    | some (count, memory) => some (.hasCount ⟨segment, mutex, storage, count⟩, memory)
    | none => some (.failed, memory)
  | .increment, .hasCount transport =>
    (memory.addReferenceCount transport.referenceCount 1).map fun memory => (.live transport, memory)
  | _, _ => none

/-- The outcomes of the steps of a constructor. -/
inductive Constructs (memory : SharedMemory ι) :
    ConstructorStep → Phase → Phase → SharedMemory ι → Prop where
  /-- The segment is opened. -/
  | openSegment : Constructs memory .openSegment .absent
      (.openedSegment memory.openSegment.1) memory.openSegment.2
  /-- The mutex is opened. -/
  | openMutex (segment : ℕ) : Constructs memory .openMutex (.openedSegment segment)
      (.openedMutex segment memory.openMutex.1) memory.openMutex.2
  /-- The storage is found. -/
  | foundStorage {segment : ℕ} (mutex : ℕ) {storage : Pointer}
      (hfind : memory.findPacketStorage segment = some storage) :
      Constructs memory .findPacketStorage (.openedMutex segment mutex)
        (.hasStorage segment mutex storage) memory
  /-- The storage is not found. -/
  | missedStorage {segment : ℕ} (mutex : ℕ) (hfind : memory.findPacketStorage segment = none) :
      Constructs memory .findPacketStorage (.openedMutex segment mutex)
        (.missedStorage segment mutex) memory
  /-- The storage is constructed. -/
  | constructedStorage {segment : ℕ} (mutex : ℕ) {storage : Pointer} {memory' : SharedMemory ι}
      (hconstruct : memory.constructPacketStorage segment = some (storage, memory')) :
      Constructs memory .constructPacketStorage (.missedStorage segment mutex)
        (.hasStorage segment mutex storage) memory'
  /-- The name of the storage is taken. -/
  | takenStorage {segment : ℕ} (mutex : ℕ)
      (hconstruct : memory.constructPacketStorage segment = none) :
      Constructs memory .constructPacketStorage (.missedStorage segment mutex) .failed memory
  /-- The count is found. -/
  | foundCount {segment : ℕ} (mutex : ℕ) (storage : Pointer) {count : Pointer}
      (hfind : memory.findReferenceCount segment = some count) :
      Constructs memory .findReferenceCount (.hasStorage segment mutex storage)
        (.hasCount ⟨segment, mutex, storage, count⟩) memory
  /-- The count is not found. -/
  | missedCount {segment : ℕ} (mutex : ℕ) (storage : Pointer)
      (hfind : memory.findReferenceCount segment = none) :
      Constructs memory .findReferenceCount (.hasStorage segment mutex storage)
        (.missedCount segment mutex storage) memory
  /-- The count is constructed. -/
  | constructedCount {segment : ℕ} (mutex : ℕ) (storage : Pointer) {count : Pointer}
      {memory' : SharedMemory ι}
      (hconstruct : memory.constructReferenceCount segment = some (count, memory')) :
      Constructs memory .constructReferenceCount (.missedCount segment mutex storage)
        (.hasCount ⟨segment, mutex, storage, count⟩) memory'
  /-- The name of the count is taken. -/
  | takenCount {segment : ℕ} (mutex : ℕ) (storage : Pointer)
      (hconstruct : memory.constructReferenceCount segment = none) :
      Constructs memory .constructReferenceCount (.missedCount segment mutex storage) .failed memory
  /-- The object is counted. -/
  | increment (transport : SharedMemoryTransport) {memory' : SharedMemory ι}
      (hincrement : memory.addReferenceCount transport.referenceCount 1 = some memory') :
      Constructs memory .increment (.hasCount transport) (.live transport) memory'

/-- Every step of a constructor has one of these outcomes. -/
theorem constructs_of_construction {memory memory' : SharedMemory ι} {action : ConstructorStep}
    {phase phase' : Phase} (h : memory.construction action phase = some (phase', memory')) :
    Constructs memory action phase phase' memory' := by
  unfold construction at h
  split at h
  · obtain ⟨rfl, rfl⟩ := Prod.mk.inj (Option.some.inj h)
    exact .openSegment
  · obtain ⟨rfl, rfl⟩ := Prod.mk.inj (Option.some.inj h)
    exact .openMutex _
  · split at h <;> obtain ⟨rfl, rfl⟩ := Prod.mk.inj (Option.some.inj h)
    · exact .foundStorage _ (by assumption)
    · exact .missedStorage _ (by assumption)
  · split at h <;> obtain ⟨rfl, rfl⟩ := Prod.mk.inj (Option.some.inj h)
    · exact .constructedStorage _ (by assumption)
    · exact .takenStorage _ (by assumption)
  · split at h <;> obtain ⟨rfl, rfl⟩ := Prod.mk.inj (Option.some.inj h)
    · exact .foundCount _ _ (by assumption)
    · exact .missedCount _ _ (by assumption)
  · split at h <;> obtain ⟨rfl, rfl⟩ := Prod.mk.inj (Option.some.inj h)
    · exact .constructedCount _ _ (by assumption)
    · exact .takenCount _ _ (by assumption)
  · obtain ⟨middle, hincrement, hresult⟩ := Option.map_eq_some_iff.mp h
    obtain ⟨rfl, rfl⟩ := Prod.mk.inj hresult
    exact .increment _ hincrement
  · cases h

/-- Who holds a mutex from now on. -/
def setOwner (mutex : ℕ) (owner : Option ι) : SharedMemory ι :=
  { memory with mutexes := memory.mutexes.set mutex owner }

/-- Work on the storage between a lock and an unlock, in a memory where the mutex was free. -/
theorem setOwner_restore {memory : SharedMemory ι} {mutex : ℕ} {owner : Option ι}
    {pointer : Pointer} {value : List InternalPacket}
    (hfree : memory.mutexes.object mutex = none) :
    (((memory.setOwner mutex owner).storePacketStorage pointer value).setOwner mutex none)
      = memory.storePacketStorage pointer value := by
  have hmutexes : (memory.mutexes.set mutex owner).set mutex none = memory.mutexes := by
    rw [Name.set_set, ← hfree, Name.set_eq_self]
  simp only [setOwner, storePacketStorage, setSegment, hmutexes]

/-- A step of object `i`. -/
def perform (i : ι) : ProcessStep → Phase → Option (Phase × SharedMemory ι)
  | .constructor step, phase => memory.construction step phase
  | .lock operation, .live transport =>
    match memory.mutexes.object transport.mutex with
    -- the lock blocks while somebody holds it
    | some _ => none
    | none => some (.locked transport (some operation), memory.setOwner transport.mutex (some i))
  | .send, .locked transport (some (.send packet)) =>
    (memory.send transport packet).map fun memory => (.locked transport none, memory)
  | .receive, .locked transport (some .receive) =>
    (memory.receive transport).map fun result => (.locked transport none, result.2)
  | .unlock, .locked transport none => some (.live transport, memory.setOwner transport.mutex none)
  -- the destructor takes no lock
  | .decrement, .live transport =>
    (memory.addReferenceCount transport.referenceCount (-1)).map fun memory =>
      (.decremented transport, memory)
  | .testZero, .decremented transport =>
    (memory.loadReferenceCount transport.referenceCount).map fun count =>
      (if count = 0 then .removingSegment transport else .absent, memory)
  | .removeSegment, .removingSegment transport =>
    some (.removingMutex transport, memory.removeSegment)
  | .removeMutex, .removingMutex _ => some (.absent, memory.removeMutex)
  | _, _ => none

/-- The outcomes of the steps of object `i`. -/
inductive Performs (i : ι) (memory : SharedMemory ι) :
    ProcessStep → Phase → Phase → SharedMemory ι → Prop where
  /-- A step of the constructor. -/
  | constructor {action : ConstructorStep} {phase phase' : Phase} {memory' : SharedMemory ι}
      (hconstructs : Constructs memory action phase phase' memory') :
      Performs i memory (.constructor action) phase phase' memory'
  /-- A free lock is taken. -/
  | lock (transport : SharedMemoryTransport) (operation : Operation)
      (hfree : memory.mutexes.object transport.mutex = none) :
      Performs i memory (.lock operation) (.live transport) (.locked transport (some operation))
        (memory.setOwner transport.mutex (some i))
  /-- The work of `Send` is done. -/
  | send (transport : SharedMemoryTransport) {packet : Packet} {memory' : SharedMemory ι}
      (hsend : memory.send transport packet = some memory') :
      Performs i memory .send (.locked transport (some (.send packet))) (.locked transport none)
        memory'
  /-- The work of `Receive` is done. -/
  | receive (transport : SharedMemoryTransport) {packets : List Packet} {memory' : SharedMemory ι}
      (hreceive : memory.receive transport = some (packets, memory')) :
      Performs i memory .receive (.locked transport (some .receive)) (.locked transport none) memory'
  /-- The lock is released. -/
  | unlock (transport : SharedMemoryTransport) : Performs i memory .unlock (.locked transport none)
      (.live transport) (memory.setOwner transport.mutex none)
  /-- The object is taken off the count. -/
  | decrement (transport : SharedMemoryTransport) {memory' : SharedMemory ι}
      (hdecrement : memory.addReferenceCount transport.referenceCount (-1) = some memory') :
      Performs i memory .decrement (.live transport) (.decremented transport) memory'
  /-- The count is zero. -/
  | testZero (transport : SharedMemoryTransport)
      (hcount : memory.loadReferenceCount transport.referenceCount = some 0) :
      Performs i memory .testZero (.decremented transport) (.removingSegment transport) memory
  /-- The count is not zero. -/
  | testNonzero (transport : SharedMemoryTransport) {count : ℤ} (hne : count ≠ 0)
      (hcount : memory.loadReferenceCount transport.referenceCount = some count) :
      Performs i memory .testZero (.decremented transport) .absent memory
  /-- The name of the segment is removed. -/
  | removeSegment (transport : SharedMemoryTransport) : Performs i memory .removeSegment
      (.removingSegment transport) (.removingMutex transport) memory.removeSegment
  /-- The name of the mutex is removed. -/
  | removeMutex (transport : SharedMemoryTransport) : Performs i memory .removeMutex
      (.removingMutex transport) .absent memory.removeMutex

/-- Every step of an object has one of these outcomes. -/
theorem performs_of_perform {memory memory' : SharedMemory ι} {i : ι} {action : ProcessStep}
    {phase phase' : Phase} (h : memory.perform i action phase = some (phase', memory')) :
    Performs i memory action phase phase' memory' := by
  unfold perform at h
  split at h
  · exact .constructor (constructs_of_construction h)
  · split at h
    · cases h
    · obtain ⟨rfl, rfl⟩ := Prod.mk.inj (Option.some.inj h)
      exact .lock _ _ (by assumption)
  · obtain ⟨middle, hsend, hresult⟩ := Option.map_eq_some_iff.mp h
    obtain ⟨rfl, rfl⟩ := Prod.mk.inj hresult
    exact .send _ hsend
  · obtain ⟨⟨packets, middle⟩, hreceive, hresult⟩ := Option.map_eq_some_iff.mp h
    obtain ⟨rfl, rfl⟩ := Prod.mk.inj hresult
    exact .receive _ hreceive
  · obtain ⟨rfl, rfl⟩ := Prod.mk.inj (Option.some.inj h)
    exact .unlock _
  · obtain ⟨middle, hdecrement, hresult⟩ := Option.map_eq_some_iff.mp h
    obtain ⟨rfl, rfl⟩ := Prod.mk.inj hresult
    exact .decrement _ hdecrement
  · obtain ⟨count, hcount, hresult⟩ := Option.map_eq_some_iff.mp h
    obtain ⟨rfl, rfl⟩ := Prod.mk.inj hresult
    split_ifs with hzero
    · subst hzero
      exact .testZero _ hcount
    · exact .testNonzero _ hzero hcount
  · obtain ⟨rfl, rfl⟩ := Prod.mk.inj (Option.some.inj h)
    exact .removeSegment _
  · obtain ⟨rfl, rfl⟩ := Prod.mk.inj (Option.some.inj h)
    exact .removeMutex _
  · cases h

end SharedMemory

/-- The memory and where every object is. -/
structure ShmProcesses (ι : Type*) where
  /-- The memory. -/
  memory : SharedMemory ι
  /-- The objects. -/
  phase : ι → Phase

namespace ShmProcesses

variable {ι : Type*} [DecidableEq ι]

/-- One step of one object. -/
def step (world : ShmProcesses ι) (action : ι × ProcessStep) : Option (ShmProcesses ι) :=
  (world.memory.perform action.1 action.2 (world.phase action.1)).map fun (phase, memory) =>
    ⟨memory, Function.update world.phase action.1 phase⟩

theorem step_eq_some {world world' : ShmProcesses ι} {i : ι} {action : ProcessStep} :
    world.step (i, action) = some world' ↔ ∃ phase memory,
      world.memory.perform i action (world.phase i) = some (phase, memory) ∧
        world' = ⟨memory, Function.update world.phase i phase⟩ := by
  rw [step, Option.map_eq_some_iff]
  constructor
  · rintro ⟨⟨phase, memory⟩, hperform, rfl⟩
    exact ⟨phase, memory, hperform, rfl⟩
  · rintro ⟨phase, memory, hperform, rfl⟩
    exact ⟨⟨phase, memory⟩, hperform, rfl⟩

/-- What an object has after a step it has from the step, or it did not step and had it before. -/
theorem feature_cases {α : Type*} {feature : Phase → Option α} {value : α} {phases : ι → Phase}
    {i j : ι} {phase : Phase} (h : feature (Function.update phases i phase j) = some value) :
    (j = i ∧ feature phase = some value) ∨ (j ≠ i ∧ feature (phases j) = some value) := by
  by_cases hj : j = i
  · subst hj
    rw [Function.update_self] at h
    exact Or.inl ⟨rfl, h⟩
  · rw [Function.update_of_ne hj] at h
    exact Or.inr ⟨hj, h⟩

/-! ## Atomic operations are runs -/

/-- Steps of object `i` alone. -/
def solo (i : ι) (state : Phase × SharedMemory ι) (action : ProcessStep) :
    Option (Phase × SharedMemory ι) := state.2.perform i action state.1

/-- What an object does alone, it does in a world. -/
theorem run_of_solo {world : ShmProcesses ι} {i : ι} {actions : List ProcessStep} {phase : Phase}
    {memory : SharedMemory ι}
    (h : Transition.run (solo i) (world.phase i, world.memory) actions = some (phase, memory)) :
    Transition.run step world (actions.map fun action => (i, action))
      = some ⟨memory, Function.update world.phase i phase⟩ := by
  induction actions generalizing world with
  | nil =>
    obtain ⟨hphase, hmemory⟩ := Prod.mk.inj (Option.some.inj h)
    rw [List.map_nil, Transition.run_nil, ← hphase, ← hmemory, Function.update_eq_self]
  | cons action actions ih =>
    obtain ⟨⟨next, middle⟩, hperform, hrest⟩ := Transition.run_cons_eq_some.mp h
    have hstep : world.step (i, action) = some ⟨middle, Function.update world.phase i next⟩ :=
      step_eq_some.mpr ⟨next, middle, hperform, rfl⟩
    have hlater := @ih ⟨middle, Function.update world.phase i next⟩
      (by simpa only [Function.update_self] using hrest)
    rw [List.map_cons, Transition.run_cons, hstep, Option.bind_some, hlater, Function.update_idem]

omit [DecidableEq ι] in
/-- Two stretches of a solo run. -/
theorem solo_append {i : ι} {start middle last : Phase × SharedMemory ι}
    {front back : List ProcessStep} (hfront : Transition.run (solo i) start front = some middle)
    (hback : Transition.run (solo i) middle back = some last) :
    Transition.run (solo i) start (front ++ back) = some last := by
  rw [Transition.run_append, hfront, Option.bind_some, hback]

omit [DecidableEq ι] in
/-- `FindOrConstructPacketStorage` is a `find`, and a `construct` if it misses. -/
theorem solo_packetStorage {i : ι} {memory memory' : SharedMemory ι} {segment mutex : ℕ}
    {storage : Pointer}
    (h : memory.findOrConstructPacketStorage segment = some (storage, memory')) :
    ∃ actions, Transition.run (solo i) (.openedMutex segment mutex, memory) actions
      = some (.hasStorage segment mutex storage, memory') := by
  rw [SharedMemory.findOrConstructPacketStorage] at h
  cases hfind : memory.findPacketStorage segment with
  | some found =>
    rw [hfind] at h
    obtain ⟨rfl, rfl⟩ := Prod.mk.inj (Option.some.inj h)
    exact ⟨[.constructor .findPacketStorage], by
      simp [Transition.run, solo, SharedMemory.perform, SharedMemory.construction, hfind]⟩
  | none =>
    rw [hfind] at h
    exact ⟨[.constructor .findPacketStorage, .constructor .constructPacketStorage], by
      simp [Transition.run, solo, SharedMemory.perform, SharedMemory.construction, hfind, h]⟩

omit [DecidableEq ι] in
/-- `FindOrConstructReferenceCount` is a `find`, and a `construct` if it misses. -/
theorem solo_referenceCount {i : ι} {memory memory' : SharedMemory ι} {segment mutex : ℕ}
    {storage count : Pointer}
    (h : memory.findOrConstructReferenceCount segment = some (count, memory')) :
    ∃ actions, Transition.run (solo i) (.hasStorage segment mutex storage, memory) actions
      = some (.hasCount ⟨segment, mutex, storage, count⟩, memory') := by
  rw [SharedMemory.findOrConstructReferenceCount] at h
  cases hfind : memory.findReferenceCount segment with
  | some found =>
    rw [hfind] at h
    obtain ⟨rfl, rfl⟩ := Prod.mk.inj (Option.some.inj h)
    exact ⟨[.constructor .findReferenceCount], by
      simp [Transition.run, solo, SharedMemory.perform, SharedMemory.construction, hfind]⟩
  | none =>
    rw [hfind] at h
    exact ⟨[.constructor .findReferenceCount, .constructor .constructReferenceCount], by
      simp [Transition.run, solo, SharedMemory.perform, SharedMemory.construction, hfind, h]⟩

omit [DecidableEq ι] in
/-- The constructor, alone from its first step to its last. -/
theorem solo_construct {i : ι} {memory memory' : SharedMemory ι}
    {transport : SharedMemoryTransport} (h : memory.construct = some (transport, memory')) :
    ∃ actions, Transition.run (solo i) (.absent, memory) actions
      = some (.live transport, memory') := by
  simp only [SharedMemory.construct, Option.bind_eq_bind, Option.bind_eq_some_iff, Prod.exists] at h
  obtain ⟨storage, memory₁, hstorage, count, memory₂, hcount, memory₃, hincrement, hresult⟩ := h
  obtain ⟨rfl, rfl⟩ := Prod.mk.inj (Option.some.inj hresult)
  obtain ⟨first, hfirst⟩ := solo_packetStorage (i := i) hstorage
  obtain ⟨second, hsecond⟩ := solo_referenceCount (i := i) hcount
  refine ⟨[.constructor .openSegment, .constructor .openMutex] ++ (first ++ (second ++
    [.constructor .increment])), solo_append rfl (solo_append hfirst (solo_append hsecond ?_))⟩
  simp [Transition.run, solo, SharedMemory.perform, SharedMemory.construction, hincrement]

omit [DecidableEq ι] in
/-- The destructor, alone from its first step to its last. -/
theorem solo_destruct {i : ι} {memory memory' : SharedMemory ι}
    {transport : SharedMemoryTransport} (h : memory.destruct transport = some memory') :
    ∃ actions, Transition.run (solo i) (.live transport, memory) actions
      = some (.absent, memory') := by
  rw [SharedMemory.destruct, Option.bind_eq_some_iff] at h
  obtain ⟨middle, hdecrement, h⟩ := h
  obtain ⟨count, hcount, rfl⟩ := Option.map_eq_some_iff.mp h
  by_cases hzero : count = 0
  · exact ⟨[.decrement, .testZero, .removeSegment, .removeMutex], by
      simp [Transition.run, solo, SharedMemory.perform, hdecrement, hcount, hzero,
        SharedMemory.destroy]⟩
  · exact ⟨[.decrement, .testZero], by
      simp [Transition.run, solo, SharedMemory.perform, hdecrement, hcount, hzero]⟩

omit [DecidableEq ι] in
/-- `Send`, from taking a free lock to releasing it. -/
theorem solo_send {i : ι} {memory memory' : SharedMemory ι} {transport : SharedMemoryTransport}
    {packet : Packet} (hfree : memory.mutexes.object transport.mutex = none)
    (h : memory.send transport packet = some memory') :
    Transition.run (solo i) (.live transport, memory) [.lock (.send packet), .send, .unlock]
      = some (.live transport, memory') := by
  obtain ⟨storage, hload, rfl⟩ := Option.map_eq_some_iff.mp h
  have hlocked : (memory.setOwner transport.mutex (some i)).loadPacketStorage
      transport.packetStorage = some storage := hload
  simp only [Transition.run, solo, SharedMemory.perform, SharedMemory.send, hfree, hlocked,
    Option.bind_some, Option.map_some, Option.some.injEq, Prod.mk.injEq, true_and]
  exact SharedMemory.setOwner_restore hfree

omit [DecidableEq ι] in
/-- `Receive`, from taking a free lock to releasing it. -/
theorem solo_receive {i : ι} {memory memory' : SharedMemory ι} {transport : SharedMemoryTransport}
    {packets : List Packet} (hfree : memory.mutexes.object transport.mutex = none)
    (h : memory.receive transport = some (packets, memory')) :
    Transition.run (solo i) (.live transport, memory) [.lock .receive, .receive, .unlock]
      = some (.live transport, memory') := by
  obtain ⟨storage, hload, hresult⟩ := Option.map_eq_some_iff.mp h
  obtain ⟨-, rfl⟩ := Prod.mk.inj hresult
  have hlocked : (memory.setOwner transport.mutex (some i)).loadPacketStorage
      transport.packetStorage = some storage := hload
  simp only [Transition.run, solo, SharedMemory.perform, SharedMemory.receive, hfree, hlocked,
    Option.bind_some, Option.map_some, Option.some.injEq, Prod.mk.injEq, true_and]
  exact SharedMemory.setOwner_restore hfree

/-- The processes of a world in which no object is inside an operation. -/
def ofWorld (world : ShmWorld ι) : ShmProcesses ι :=
  ⟨world.memory, fun i => (world.transports i).elim .absent .live⟩

/-- A solo run of an object that ends outside of every operation, in both views. -/
theorem ofWorld_run {world : ShmWorld ι} {i : ι} {actions : List ProcessStep}
    {memory : SharedMemory ι} (transport : Option SharedMemoryTransport)
    (h : Transition.run (solo i) ((world.transports i).elim .absent .live, world.memory) actions
      = some (transport.elim .absent .live, memory)) :
    Transition.run step (ofWorld world) (actions.map fun action => (i, action))
      = some (ofWorld ⟨memory, Function.update world.transports i transport⟩) := by
  have hrun : Transition.run step (ofWorld world) (actions.map fun action => (i, action))
      = some ⟨memory, Function.update (ofWorld world).phase i (transport.elim .absent .live)⟩ :=
    run_of_solo h
  rw [hrun, Option.some.injEq]
  simp only [ofWorld, ShmProcesses.mk.injEq, true_and]
  funext j
  by_cases hj : j = i
  · subst hj
    rw [Function.update_self, Function.update_self]
  · rw [Function.update_of_ne hj, Function.update_of_ne hj]

/-- **Atomic operations are runs.** Whatever an operation does as one step, its steps do when no other
object comes in between and nobody holds the lock. -/
theorem atomic_runs {world world' : ShmWorld ι} {action : ShmAction ι}
    (hdestroy : action ≠ .destroy)
    (hfree : ∀ i transport, world.transports i = some transport →
      world.memory.mutexes.object transport.mutex = none)
    (hstep : world.step action = some world') :
    ∃ actions, Transition.run step (ofWorld world) actions = some (ofWorld world') := by
  cases action with
  | construct i =>
    cases hi : world.transports i with
    | some transport => simp [ShmWorld.step, hi] at hstep
    | none =>
      rw [ShmWorld.step_construct world hi] at hstep
      obtain ⟨⟨transport, memory⟩, hconstruct, rfl⟩ := Option.map_eq_some_iff.mp hstep
      obtain ⟨actions, hsolo⟩ := solo_construct (i := i) hconstruct
      exact ⟨_, ofWorld_run (some transport) (by rw [hi]; exact hsolo)⟩
  | destruct i =>
    obtain ⟨transport, hi, hmemory⟩ := Option.bind_eq_some_iff.mp hstep
    obtain ⟨memory, hdestruct, rfl⟩ := Option.map_eq_some_iff.mp hmemory
    obtain ⟨actions, hsolo⟩ := solo_destruct (i := i) hdestruct
    exact ⟨_, ofWorld_run none (by rw [hi]; exact hsolo)⟩
  | call call =>
    cases call with
    | send i packet =>
      obtain ⟨transport, hi, hmemory⟩ := Option.bind_eq_some_iff.mp hstep
      obtain ⟨memory, hsend, rfl⟩ := Option.map_eq_some_iff.mp hmemory
      have hsolo := solo_send (i := i) (hfree i transport hi) hsend
      refine ⟨_, (ofWorld_run (some transport) (by rw [hi]; exact hsolo)).trans ?_⟩
      rw [← hi, Function.update_eq_self]
    | receive i =>
      obtain ⟨transport, hi, hmemory⟩ := Option.bind_eq_some_iff.mp hstep
      obtain ⟨⟨packets, memory⟩, hreceive, rfl⟩ := Option.map_eq_some_iff.mp hmemory
      have hsolo := solo_receive (i := i) (hfree i transport hi) hreceive
      refine ⟨_, (ofWorld_run (some transport) (by rw [hi]; exact hsolo)).trans ?_⟩
      rw [← hi, Function.update_eq_self]
  | destroy => exact absurd rfl hdestroy

end ShmProcesses

end Contra
