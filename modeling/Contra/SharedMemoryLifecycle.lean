import Contra.Calls
import Contra.Foundation.Transition
import Contra.SharedMemoryTransport
import Mathlib.Data.Finset.Card

/-! # Attaching, detaching and delivery through shared memory

Runs of constructions, destructions, sends and receives of any number of `SharedMemoryTransport`
objects on one name, each operation one step.

`SharedMemory.Serves` says what a live object relies on, and what every operation does to a memory that
serves it. The invariant `ShmWorld.Lifecycle` says that the bound segment serves all live objects,
counts them, and stores what was sent on it and not received. `sharedMemoryTransport_lifecycle` is the
result for runs. -/

namespace Contra

open NamedObjects

/-! ## What the operations do to a segment in use -/

namespace SharedMemory

variable {ι : Type*}

/-- The pointers of a transport lead into its segment and see the given packets and the given count,
whatever the name is bound to. -/
structure Stores (memory : SharedMemory ι) (transport : SharedMemoryTransport)
    (storage : List InternalPacket) (count : ℤ) : Prop where
  /-- The storage is in the segment. -/
  storageSegment : transport.packetStorage.segment = transport.segment
  /-- The count is in the segment. -/
  countSegment : transport.referenceCount.segment = transport.segment
  /-- The pointer to the storage points to the object of that name. -/
  storage : (memory.segments.object transport.segment).packetStorage
    = some ⟨transport.packetStorage.address, storage⟩
  /-- The pointer to the count points to the object of that name. -/
  count : (memory.segments.object transport.segment).referenceCount
    = some ⟨transport.referenceCount.address, count⟩

/-- The name is bound to the segment and the mutex of a transport, whose pointers see the given
packets and the given count. -/
structure Serves (memory : SharedMemory ι) (transport : SharedMemoryTransport)
    (storage : List InternalPacket) (count : ℤ) : Prop
    extends stores : Stores memory transport storage count where
  /-- The segment is the one of the name. -/
  segment : memory.segments.bound = some transport.segment
  /-- The mutex is the one of the name. -/
  mutex : memory.mutexes.bound = some transport.mutex

theorem object_setSegment_of_ne (memory : SharedMemory ι) {segment other : ℕ} (h : other ≠ segment)
    (content : Segment) : (memory.setSegment segment content).segments.object other
      = memory.segments.object other := Name.object_set_of_ne h

/-- The first constructor makes a new segment with both objects in it and leaves the others. -/
theorem construct_of_unbound {memory : SharedMemory ι} (h : memory.segments.bound = none) :
    ∃ transport memory', memory.construct = some (transport, memory') ∧
      memory'.Serves transport [] 1 ∧ transport.segment = memory.segments.created ∧
      memory'.segments.created = memory.segments.created + 1 ∧
      ∀ segment, segment ≠ transport.segment →
        memory'.segments.object segment = memory.segments.object segment := by
  obtain ⟨opened, hopened⟩ : ∃ opened, opened = memory.openSegment.2.openMutex.2 := ⟨_, rfl⟩
  have hsegment : memory.openSegment.1 = memory.segments.created := by
    rw [openSegment, Name.openOrCreate_of_unbound h]
  have hsegments : opened.segments = ⟨Function.update memory.segments.object
      memory.segments.created .fresh, memory.segments.created + 1, some memory.segments.created⟩ := by
    rw [hopened, openMutex, openSegment, Name.openOrCreate_of_unbound h]
  have hmutex : opened.mutexes.bound = some memory.openSegment.2.openMutex.1 := by
    rw [hopened]
    exact Name.bound_openOrCreate
  have hfresh : opened.segments.object memory.segments.created = .fresh := by
    rw [hsegments]
    exact Function.update_self ..
  obtain ⟨transport, htransport⟩ : ∃ transport : SharedMemoryTransport,
      transport = ⟨memory.segments.created, memory.openSegment.2.openMutex.1,
        ⟨memory.segments.created, 0⟩, ⟨memory.segments.created, 1⟩⟩ := ⟨_, rfl⟩
  refine ⟨transport, opened.setSegment memory.segments.created ⟨some ⟨0, []⟩, some ⟨1, 1⟩, 2⟩,
    ?_, ?_, ?_, ?_, fun segment hne => ?_⟩
  · simp [construct, hsegment, ← hopened, htransport, findOrConstructPacketStorage,
      findPacketStorage, constructPacketStorage, findOrConstructReferenceCount, findReferenceCount,
      constructReferenceCount, addReferenceCount, loadReferenceCount, storeReferenceCount, hfresh,
      Segment.fresh, NamedObject.find, NamedObject.construct, NamedObject.load]
  · subst htransport
    exact ⟨⟨rfl, rfl, by simp, by simp⟩, by simp [hsegments], by simpa using hmutex⟩
  · rw [htransport]
  · simp [hsegments]
  · have hother : segment ≠ memory.segments.created := by simpa [htransport] using hne
    rw [object_setSegment_of_ne _ hother, hsegments]
    exact Function.update_of_ne hother ..

namespace Stores

variable {memory memory' : SharedMemory ι} {transport : SharedMemoryTransport}
  {storage : List InternalPacket} {count : ℤ}

/-- What a transport sees depends on its segment alone. -/
theorem of_object_eq (h : memory.Stores transport storage count)
    (hobject : memory'.segments.object transport.segment
      = memory.segments.object transport.segment) : memory'.Stores transport storage count :=
  ⟨h.storageSegment, h.countSegment, by rw [hobject, h.storage], by rw [hobject, h.count]⟩

theorem loadPacketStorage (h : memory.Stores transport storage count) :
    memory.loadPacketStorage transport.packetStorage = some storage := by
  rw [SharedMemory.loadPacketStorage, h.storageSegment, NamedObject.load_eq_some, h.storage]

theorem loadReferenceCount (h : memory.Stores transport storage count) :
    memory.loadReferenceCount transport.referenceCount = some count := by
  rw [SharedMemory.loadReferenceCount, h.countSegment, NamedObject.load_eq_some, h.count]

theorem findPacketStorage (h : memory.Stores transport storage count) :
    memory.findPacketStorage transport.segment = some transport.packetStorage := by
  rw [SharedMemory.findPacketStorage, NamedObject.find_eq_some.mpr ⟨storage, h.storage⟩,
    Option.map_some, ← h.storageSegment]

theorem findReferenceCount (h : memory.Stores transport storage count) :
    memory.findReferenceCount transport.segment = some transport.referenceCount := by
  rw [SharedMemory.findReferenceCount, NamedObject.find_eq_some.mpr ⟨count, h.count⟩,
    Option.map_some, ← h.countSegment]

/-- Storing packets keeps the count. -/
theorem storePacketStorage (h : memory.Stores transport storage count)
    (value : List InternalPacket) :
    (memory.storePacketStorage transport.packetStorage value).Stores transport value count := by
  refine ⟨h.storageSegment, h.countSegment, ?_, ?_⟩ <;>
    simp [SharedMemory.storePacketStorage, h.storageSegment, h.count]

/-- Storing a count keeps the packets. -/
theorem storeReferenceCount (h : memory.Stores transport storage count) (value : ℤ) :
    (memory.storeReferenceCount transport.referenceCount value).Stores transport storage value := by
  refine ⟨h.storageSegment, h.countSegment, ?_, ?_⟩ <;>
    simp [SharedMemory.storeReferenceCount, h.countSegment, h.storage]

/-- Storing packets leaves the other segments. -/
theorem object_storePacketStorage (h : memory.Stores transport storage count)
    (value : List InternalPacket) {segment : ℕ} (hne : segment ≠ transport.segment) :
    (memory.storePacketStorage transport.packetStorage value).segments.object segment
      = memory.segments.object segment := by
  rw [SharedMemory.storePacketStorage, h.storageSegment, object_setSegment_of_ne _ hne]

/-- Storing a count leaves the other segments. -/
theorem object_storeReferenceCount (h : memory.Stores transport storage count) (value : ℤ)
    {segment : ℕ} (hne : segment ≠ transport.segment) :
    (memory.storeReferenceCount transport.referenceCount value).segments.object segment
      = memory.segments.object segment := by
  rw [SharedMemory.storeReferenceCount, h.countSegment, object_setSegment_of_ne _ hne]

theorem addReferenceCount (h : memory.Stores transport storage count) (change : ℤ) :
    memory.addReferenceCount transport.referenceCount change
      = some (memory.storeReferenceCount transport.referenceCount (count + change)) := by
  rw [SharedMemory.addReferenceCount, h.loadReferenceCount, Option.map_some]

/-- A destructor takes itself off the count and removes both names with the last one. -/
theorem destruct (h : memory.Stores transport storage count) :
    memory.destruct transport = some (if count + -1 = 0
      then (memory.storeReferenceCount transport.referenceCount (count + -1)).destroy
      else memory.storeReferenceCount transport.referenceCount (count + -1)) := by
  rw [SharedMemory.destruct, h.addReferenceCount, Option.bind_some,
    (h.storeReferenceCount _).loadReferenceCount, Option.map_some]

theorem send (h : memory.Stores transport storage count) (packet : Packet) :
    memory.send transport packet = some (memory.storePacketStorage transport.packetStorage
      (storage ++ [.ofPacket packet])) := by
  rw [SharedMemory.send, h.loadPacketStorage, Option.map_some]

theorem receive (h : memory.Stores transport storage count) :
    memory.receive transport = some (storage.map InternalPacket.toPacket,
      memory.storePacketStorage transport.packetStorage []) := by
  rw [SharedMemory.receive, h.loadPacketStorage, Option.map_some]

end Stores

namespace Serves

variable {memory : SharedMemory ι} {transport : SharedMemoryTransport}
  {storage : List InternalPacket} {count : ℤ}

/-- Storing packets keeps everything else. -/
theorem storePacketStorage (h : memory.Serves transport storage count)
    (value : List InternalPacket) :
    (memory.storePacketStorage transport.packetStorage value).Serves transport value count :=
  ⟨h.stores.storePacketStorage value, h.segment, h.mutex⟩

/-- Storing a count keeps everything else. -/
theorem storeReferenceCount (h : memory.Serves transport storage count) (value : ℤ) :
    (memory.storeReferenceCount transport.referenceCount value).Serves transport storage value :=
  ⟨h.stores.storeReferenceCount value, h.segment, h.mutex⟩

/-- A constructor on a segment in use gets the same handles and counts itself. -/
theorem construct (h : memory.Serves transport storage count) :
    memory.construct
      = some (transport, memory.storeReferenceCount transport.referenceCount (count + 1)) := by
  have hsegment : memory.openSegment = (transport.segment, memory) := by
    rw [openSegment, Name.openOrCreate_of_bound h.segment]
  have hmutex : memory.openMutex = (transport.mutex, memory) := by
    rw [openMutex, Name.openOrCreate_of_bound h.mutex]
  simp only [SharedMemory.construct, hsegment, hmutex, findOrConstructPacketStorage,
    findOrConstructReferenceCount, h.stores.findPacketStorage, h.stores.findReferenceCount,
    Option.bind_eq_bind, Option.bind_some, h.stores.addReferenceCount]
  rfl

end Serves

end SharedMemory

/-! ## Runs of atomic operations -/

/-- The memory and the live objects of the name. -/
structure ShmWorld (ι : Type*) where
  /-- The memory. -/
  memory : SharedMemory ι
  /-- The objects that are alive. -/
  transports : ι → Option SharedMemoryTransport

/-- An operation, taken as one step. -/
inductive ShmAction (ι : Type*) where
  /-- The constructor. -/
  | construct (i : ι)
  /-- The destructor. -/
  | destruct (i : ι)
  /-- `Send` or `Receive`. -/
  | call (call : Call ι)
  /-- The static `Destroy`, from outside. -/
  | destroy

namespace ShmWorld

variable {ι : Type*} [DecidableEq ι]

/-- One operation; `none` where it is not possible, throws or uses a pointer to nothing. -/
def step (world : ShmWorld ι) : ShmAction ι → Option (ShmWorld ι)
  | .construct i =>
    match world.transports i with
    | some _ => none
    | none => world.memory.construct.map fun (transport, memory) =>
        ⟨memory, Function.update world.transports i (some transport)⟩
  | .destruct i => (world.transports i).bind fun transport =>
      (world.memory.destruct transport).map fun memory =>
        ⟨memory, Function.update world.transports i none⟩
  | .call (.send i packet) => (world.transports i).bind fun transport =>
      (world.memory.send transport packet).map fun memory => { world with memory := memory }
  | .call (.receive i) => (world.transports i).bind fun transport =>
      (world.memory.receive transport).map fun (_, memory) => { world with memory := memory }
  | .destroy => some { world with memory := world.memory.destroy }

theorem step_construct (world : ShmWorld ι) {i : ι} (hi : world.transports i = none) :
    world.step (.construct i) = world.memory.construct.map fun (transport, memory) =>
      ⟨memory, Function.update world.transports i (some transport)⟩ := by
  rw [step, hi]

/-- What a `Receive` of the object returns. -/
def received (world : ShmWorld ι) (i : ι) : Option (List Packet) :=
  (world.transports i).bind fun transport => (world.memory.receive transport).map Prod.fst

/-- The object is attached to the segment. -/
def attachedTo (world : ShmWorld ι) (i : ι) (segment : ℕ) : Bool :=
  (world.transports i).any fun transport => transport.segment = segment

/-- The packets an operation sends on a segment. -/
def observeSent (segment : ℕ) (world : ShmWorld ι) : ShmAction ι → List Packet
  | .call (.send i packet) => if world.attachedTo i segment then [packet] else []
  | _ => []

/-- The packets an operation receives from a segment. -/
def observeReceived (segment : ℕ) (world : ShmWorld ι) : ShmAction ι → List Packet
  | .call (.receive i) => if world.attachedTo i segment then (world.received i).getD [] else []
  | _ => []

/-- The memory of a world whose live objects are known, after the packets `sent` and `received` on
every segment. -/
structure Lifecycle (sent received : ℕ → List Packet) (live : Finset ι) (world : ShmWorld ι) :
    Prop where
  /-- Who is alive. -/
  alive : ∀ i, i ∈ live ↔ (world.transports i).isSome = true
  /-- Without a live object the name is unbound. -/
  detached : live = ∅ → world.memory.segments.bound = none
  /-- All live objects are attached to the segment of the name, which counts them and stores what was
  sent and not received. -/
  attached : live.Nonempty → ∃ transport storage,
    world.memory.Serves transport storage live.card ∧
      (∀ i ∈ live, world.transports i = some transport) ∧
      transport.segment < world.memory.segments.created ∧
      received transport.segment ++ storage.map InternalPacket.toPacket = sent transport.segment
  /-- Nothing was sent on a segment that does not exist yet. -/
  later : ∀ segment, world.memory.segments.created ≤ segment →
    sent segment = [] ∧ received segment = []

namespace Lifecycle

variable {sent received : ℕ → List Packet} {live : Finset ι} {world world' : ShmWorld ι} {i : ι}

omit [DecidableEq ι] in
/-- A live object and the segment it serves. -/
theorem serves (h : Lifecycle sent received live world) {transport : SharedMemoryTransport}
    (hi : world.transports i = some transport) : i ∈ live ∧ ∃ storage,
      world.memory.Serves transport storage live.card ∧
      (∀ j ∈ live, world.transports j = some transport) ∧
      transport.segment < world.memory.segments.created ∧
      received transport.segment ++ storage.map InternalPacket.toPacket
        = sent transport.segment := by
  have hlive : i ∈ live := (h.alive i).mpr (by rw [hi]; rfl)
  obtain ⟨other, storage, hserves, hall, hrest⟩ := h.attached ⟨i, hlive⟩
  obtain rfl : other = transport := Option.some.inj ((hall i hlive).symm.trans hi)
  exact ⟨hlive, storage, hserves, hall, hrest⟩

/-- The first object creates a segment on which nothing was sent. -/
theorem construct_first (h : Lifecycle sent received ∅ world) (i : ι) :
    ∃ transport memory, world.step (.construct i)
        = some ⟨memory, Function.update world.transports i (some transport)⟩ ∧
      memory.Serves transport [] 1 ∧
      Lifecycle sent received {i} ⟨memory, Function.update world.transports i (some transport)⟩ := by
  have hnone : ∀ j, world.transports j = none := by
    intro j
    have hj : ¬ (world.transports j).isSome = true := fun hsome => by
      simpa using (h.alive j).mpr hsome
    simpa using hj
  obtain ⟨transport, memory, hconstruct, hserves, hsegment, hcreated, -⟩ :=
    SharedMemory.construct_of_unbound (h.detached rfl)
  obtain ⟨hsent, hreceived⟩ := h.later transport.segment hsegment.ge
  refine ⟨transport, memory, ?_, hserves, fun j => ?_, fun hempty => ?_, fun _ => ?_,
    fun segment hle => ?_⟩
  · rw [step_construct world (hnone i), hconstruct]
    rfl
  · by_cases hj : j = i
    · subst hj
      simp
    · simp [hj, hnone]
  · exact absurd hempty (Finset.singleton_ne_empty i)
  · refine ⟨transport, [], by simpa using hserves, ?_, ?_, ?_⟩
    · intro j hj
      obtain rfl := Finset.mem_singleton.mp hj
      exact Function.update_self ..
    · rw [hsegment, hcreated]
      exact Nat.lt_succ_self _
    · rw [hsent, hreceived]
      rfl
  · exact h.later segment (le_trans (by rw [hcreated]; exact Nat.le_succ _) hle)

/-- A further object attaches to the segment. -/
theorem construct_further (h : Lifecycle sent received live world) (hlive : live.Nonempty)
    (hi : world.transports i = none) : ∃ world', world.step (.construct i) = some world' ∧
      Lifecycle sent received (insert i live) world' := by
  obtain ⟨transport, storage, hserves, hall, hcreated, hhistory⟩ := h.attached hlive
  have hnew : i ∉ live := fun hmem => by simpa [hi] using (h.alive i).mp hmem
  refine ⟨⟨world.memory.storeReferenceCount transport.referenceCount (live.card + 1),
    Function.update world.transports i (some transport)⟩, ?_, fun j => ?_,
    fun hempty => ?_, fun _ => ⟨transport, storage, ?_, ?_, hcreated, hhistory⟩, h.later⟩
  · rw [step_construct world hi, hserves.construct]
    rfl
  · by_cases hj : j = i
    · subst hj
      simp
    · simp [hj, h.alive j]
  · exact absurd hempty (Finset.insert_ne_empty i live)
  · rw [Finset.card_insert_of_notMem hnew]
    exact hserves.storeReferenceCount _
  · intro j hj
    rcases Finset.mem_insert.mp hj with rfl | hold
    · exact Function.update_self ..
    · have hne : j ≠ i := fun heq => hnew (heq ▸ hold)
      exact (Function.update_of_ne hne _ _).trans (hall j hold)

/-- An object that goes leaves the segment to the others, or unbinds the name. -/
theorem destruct (h : Lifecycle sent received live world) {transport : SharedMemoryTransport}
    (hi : world.transports i = some transport) :
    ∃ world', world.step (.destruct i) = some world' ∧
      Lifecycle sent received (live.erase i) world' := by
  obtain ⟨hlive, storage, hserves, hall, hcreated, hhistory⟩ := h.serves hi
  have hcard : (live.erase i).card + 1 = live.card := Finset.card_erase_add_one hlive
  have halive : ∀ j, j ∈ live.erase i ↔ (Function.update world.transports i none j).isSome = true := by
    intro j
    by_cases hj : j = i
    · subst hj
      simp
    · simp [hj, h.alive j]
  by_cases hlast : live.erase i = ∅
  · have hzero : (live.card : ℤ) + -1 = 0 := by
      rw [hlast, Finset.card_empty] at hcard
      omega
    refine ⟨⟨(world.memory.storeReferenceCount transport.referenceCount (live.card + -1)).destroy,
      Function.update world.transports i none⟩, ?_, halive, fun _ => rfl, fun hsome => ?_, h.later⟩
    · rw [step, hi, Option.bind_some, hserves.stores.destruct, if_pos hzero]
      rfl
    · exact absurd hlast hsome.ne_empty
  · have hzero : ¬ (live.card : ℤ) + -1 = 0 := by
      have := Finset.card_pos.mpr (Finset.nonempty_iff_ne_empty.mpr hlast)
      omega
    refine ⟨⟨world.memory.storeReferenceCount transport.referenceCount (live.card + -1),
      Function.update world.transports i none⟩, ?_, halive, fun hempty => ?_,
      fun _ => ⟨transport, storage, ?_, fun j hj => ?_, hcreated, hhistory⟩, h.later⟩
    · rw [step, hi, Option.bind_some, hserves.stores.destruct, if_neg hzero]
      rfl
    · exact absurd hempty hlast
    · have hcount : ((live.erase i).card : ℤ) = live.card + -1 := by omega
      rw [hcount]
      exact hserves.storeReferenceCount _
    · have hne : j ≠ i := Finset.ne_of_mem_erase hj
      exact (Function.update_of_ne hne _ _).trans (hall j (Finset.mem_of_mem_erase hj))

omit [DecidableEq ι] in
/-- New packets in the storage, when the history accounts for them. -/
theorem store (h : Lifecycle sent received live world) {transport : SharedMemoryTransport}
    (hi : world.transports i = some transport) {sent' received' : ℕ → List Packet}
    (value : List InternalPacket)
    (hother : ∀ segment, segment ≠ transport.segment →
      sent' segment = sent segment ∧ received' segment = received segment)
    (hhistory : received' transport.segment ++ value.map InternalPacket.toPacket
      = sent' transport.segment) :
    Lifecycle sent' received' live
      ⟨world.memory.storePacketStorage transport.packetStorage value, world.transports⟩ := by
  obtain ⟨hlive, storage, hserves, hall, hcreated, -⟩ := h.serves hi
  refine ⟨h.alive, fun hempty => ?_, fun _ => ⟨transport, value, hserves.storePacketStorage value,
    hall, hcreated, hhistory⟩, fun segment hle => ?_⟩
  · exact absurd hempty (Finset.ne_empty_of_mem hlive)
  · have hle' : world.memory.segments.created ≤ segment := hle
    obtain ⟨hsent, hreceived⟩ := hother segment (Nat.ne_of_gt (lt_of_lt_of_le hcreated hle'))
    rw [hsent, hreceived]
    exact h.later segment hle'

omit [DecidableEq ι] in
/-- A live object is attached to its segment only. -/
theorem attachedTo_eq {transport : SharedMemoryTransport}
    (hi : world.transports i = some transport) (segment : ℕ) :
    world.attachedTo i segment = decide (transport.segment = segment) := by
  rw [attachedTo, hi, Option.any_some]

/-- `Send` of a live object. -/
theorem send (h : Lifecycle sent received live world) {transport : SharedMemoryTransport}
    (hi : world.transports i = some transport) (packet : Packet) :
    ∃ world', world.step (.call (.send i packet)) = some world' ∧
      Lifecycle (fun g => sent g ++ world.observeSent g (.call (.send i packet))) received live
        world' := by
  obtain ⟨-, storage, hserves, -, -, hhistory⟩ := h.serves hi
  refine ⟨_, by rw [step, hi, Option.bind_some, hserves.stores.send]; rfl, h.store hi _ ?_ ?_⟩
  · intro segment hne
    have hne' : transport.segment ≠ segment := hne.symm
    simp [observeSent, attachedTo_eq hi, hne']
  · simp [observeSent, attachedTo_eq hi, ← hhistory]

/-- `Receive` of a live object. -/
theorem receive (h : Lifecycle sent received live world) {transport : SharedMemoryTransport}
    (hi : world.transports i = some transport) :
    ∃ world', world.step (.call (.receive i)) = some world' ∧
      Lifecycle sent (fun g => received g ++ world.observeReceived g (.call (.receive i))) live
        world' := by
  obtain ⟨-, storage, hserves, -, -, hhistory⟩ := h.serves hi
  refine ⟨_, by rw [step, hi, Option.bind_some, hserves.stores.receive]; rfl, h.store hi _ ?_ ?_⟩
  · intro segment hne
    have hne' : transport.segment ≠ segment := hne.symm
    simp [observeReceived, attachedTo_eq hi, hne']
  · simp [observeReceived, attachedTo_eq hi, ShmWorld.received, hi, hserves.stores.receive, hhistory]

/-- Every operation but `Destroy` keeps the invariant, with what it sends and receives. -/
theorem step (h : Lifecycle sent received live world) {action : ShmAction ι}
    (hdestroy : action ≠ .destroy) (hstep : world.step action = some world') :
    ∃ live', Lifecycle (fun g => sent g ++ world.observeSent g action)
      (fun g => received g ++ world.observeReceived g action) live' world' := by
  cases action with
  | construct i =>
    simp only [observeSent, observeReceived, List.append_nil]
    cases hi : world.transports i with
    | some transport => simp [ShmWorld.step, hi] at hstep
    | none =>
      -- the first object of the name makes a segment, the others find it
      rcases live.eq_empty_or_nonempty with rfl | hlive
      · obtain ⟨transport, memory, hconstruct, -, hlifecycle⟩ := h.construct_first i
        obtain rfl := Option.some.inj (hconstruct.symm.trans hstep)
        exact ⟨_, hlifecycle⟩
      · obtain ⟨next, hconstruct, hlifecycle⟩ := h.construct_further hlive hi
        obtain rfl := Option.some.inj (hconstruct.symm.trans hstep)
        exact ⟨_, hlifecycle⟩
  | destruct i =>
    simp only [observeSent, observeReceived, List.append_nil]
    cases hi : world.transports i with
    | none => simp [ShmWorld.step, hi] at hstep
    | some transport =>
      obtain ⟨next, hdestruct, hlifecycle⟩ := h.destruct hi
      obtain rfl := Option.some.inj (hdestruct.symm.trans hstep)
      exact ⟨_, hlifecycle⟩
  | call call =>
    cases call with
    | send i packet =>
      simp only [observeReceived, List.append_nil]
      cases hi : world.transports i with
      | none => simp [ShmWorld.step, hi] at hstep
      | some transport =>
        obtain ⟨next, hsend, hlifecycle⟩ := h.send hi packet
        obtain rfl := Option.some.inj (hsend.symm.trans hstep)
        exact ⟨_, hlifecycle⟩
    | receive i =>
      simp only [observeSent, List.append_nil]
      cases hi : world.transports i with
      | none => simp [ShmWorld.step, hi] at hstep
      | some transport =>
        obtain ⟨next, hreceive, hlifecycle⟩ := h.receive hi
        obtain rfl := Option.some.inj (hreceive.symm.trans hstep)
        exact ⟨_, hlifecycle⟩
  | destroy => exact absurd rfl hdestroy

end Lifecycle

/-- The packets sent on a segment in a run. -/
def sent (start : ShmWorld ι) (actions : List (ShmAction ι)) (segment : ℕ) : List Packet :=
  Transition.observations step (observeSent segment) start actions

/-- The results of the receives on a segment in a run, one behind the other. -/
def receivedFrom (start : ShmWorld ι) (actions : List (ShmAction ι)) (segment : ℕ) : List Packet :=
  Transition.observations step (observeReceived segment) start actions

/-- The invariant after every run that starts without objects and without a segment. -/
theorem lifecycle_of_run {start world : ShmWorld ι} {actions : List (ShmAction ι)}
    (hunbound : start.memory.segments.bound = none) (hnone : ∀ i, start.transports i = none)
    (hdestroy : ShmAction.destroy ∉ actions)
    (hrun : Transition.run step start actions = some world) :
    ∃ live, Lifecycle (sent start actions) (receivedFrom start actions) live world := by
  have hallowed : ∀ action ∈ actions, action ≠ .destroy := by
    rintro action hmem rfl
    exact hdestroy hmem
  apply Transition.run_induction_of_forall (fun actions world =>
    ∃ live, Lifecycle (sent start actions) (receivedFrom start actions) live world) _ _ hallowed hrun
  · refine ⟨∅, fun i => by simp [hnone], fun _ => hunbound, fun hsome => ?_, fun _ _ => ⟨rfl, rfl⟩⟩
    exact absurd rfl hsome.ne_empty
  · rintro actions action world world' hrun ⟨live, hlifecycle⟩ haction hstep
    obtain ⟨live', hlifecycle'⟩ := hlifecycle.step haction hstep
    refine ⟨live', ?_⟩
    have hsent : sent start (actions ++ [action])
        = fun g => sent start actions g ++ world.observeSent g action := by
      funext g
      exact Transition.observations_concat _ hrun
    have hreceived : receivedFrom start (actions ++ [action])
        = fun g => receivedFrom start actions g ++ world.observeReceived g action := by
      funext g
      exact Transition.observations_concat _ hrun
    rw [hsent, hreceived]
    exact hlifecycle'

end ShmWorld

/-- **Lifecycle and delivery through shared memory.** After every run of atomic operations that starts
without a segment and calls no `Destroy` from outside: the name is bound exactly while an object is
alive; the pointers of all live objects lead to the storage and the count of the bound segment, and
the count is the number of live objects; what was received from the segment and what it stores, which is
what a `Receive` returns, is what was sent on it; a constructor without other objects starts with count
one and no packets; and no operation of a live object fails. -/
theorem sharedMemoryTransport_lifecycle {ι : Type*} [DecidableEq ι] (start world : ShmWorld ι)
    (actions : List (ShmAction ι)) (hunbound : start.memory.segments.bound = none)
    (hnone : ∀ i, start.transports i = none) (hdestroy : ShmAction.destroy ∉ actions)
    (hrun : Transition.run ShmWorld.step start actions = some world) :
    (world.memory.segments.bound.isSome = true ↔ ∃ i, (world.transports i).isSome = true) ∧
    (∃ live : Finset ι, (∀ i, i ∈ live ↔ (world.transports i).isSome = true) ∧
      ∀ i transport, world.transports i = some transport →
        world.memory.segments.bound = some transport.segment ∧
        world.memory.findPacketStorage transport.segment = some transport.packetStorage ∧
        world.memory.findReferenceCount transport.segment = some transport.referenceCount ∧
        world.memory.loadReferenceCount transport.referenceCount = some (live.card : ℤ)) ∧
    (∀ i transport, world.transports i = some transport →
      ∃ storage, world.memory.loadPacketStorage transport.packetStorage = some storage ∧
        world.received i = some (storage.map InternalPacket.toPacket) ∧
        ShmWorld.receivedFrom start actions transport.segment
          ++ storage.map InternalPacket.toPacket = ShmWorld.sent start actions transport.segment) ∧
    ((∀ i, world.transports i = none) → ∀ i, ∃ transport world',
      world.step (.construct i) = some world' ∧ world'.transports i = some transport ∧
        world'.memory.loadReferenceCount transport.referenceCount = some 1 ∧
        world'.memory.loadPacketStorage transport.packetStorage = some []) ∧
    (∀ i, world.transports i = none → (world.step (.construct i)).isSome = true) ∧
    ∀ i, (world.transports i).isSome = true → (world.step (.destruct i)).isSome = true ∧
      (∀ packet, (world.step (.call (.send i packet))).isSome = true) ∧
      (world.step (.call (.receive i))).isSome = true := by
  obtain ⟨live, h⟩ := ShmWorld.lifecycle_of_run hunbound hnone hdestroy hrun
  refine ⟨?_, ⟨live, h.alive, fun i transport hi => ?_⟩, fun i transport hi => ?_, fun hnone i => ?_,
    fun i hi => ?_, fun i hi => ?_⟩
  · rcases live.eq_empty_or_nonempty with rfl | ⟨j, hj⟩
    · rw [h.detached rfl]
      simp [← h.alive]
    · obtain ⟨transport, storage, hserves, -⟩ := h.attached ⟨j, hj⟩
      rw [hserves.segment]
      exact iff_of_true rfl ⟨j, (h.alive j).mp hj⟩
  · obtain ⟨-, storage, hserves, -⟩ := h.serves hi
    exact ⟨hserves.segment, hserves.stores.findPacketStorage, hserves.stores.findReferenceCount,
      hserves.stores.loadReferenceCount⟩
  · obtain ⟨-, storage, hserves, -, -, hhistory⟩ := h.serves hi
    have hreceived : world.received i = some (storage.map InternalPacket.toPacket) := by
      rw [ShmWorld.received, hi, Option.bind_some, hserves.stores.receive, Option.map_some]
    exact ⟨storage, hserves.stores.loadPacketStorage, hreceived, hhistory⟩
  · have hempty : live = ∅ := Finset.eq_empty_of_forall_notMem fun j hj => by
      simpa [hnone j] using (h.alive j).mp hj
    subst hempty
    obtain ⟨transport, memory, hconstruct, hserves, -⟩ := h.construct_first i
    exact ⟨transport, _, hconstruct, Function.update_self .., hserves.stores.loadReferenceCount,
      hserves.stores.loadPacketStorage⟩
  · rcases live.eq_empty_or_nonempty with rfl | hlive
    · obtain ⟨transport, memory, hconstruct, -⟩ := h.construct_first i
      rw [hconstruct]
      rfl
    · obtain ⟨next, hconstruct, -⟩ := h.construct_further hlive hi
      rw [hconstruct]
      rfl
  · obtain ⟨transport, htransport⟩ := Option.isSome_iff_exists.mp hi
    obtain ⟨destructed, hdestruct, -⟩ := h.destruct htransport
    obtain ⟨received, hreceive, -⟩ := h.receive htransport
    refine ⟨by rw [hdestruct]; rfl, fun packet => ?_, by rw [hreceive]; rfl⟩
    obtain ⟨sent, hsend, -⟩ := h.send htransport packet
    rw [hsend]
    rfl

/-- The sender goes before its packet is received: the receiver keeps the segment. -/
theorem sharedMemoryTransport_lifecycle_pending :
    ∃ world, Transition.run ShmWorld.step (⟨.empty, fun _ => none⟩ : ShmWorld Bool)
        [.construct true, .call (.send true ⟨[65], [1]⟩), .construct false, .destruct true]
        = some world ∧
      world.memory.segments.bound.isSome = true ∧
      world.received false = some [⟨[65], [1]⟩] := by
  refine ⟨_, rfl, ?_, rfl⟩
  exact (sharedMemoryTransport_lifecycle (⟨.empty, fun _ => none⟩ : ShmWorld Bool) _
    [.construct true, .call (.send true ⟨[65], [1]⟩), .construct false, .destruct true] rfl
    (fun _ => rfl) (by simp) rfl).1.mpr ⟨false, rfl⟩

end Contra
