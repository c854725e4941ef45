import Contra.MutualExclusion

/-! # Delivery under every interleaving

`Send` and `Receive` in the steps they take on the packet vector: a `Send` builds its packet, looks for
the end of the vector, and constructs the element there; a `Receive` fixes the range of its loop, copies
one packet after the other, and clears the vector. The steps of all objects come between each other,
those of constructors and destructors included, and only the mutex keeps two objects on one storage
apart.

`work` is what a step does to the vector, and `Undisturbed` the invariant: what an object inside knows
about the vector is still true. `interleaved_delivery` says that the system refines the one in which
`Send` and `Receive` work in one step, and that every packet is delivered once and in order;
`operations_finish` says that nobody waits for a lock that cannot be released. -/

namespace Contra

open NamedObjects

/-! ## The vector -/

/-- How far an object has come with its `Send` or `Receive`. -/
inductive Progress where
  /-- In neither, or with nothing done yet. -/
  | idle
  /-- `internal_packet` is constructed. -/
  | built (internalPacket : InternalPacket)
  /-- `push_back` is to construct the element at the end it has found. -/
  | appending (internalPacket : InternalPacket) (finish : ℕ)
  /-- `Send` is to release the lock. -/
  | sent
  /-- In the loop of `Receive`, on the elements in front of `finish`. -/
  | copying (finish : ℕ) (receivedPackets : List Packet)
  /-- `Receive` is to release the lock and to return. -/
  | received (receivedPackets : List Packet)
  /-- An element was used that is not in the vector. -/
  | overrun
  deriving DecidableEq, Repr

/-- A step of an object. -/
inductive ThreadStep where
  /-- A step that is not about the packets. -/
  | process (action : ProcessStep)
  /-- `InternalPacket internal_packet{...}`. -/
  | build
  /-- `push_back` looks for the end of the vector. -/
  | findEnd
  /-- `push_back` constructs the element and moves the end behind it. -/
  | append
  /-- `reserve`, and the range of the loop. -/
  | beginCopy
  /-- One round of the loop. -/
  | copyPacket
  /-- `packet_storage_->clear()`. -/
  | clear
  deriving DecidableEq

/-- The step of the atomic system that takes effect in a step of this one. -/
def ThreadStep.effect : ThreadStep → List ProcessStep
  | .process action => [action]
  | .append => [.send]
  | .clear => [.receive]
  | _ => []

/-- What a step of a call does to the packet vector. -/
def work : ThreadStep → Operation → Progress → List InternalPacket →
    Option (Progress × List InternalPacket)
  | .build, .send packet, .idle, storage => some (.built (.ofPacket packet), storage)
  | .findEnd, .send _, .built internalPacket, storage =>
    some (.appending internalPacket storage.length, storage)
  | .append, .send _, .appending internalPacket finish, storage =>
    if storage.length < finish then some (.overrun, storage)
    -- the end is now behind this element, whatever was appended meanwhile
    else some (.sent, storage.take finish ++ [internalPacket])
  | .beginCopy, .receive, .idle, storage => some (.copying storage.length [], storage)
  | .copyPacket, .receive, .copying finish receivedPackets, storage =>
    if receivedPackets.length = finish then none
    else match storage[receivedPackets.length]? with
      | some internalPacket =>
        some (.copying finish (receivedPackets ++ [internalPacket.toPacket]), storage)
      | none => some (.overrun, storage)
  | .clear, .receive, .copying finish receivedPackets, _ =>
    if receivedPackets.length = finish then some (.received receivedPackets, []) else none
  | _, _, _, _ => none

namespace Progress

/-- What is left to do of a call that has come so far. -/
def rest (operation : Operation) : Progress → Option Operation
  | sent => none
  | received _ => none
  | _ => some operation

/-- What an object knows about its call and about the vector is true. -/
def Holds (left : Option Operation) (storage : List InternalPacket) : Progress → Prop
  | idle => left ≠ none
  | built internalPacket => ∃ packet, left = some (.send packet) ∧ internalPacket = .ofPacket packet
  | appending internalPacket finish => finish = storage.length ∧
      ∃ packet, left = some (.send packet) ∧ internalPacket = .ofPacket packet
  | copying finish receivedPackets => finish = storage.length ∧ left = some .receive ∧
      receivedPackets = (storage.map InternalPacket.toPacket).take receivedPackets.length
  | sent => left = none
  | received _ => left = none
  | overrun => False

/-- The packets a step appends to the vector. -/
def appended : Progress → Progress → List Packet
  | appending internalPacket _, sent => [internalPacket.toPacket]
  | _, _ => []

/-- The packets a step takes out of the vector, for `Receive` to return. -/
def taken : Progress → Progress → List Packet
  | copying _ _, received receivedPackets => receivedPackets
  | _, _ => []

/-- Who has something to do has not done all of it. -/
theorem rest_of_holds {operation : Operation} {storage : List InternalPacket} {progress : Progress}
    (h : progress.Holds (some operation) storage) : progress.rest operation = some operation := by
  cases progress with
  | sent | received => cases h
  | _ => rfl

end Progress

/-- Who works has something to do. -/
theorem rest_of_work {action : ThreadStep} {operation : Operation} {progress : Progress}
    {storage : List InternalPacket} {result : Progress × List InternalPacket}
    (h : work action operation progress storage = some result) :
    progress.rest operation = some operation := by
  cases progress with
  | sent | received => cases action <;> cases operation <;> cases h
  | _ => rfl

/-- The outcomes of `work` on a vector about which the object knows the truth: the vector stays, or all
of `Send` takes effect, or all of `Receive`. -/
inductive Works (storage : List InternalPacket) :
    ThreadStep → Operation → Progress → Progress → List InternalPacket → Prop where
  /-- A step in which nothing takes effect. -/
  | prepare {action : ThreadStep} {operation : Operation} {progress progress' : Progress}
      (hholds : progress'.Holds (some operation) storage)
      (happended : progress.appended progress' = []) (htaken : progress.taken progress' = [])
      (heffect : action.effect = []) : Works storage action operation progress progress' storage
  /-- The packet is appended. -/
  | append (packet : Packet) : Works storage .append (.send packet)
      (.appending (.ofPacket packet) storage.length) .sent (storage ++ [.ofPacket packet])
  /-- All packets are taken. -/
  | clear : Works storage .clear .receive
      (.copying storage.length (storage.map InternalPacket.toPacket))
      (.received (storage.map InternalPacket.toPacket)) []

namespace Works

variable {storage storage' : List InternalPacket} {action : ThreadStep} {operation : Operation}
  {progress progress' : Progress}

/-- Afterwards the object knows the truth about the vector it leaves and what is left to do. -/
theorem holds (h : Works storage action operation progress progress' storage') :
    progress'.Holds (progress'.rest operation) storage' := by
  cases h with
  | prepare hholds =>
    rw [Progress.rest_of_holds hholds]
    exact hholds
  | append | clear => exact rfl

/-- What is taken and what stays is what was there and what is appended. -/
theorem conserved (h : Works storage action operation progress progress' storage') :
    progress.taken progress' ++ storage'.map InternalPacket.toPacket
      = storage.map InternalPacket.toPacket ++ progress.appended progress' := by
  cases h with
  | prepare _ happended htaken => rw [happended, htaken, List.nil_append, List.append_nil]
  | append packet => simp [Progress.appended, Progress.taken]
  | clear => simp [Progress.appended, Progress.taken]

end Works

/-- **One step on the vector**, by an object that knows the truth about it. -/
theorem works_of_work {storage storage' : List InternalPacket} {action : ThreadStep}
    {operation : Operation} {progress progress' : Progress}
    (hholds : progress.Holds (some operation) storage)
    (h : work action operation progress storage = some (progress', storage')) :
    Works storage action operation progress progress' storage' := by
  unfold work at h
  split at h
  · obtain ⟨rfl, rfl⟩ := Prod.mk.inj (Option.some.inj h)
    exact .prepare ⟨_, rfl, rfl⟩ rfl rfl rfl
  · obtain ⟨rfl, rfl⟩ := Prod.mk.inj (Option.some.inj h)
    exact .prepare ⟨rfl, hholds⟩ rfl rfl rfl
  · obtain ⟨rfl, packet, hoperation, rfl⟩ := hholds
    obtain rfl := Operation.send.inj (Option.some.inj hoperation)
    rw [if_neg (lt_irrefl _), List.take_length] at h
    obtain ⟨rfl, rfl⟩ := Prod.mk.inj (Option.some.inj h)
    exact .append _
  · obtain ⟨rfl, rfl⟩ := Prod.mk.inj (Option.some.inj h)
    exact .prepare ⟨rfl, rfl, rfl⟩ rfl rfl rfl
  · rename_i finish receivedPackets
    obtain ⟨rfl, -, hreceived⟩ := hholds
    split_ifs at h with hend
    -- the loop is inside its range, so there is a packet to copy
    have hlt : receivedPackets.length < storage.length := by
      have hle := congrArg List.length hreceived
      rw [List.length_take, List.length_map] at hle
      omega
    rw [List.getElem?_eq_getElem hlt] at h
    obtain ⟨rfl, rfl⟩ := Prod.mk.inj (Option.some.inj h)
    refine .prepare ⟨rfl, rfl, ?_⟩ rfl rfl rfl
    rw [List.length_append, List.length_singleton, List.take_succ_eq_append_getElem (by simpa),
      ← hreceived, List.getElem_map]
  · rename_i finish receivedPackets
    obtain ⟨rfl, -, hreceived⟩ := hholds
    split_ifs at h with hend
    obtain ⟨rfl, rfl⟩ := Prod.mk.inj (Option.some.inj h)
    have hall : receivedPackets = storage.map InternalPacket.toPacket := by
      rw [hreceived, hend, List.take_of_length_le (by simp)]
    rw [hall]
    exact .clear
  · cases h

/-! ## The system -/

/-- The objects, how far each has come, and what was appended to and taken from the segments. -/
structure ShmThreads (ι : Type*) where
  /-- The memory and where every object is. -/
  processes : ShmProcesses ι
  /-- How far every object has come inside its operation. -/
  progress : ι → Progress
  /-- History: the packets appended to the storage of a segment, in order. -/
  sent : ℕ → List Packet
  /-- History: the packets that `Receive` took from the storage of a segment, in order. -/
  received : ℕ → List Packet

namespace SharedMemory

variable {ι : Type*} (memory : SharedMemory ι)

/-- The packets in a segment. -/
def contents (segment : ℕ) : List InternalPacket :=
  (memory.segments.object segment).packetStorage.elim [] NamedObject.value

/-- The packets under a pointer are those of its segment. -/
theorem contents_of_load {memory : SharedMemory ι} {pointer : Pointer} {storage : List InternalPacket}
    (h : memory.loadPacketStorage pointer = some storage) :
    memory.contents pointer.segment = storage := by
  rw [contents, NamedObject.load_eq_some.mp h]
  rfl

/-- Two pointers into the storage of one segment are the same. -/
theorem pointer_unique {memory : SharedMemory ι} {first second : Pointer}
    {storage storage' : List InternalPacket} (hfirst : memory.loadPacketStorage first = some storage)
    (hsecond : memory.loadPacketStorage second = some storage')
    (hsegment : first.segment = second.segment) : first = second := by
  have hobject := NamedObject.load_eq_some.mp hfirst
  rw [hsegment, NamedObject.load_eq_some.mp hsecond] at hobject
  obtain ⟨haddress, -⟩ := NamedObject.mk.inj (Option.some.inj hobject)
  cases first
  cases second
  simp_all

/-- What was stored is there. -/
theorem load_storePacketStorage_self (pointer : Pointer) (value : List InternalPacket) :
    (memory.storePacketStorage pointer value).loadPacketStorage pointer = some value := by
  rw [loadPacketStorage, storePacketStorage, object_setSegment, NamedObject.load_eq_some]

/-- Other segments are as before. -/
theorem object_storePacketStorage_of_ne {pointer : Pointer} {segment : ℕ}
    (h : segment ≠ pointer.segment) (value : List InternalPacket) :
    (memory.storePacketStorage pointer value).segments.object segment
      = memory.segments.object segment := object_setSegment_of_ne _ h _

/-- Storing what is there changes nothing. -/
theorem storePacketStorage_self {memory : SharedMemory ι} {pointer : Pointer}
    {storage : List InternalPacket} (h : memory.loadPacketStorage pointer = some storage) :
    memory.storePacketStorage pointer storage = memory := by
  have hobject := NamedObject.load_eq_some.mp h
  rw [storePacketStorage, ← hobject, setSegment, Name.set_eq_self]

end SharedMemory

namespace ShmThreads

variable {ι : Type*} [DecidableEq ι]

/-- The history of a segment with more packets. -/
def extend (history : ℕ → List Packet) (segment : ℕ) (packets : List Packet) : ℕ → List Packet :=
  Function.update history segment (history segment ++ packets)

/-- An object inside has worked on its storage. -/
def perform (world : ShmThreads ι) (i : ι) (transport : SharedMemoryTransport)
    (operation : Operation) (progress : Progress) (packets : List InternalPacket) :
    ShmThreads ι where
  processes := ⟨world.processes.memory.storePacketStorage transport.packetStorage packets,
    Function.update world.processes.phase i (.locked transport (progress.rest operation))⟩
  progress := Function.update world.progress i progress
  sent := extend world.sent transport.packetStorage.segment
    ((world.progress i).appended progress)
  received := extend world.received transport.packetStorage.segment
    ((world.progress i).taken progress)

section Perform

variable (world : ShmThreads ι) (i : ι) (transport : SharedMemoryTransport) (operation : Operation)
  (progress : Progress) (packets : List InternalPacket)

@[simp] theorem phase_perform_self :
    (world.perform i transport operation progress packets).processes.phase i
      = .locked transport (progress.rest operation) := Function.update_self ..

theorem phase_perform_of_ne {k : ι} (h : k ≠ i) :
    (world.perform i transport operation progress packets).processes.phase k
      = world.processes.phase k := Function.update_of_ne h ..

@[simp] theorem memory_perform :
    (world.perform i transport operation progress packets).processes.memory
      = world.processes.memory.storePacketStorage transport.packetStorage packets := rfl

@[simp] theorem progress_perform_self :
    (world.perform i transport operation progress packets).progress i = progress :=
  Function.update_self ..

theorem progress_perform_of_ne {k : ι} (h : k ≠ i) :
    (world.perform i transport operation progress packets).progress k = world.progress k :=
  Function.update_of_ne h ..

@[simp] theorem sent_perform_self : (world.perform i transport operation progress packets).sent
    transport.packetStorage.segment = world.sent transport.packetStorage.segment
      ++ (world.progress i).appended progress := Function.update_self ..

@[simp] theorem received_perform_self :
    (world.perform i transport operation progress packets).received transport.packetStorage.segment
      = world.received transport.packetStorage.segment ++ (world.progress i).taken progress :=
  Function.update_self ..

/-- The other segments are as before, with their history. -/
theorem perform_of_ne {segment : ℕ} (h : segment ≠ transport.packetStorage.segment) :
    (world.perform i transport operation progress packets).processes.memory.segments.object segment
        = world.processes.memory.segments.object segment ∧
      (world.perform i transport operation progress packets).sent segment = world.sent segment ∧
      (world.perform i transport operation progress packets).received segment
        = world.received segment :=
  ⟨SharedMemory.object_storePacketStorage_of_ne _ h _, Function.update_of_ne h _ _,
    Function.update_of_ne h _ _⟩

variable {transport operation} in
/-- Work inside a call leaves everybody with the feature that does not depend on the call. -/
theorem feature_perform {α : Type*} (feature : Phase → α)
    (hfeature : ∀ left left', feature (.locked transport left) = feature (.locked transport left'))
    (hi : world.processes.phase i = .locked transport (some operation)) (k : ι) :
    feature ((world.perform i transport operation progress packets).processes.phase k)
      = feature (world.processes.phase k) := by
  by_cases hk : k = i
  · rw [hk, phase_perform_self, hi]
    exact hfeature _ _
  · rw [phase_perform_of_ne _ _ _ _ _ _ hk]

end Perform

/-- One step of one object. -/
def step (world : ShmThreads ι) : ι × ThreadStep → Option (ShmThreads ι)
  | (i, .process action) =>
    -- what a call does to the packets it does in the other steps
    if action = .send ∨ action = .receive then none
    else (world.processes.step (i, action)).map fun processes =>
      { world with processes := processes, progress := Function.update world.progress i .idle }
  | (i, action) =>
    match world.processes.phase i with
    | .locked transport (some operation) =>
      (world.processes.memory.loadPacketStorage transport.packetStorage).bind fun storage =>
        (work action operation (world.progress i) storage).map fun (progress, packets) =>
          world.perform i transport operation progress packets
    | _ => none

/-- Nobody is attached; the packets in the memory count as sent. -/
def start (memory : SharedMemory ι) : ShmThreads ι where
  processes := ⟨memory, fun _ => .absent⟩
  progress := fun _ => .idle
  sent := fun segment =>
    if segment < memory.segments.created then
      (memory.contents segment).map InternalPacket.toPacket
    else []
  received := fun _ => []

/-- The steps of the atomic system that take effect in a step of this one. -/
def effect (action : ι × ThreadStep) : List (ι × ProcessStep) :=
  action.2.effect.map fun step => (action.1, step)

/-- The mutex under the name is used by nobody, or only on closed segments, when its name is
removed. -/
def MutexUnused (world : ShmThreads ι) (action : ι × ThreadStep) : Prop :=
  ∀ step, action.2 = .process step → world.processes.MutexUnused (action.1, step)

omit [DecidableEq ι] in
/-- Only the process steps can remove a name. -/
theorem mutexUnused_of_ne {world : ShmThreads ι} {action : ι × ThreadStep}
    (h : ∀ step, action.2 ≠ .process step) : MutexUnused world action :=
  fun step hstep => absurd hstep (h step)

instance [Fintype ι] (world : ShmThreads ι) (action : ι × ThreadStep) :
    Decidable (world.MutexUnused action) :=
  match action with
  | (i, .process step) => decidable_of_iff (world.processes.MutexUnused (i, step))
      ⟨fun h _ hstep => by cases hstep; exact h, fun h => h step rfl⟩
  | (_, .build) | (_, .findEnd) | (_, .append) | (_, .beginCopy) | (_, .copyPacket)
  | (_, .clear) => isTrue (mutexUnused_of_ne (by simp))

end ShmThreads

/-! ## What the other steps do to the storages -/

namespace Phase

/-- The storage an object points to, from the time it has found or constructed it until its
destructor starts. -/
def packetStorage? : Phase → Option Pointer
  | .hasStorage _ _ packetStorage => some packetStorage
  | .missedCount _ _ packetStorage => some packetStorage
  | .hasCount transport => some transport.packetStorage
  | .live transport => some transport.packetStorage
  | .locked transport _ => some transport.packetStorage
  | _ => none

/-- Who points to a storage holds its segment. -/
theorem handles_of_packetStorage {phase : Phase} {pointer : Pointer} (hplaced : phase.Placed)
    (h : phase.packetStorage? = some pointer) :
    ∃ mutex, phase.handles? = some (pointer.segment, mutex) := by
  cases phase with
  | hasStorage | missedCount | hasCount | live | locked =>
    obtain rfl := Option.some.inj h
    exact ⟨_, by rw [hplaced]; rfl⟩
  | _ => cases h

end Phase

/-- The packets in the segments are as before, and new segments are empty. -/
structure StorageFrame {ι : Type*} (memory memory' : SharedMemory ι) : Prop where
  /-- No segment disappears. -/
  created : memory.segments.created ≤ memory'.segments.created
  /-- Pointers lead to the same packets. -/
  load : ∀ pointer storage, pointer.segment < memory.segments.created →
    memory.loadPacketStorage pointer = some storage →
      memory'.loadPacketStorage pointer = some storage
  /-- The segments there were contain what they did. -/
  old : ∀ segment, segment < memory.segments.created →
    memory'.contents segment = memory.contents segment
  /-- Nothing is in the others. -/
  new : ∀ segment, memory.segments.created ≤ segment → segment < memory'.segments.created →
    memory'.contents segment = []

namespace StorageFrame

variable {ι : Type*} {memory memory' : SharedMemory ι} {segment : ℕ} {pointer : Pointer}

/-- The segments have the same storages. -/
theorem of_packetStorage (hcreated : memory'.segments.created = memory.segments.created)
    (hobject : ∀ segment, (memory'.segments.object segment).packetStorage
      = (memory.segments.object segment).packetStorage) : StorageFrame memory memory' where
  created := hcreated.ge
  load pointer storage _ h := by
    rw [SharedMemory.loadPacketStorage, hobject]
    exact h
  old segment _ := by rw [SharedMemory.contents, hobject, SharedMemory.contents]
  new segment hle hlt := by
    rw [hcreated] at hlt
    exact absurd hlt (Nat.not_lt.mpr hle)

/-- A segment gets new content with the same storage. -/
theorem of_setSegment {content : Segment}
    (h : content.packetStorage = (memory.segments.object segment).packetStorage) :
    StorageFrame memory (memory.setSegment segment content) := by
  refine of_packetStorage rfl fun other => ?_
  by_cases hother : other = segment
  · rw [hother, SharedMemory.object_setSegment, h]
  · rw [SharedMemory.object_setSegment_of_ne _ hother]

theorem of_openSegment (memory : SharedMemory ι) : StorageFrame memory memory.openSegment.2 := by
  have hobject : ∀ segment, segment < memory.segments.created →
      memory.openSegment.2.segments.object segment = memory.segments.object segment :=
    fun _ => Name.object_openOrCreate
  refine ⟨Name.created_le_openOrCreate, fun pointer storage hlt h => ?_, fun segment hlt => ?_,
    fun segment hle hlt => ?_⟩
  · rw [SharedMemory.loadPacketStorage, hobject _ hlt]
    exact h
  · rw [SharedMemory.contents, hobject _ hlt, SharedMemory.contents]
  · cases hbound : memory.segments.bound with
    | some bound =>
      rw [SharedMemory.openSegment, Name.openOrCreate_of_bound hbound] at hlt
      exact absurd hlt (Nat.not_lt.mpr hle)
    | none =>
      -- the only new segment is the one that was created
      rw [SharedMemory.openSegment, Name.openOrCreate_of_unbound hbound] at hlt ⊢
      obtain rfl : segment = memory.segments.created :=
        le_antisymm (Nat.le_of_lt_succ hlt) hle
      simp [SharedMemory.contents, Segment.fresh]

theorem of_addReferenceCount {change : ℤ}
    (h : memory.addReferenceCount pointer change = some memory') : StorageFrame memory memory' := by
  obtain ⟨count, -, rfl⟩ := Option.map_eq_some_iff.mp h
  exact of_setSegment rfl

theorem of_constructReferenceCount
    (h : memory.constructReferenceCount segment = some (pointer, memory')) :
    StorageFrame memory memory' := by
  obtain ⟨object, -, hresult⟩ := Option.map_eq_some_iff.mp h
  obtain ⟨-, rfl⟩ := Prod.mk.inj hresult
  exact of_setSegment rfl

/-- A storage is constructed where there is none, without packets. -/
theorem of_constructPacketStorage
    (h : memory.constructPacketStorage segment = some (pointer, memory')) :
    StorageFrame memory memory' ∧ memory'.loadPacketStorage pointer = some [] := by
  obtain ⟨object, hobject, hresult⟩ := Option.map_eq_some_iff.mp h
  obtain ⟨rfl, rfl⟩ := Prod.mk.inj hresult
  have hnone : (memory.segments.object segment).packetStorage = none ∧ object.value = [] := by
    unfold NamedObject.construct at hobject
    split at hobject
    · cases hobject
    · exact ⟨by assumption, by rw [← Option.some.inj hobject]⟩
  refine ⟨⟨le_rfl, fun other storage _ hload => ?_, fun other _ => ?_, fun other hle hlt => ?_⟩, ?_⟩
  · have hother : other.segment ≠ segment := by
      rintro rfl
      rw [SharedMemory.loadPacketStorage, hnone.1] at hload
      cases hload
    rw [SharedMemory.loadPacketStorage, SharedMemory.object_setSegment_of_ne _ hother]
    exact hload
  · by_cases hother : other = segment
    · subst hother
      rw [SharedMemory.contents, SharedMemory.object_setSegment, SharedMemory.contents, hnone.1]
      exact hnone.2
    · rw [SharedMemory.contents, SharedMemory.object_setSegment_of_ne _ hother,
        SharedMemory.contents]
  · exact absurd hlt (Nat.not_lt.mpr hle)
  · rw [SharedMemory.loadPacketStorage, SharedMemory.object_setSegment, NamedObject.load_eq_some,
      ← hnone.2]

end StorageFrame

namespace SharedMemory

variable {ι : Type*} {memory memory' : SharedMemory ι} {i : ι} {phase phase' : Phase}
  {action : ProcessStep}

/-- **Frame.** Only the work of `Send` and `Receive` changes a storage, and an object that gets a pointer
to a storage gets one that leads to it. -/
theorem storage_of_performs (h : Performs i memory action phase phase' memory')
    (hsend : action ≠ .send) (hreceive : action ≠ .receive) :
    StorageFrame memory memory' ∧ ∀ pointer, phase'.packetStorage? = some pointer →
      phase.packetStorage? = some pointer ∨
        ∃ storage, memory'.loadPacketStorage pointer = some storage := by
  cases h with
  | constructor hconstructs =>
    cases hconstructs with
    | openSegment => exact ⟨.of_openSegment memory, fun _ h => by cases h⟩
    | openMutex => exact ⟨.of_packetStorage rfl fun _ => rfl, fun _ h => by cases h⟩
    | foundStorage mutex hfind =>
      refine ⟨.of_packetStorage rfl fun _ => rfl, fun pointer hpointer => Or.inr ?_⟩
      obtain rfl := Option.some.inj hpointer
      obtain ⟨address, haddress, rfl⟩ := Option.map_eq_some_iff.mp hfind
      obtain ⟨storage, hobject⟩ := NamedObject.find_eq_some.mp haddress
      exact ⟨storage, NamedObject.load_eq_some.mpr hobject⟩
    | missedStorage => exact ⟨.of_packetStorage rfl fun _ => rfl, fun _ h => by cases h⟩
    | constructedStorage mutex hconstruct =>
      obtain ⟨hframe, hload⟩ := StorageFrame.of_constructPacketStorage hconstruct
      refine ⟨hframe, fun pointer hpointer => Or.inr ⟨[], ?_⟩⟩
      obtain rfl := Option.some.inj hpointer
      exact hload
    | takenStorage => exact ⟨.of_packetStorage rfl fun _ => rfl, fun _ h => by cases h⟩
    | foundCount => exact ⟨.of_packetStorage rfl fun _ => rfl, fun _ => Or.inl⟩
    | missedCount => exact ⟨.of_packetStorage rfl fun _ => rfl, fun _ => Or.inl⟩
    | constructedCount mutex storage hconstruct =>
      exact ⟨.of_constructReferenceCount hconstruct, fun _ => Or.inl⟩
    | takenCount => exact ⟨.of_packetStorage rfl fun _ => rfl, fun _ h => by cases h⟩
    | increment transport hincrement =>
      exact ⟨.of_addReferenceCount hincrement, fun _ => Or.inl⟩
  | lock => exact ⟨.of_packetStorage rfl fun _ => rfl, fun _ => Or.inl⟩
  | send => exact absurd rfl hsend
  | receive => exact absurd rfl hreceive
  | unlock => exact ⟨.of_packetStorage rfl fun _ => rfl, fun _ => Or.inl⟩
  | decrement transport hdecrement =>
    exact ⟨.of_addReferenceCount hdecrement, fun _ h => by cases h⟩
  | testZero => exact ⟨.of_packetStorage rfl fun _ => rfl, fun _ h => by cases h⟩
  | testNonzero => exact ⟨.of_packetStorage rfl fun _ => rfl, fun _ h => by cases h⟩
  | removeSegment => exact ⟨.of_packetStorage rfl fun _ => rfl, fun _ h => by cases h⟩
  | removeMutex => exact ⟨.of_packetStorage rfl fun _ => rfl, fun _ h => by cases h⟩

/-- Whoever takes a lock has its call to do. -/
theorem left_of_performs {transport : SharedMemoryTransport} {left : Option Operation}
    (h : Performs i memory action phase (.locked transport left) memory') (hsend : action ≠ .send)
    (hreceive : action ≠ .receive) : left ≠ none := by
  cases h with
  | constructor hconstructs => cases hconstructs
  | lock => exact Option.some_ne_none _
  | send => exact absurd rfl hsend
  | receive => exact absurd rfl hreceive

end SharedMemory

/-! ## The invariant -/

namespace ShmThreads

variable {ι : Type*} [DecidableEq ι]

omit [DecidableEq ι] in
/-- Nobody disturbs an object inside, and what was taken from a segment and what is in it is what was
sent. -/
structure Undisturbed (world : ShmThreads ι) : Prop where
  /-- Segments and mutexes belong together. -/
  paired : world.processes.Paired
  /-- Every object has its storage in its segment. -/
  placed : ∀ i, (world.processes.phase i).Placed
  /-- Pointers to storages lead to one. -/
  stored : ∀ i pointer, (world.processes.phase i).packetStorage? = some pointer →
    ∃ storage, world.processes.memory.loadPacketStorage pointer = some storage
  /-- An object inside knows the truth about its call and its storage. -/
  holds : ∀ i transport left storage, world.processes.phase i = .locked transport left →
    world.processes.memory.loadPacketStorage transport.packetStorage = some storage →
      (world.progress i).Holds left storage
  /-- An object outside has nothing done. -/
  outside : ∀ i, (∀ transport left, world.processes.phase i ≠ .locked transport left) →
    world.progress i = .idle
  /-- What was taken from a segment and what it contains is what was sent. -/
  conserved : ∀ segment, segment < world.processes.memory.segments.created →
    world.received segment ++ (world.processes.memory.contents segment).map InternalPacket.toPacket
      = world.sent segment
  /-- Nothing was sent on a segment that does not exist yet. -/
  later : ∀ segment, world.processes.memory.segments.created ≤ segment →
    world.sent segment = [] ∧ world.received segment = []

namespace Undisturbed

variable {world world' : ShmThreads ι} {i j : ι} {transport other : SharedMemoryTransport}
  {left left' : Option Operation} {operation : Operation}

omit [DecidableEq ι] in
/-- The segments with a pointer to their storage exist. -/
theorem lt_created (h : Undisturbed world) {pointer : Pointer}
    (hi : (world.processes.phase i).packetStorage? = some pointer) :
    pointer.segment < world.processes.memory.segments.created := by
  obtain ⟨mutex, hhandles⟩ := Phase.handles_of_packetStorage (h.placed i) hi
  exact (h.paired.handles i _ _ hhandles).1

omit [DecidableEq ι] in
/-- Two objects inside are on different segments. -/
theorem exclusive (h : Undisturbed world) (hi : world.processes.phase i = .locked transport left)
    (hj : world.processes.phase j = .locked other left')
    (hsegment : transport.packetStorage.segment = other.packetStorage.segment) : i = j := by
  have hplaced : transport.packetStorage.segment = transport.segment := by
    simpa only [hi, Phase.Placed] using h.placed i
  have hplaced' : other.packetStorage.segment = other.segment := by
    simpa only [hj, Phase.Placed] using h.placed j
  have hmutex : transport.mutex = other.mutex := by
    refine h.paired.agree i j transport.segment transport.mutex other.mutex (by rw [hi]; rfl) ?_
    rw [hj, ← hplaced, hsegment, hplaced']
    rfl
  have howner := h.paired.owner i transport.mutex (by rw [hi]; rfl)
  have howner' := h.paired.owner j other.mutex (by rw [hj]; rfl)
  rw [← hmutex, howner] at howner'
  exact Option.some.inj howner'

/-- A step that is not about the packets. -/
theorem process (h : Undisturbed world) {action : ProcessStep}
    (hunused : MutexUnused world (i, .process action))
    (hstep : world.step (i, .process action) = some world') : Undisturbed world' := by
  rw [ShmThreads.step] at hstep
  split_ifs at hstep with hwork
  obtain ⟨hsend, hreceive⟩ := not_or.mp hwork
  obtain ⟨processes, hprocesses, rfl⟩ := Option.map_eq_some_iff.mp hstep
  have hpaired := h.paired.step (hunused action rfl) hprocesses
  obtain ⟨phase, memory, hperform, rfl⟩ := ShmProcesses.step_eq_some.mp hprocesses
  have hperforms := SharedMemory.performs_of_perform hperform
  obtain ⟨hframe, hpointers⟩ := SharedMemory.storage_of_performs hperforms hsend hreceive
  -- pointers of objects that did not step lead to the same packets
  have hkept : ∀ k pointer, (world.processes.phase k).packetStorage? = some pointer →
      ∃ storage, world.processes.memory.loadPacketStorage pointer = some storage ∧
        memory.loadPacketStorage pointer = some storage := by
    intro k pointer hk
    obtain ⟨storage, hload⟩ := h.stored k pointer hk
    exact ⟨storage, hload, hframe.load pointer storage (h.lt_created hk) hload⟩
  refine ⟨hpaired, fun k => ?_, fun k pointer hk => ?_, fun k transport left storage hk hload => ?_,
    fun k hk => ?_, fun segment hlt => ?_, fun segment hle => ?_⟩
  · by_cases hki : k = i
    · subst hki
      simpa using SharedMemory.placed_of_performs (h.placed k) hperforms
    · simpa [hki] using h.placed k
  · by_cases hki : k = i
    · subst hki
      rcases hpointers pointer (by simpa using hk) with hold | hnew
      · obtain ⟨storage, -, hload⟩ := hkept k pointer hold
        exact ⟨storage, hload⟩
      · exact hnew
    · obtain ⟨storage, -, hload⟩ := hkept k pointer (by simpa [hki] using hk)
      exact ⟨storage, hload⟩
  · by_cases hki : k = i
    · subst hki
      obtain rfl : phase = .locked transport left := by simpa using hk
      simpa [Progress.Holds] using SharedMemory.left_of_performs hperforms hsend hreceive
    · have hlocked : world.processes.phase k = .locked transport left := by simpa [hki] using hk
      obtain ⟨storage', hold, hnew⟩ := hkept k transport.packetStorage (by rw [hlocked]; rfl)
      obtain rfl : storage' = storage := Option.some.inj (hnew.symm.trans hload)
      simpa [hki] using h.holds k transport left storage' hlocked hold
  · by_cases hki : k = i
    · subst hki
      simp
    · simpa [hki] using h.outside k (by simpa [hki] using hk)
  · by_cases hold : segment < world.processes.memory.segments.created
    · rw [hframe.old segment hold]
      exact h.conserved segment hold
    · obtain ⟨hsent, hreceived⟩ := h.later segment (Nat.not_lt.mp hold)
      rw [hframe.new segment (Nat.not_lt.mp hold) hlt, hsent, hreceived]
      rfl
  · exact h.later segment (le_trans hframe.created hle)

/-- What the work of an object does: it is inside, and the step on its vector has one of the outcomes of
`Works`. -/
theorem works_of_step (h : Undisturbed world) {action : ThreadStep}
    (haction : ∀ step, action ≠ .process step) (hstep : world.step (i, action) = some world') :
    ∃ transport operation storage progress packets,
      world.processes.phase i = .locked transport (some operation) ∧
      world.processes.memory.loadPacketStorage transport.packetStorage = some storage ∧
      Works storage action operation (world.progress i) progress packets ∧
      world' = world.perform i transport operation progress packets := by
  have hwork : (match world.processes.phase i with
      | .locked transport (some operation) =>
        (world.processes.memory.loadPacketStorage transport.packetStorage).bind fun storage =>
          (work action operation (world.progress i) storage).map fun (progress, packets) =>
            world.perform i transport operation progress packets
      | _ => none) = some world' := by
    cases action with
    | process step => exact absurd rfl (haction step)
    | _ => exact hstep
  split at hwork
  · rename_i transport operation hi
    obtain ⟨storage, hload, hwork⟩ := Option.bind_eq_some_iff.mp hwork
    obtain ⟨⟨progress, packets⟩, hresult, rfl⟩ := Option.map_eq_some_iff.mp hwork
    exact ⟨transport, operation, storage, progress, packets, hi, hload,
      works_of_work (h.holds i transport _ storage hi hload) hresult, rfl⟩
  · cases hwork

/-- **Refinement.** The work of an object is nothing to the atomic system, or all of `Send`, or all of
`Receive`. -/
theorem run_effect (h : Undisturbed world) {action : ι × ThreadStep}
    (hstep : world.step action = some world') :
    Transition.run ShmProcesses.step world.processes (effect action) = some world'.processes := by
  obtain ⟨i, action⟩ := action
  by_cases hprocess : ∃ step, action = .process step
  · obtain ⟨step, rfl⟩ := hprocess
    rw [ShmThreads.step] at hstep
    split_ifs at hstep
    obtain ⟨processes, hprocesses, rfl⟩ := Option.map_eq_some_iff.mp hstep
    simp only [effect, ThreadStep.effect, List.map_cons, List.map_nil, Transition.run_cons,
      hprocesses, Option.bind_some, Transition.run_nil]
  obtain ⟨transport, operation, storage, progress, packets, hi, hload, hworks, rfl⟩ :=
    h.works_of_step (fun step heq => hprocess ⟨step, heq⟩) hstep
  generalize world.progress i = before at hworks
  cases hworks with
  | prepare hholds happended htaken heffect =>
    have hstays : Function.update world.processes.phase i
        (.locked transport (progress.rest operation)) = world.processes.phase := by
      rw [Progress.rest_of_holds hholds, ← hi, Function.update_eq_self]
    rw [effect, heffect, List.map_nil, Transition.run_nil, perform,
      SharedMemory.storePacketStorage_self hload, hstays]
  | append packet =>
    have hsend : world.processes.step (i, .send) = some (world.perform i transport (.send packet)
        .sent (storage ++ [.ofPacket packet])).processes := by
      simp only [ShmProcesses.step, hi, SharedMemory.perform, SharedMemory.send, hload,
        Option.map_some, perform, Progress.rest]
    simp only [effect, ThreadStep.effect, List.map_cons, List.map_nil, Transition.run_cons, hsend,
      Option.bind_some, Transition.run_nil]
  | clear =>
    have hreceive : world.processes.step (i, .receive) = some (world.perform i transport .receive
        (.received (storage.map InternalPacket.toPacket)) []).processes := by
      simp only [ShmProcesses.step, hi, SharedMemory.perform, SharedMemory.receive, hload,
        Option.map_some, perform, Progress.rest]
    simp only [effect, ThreadStep.effect, List.map_cons, List.map_nil, Transition.run_cons, hreceive,
      Option.bind_some, Transition.run_nil]

/-- The work of an object removes no name. -/
theorem paired_of_work (h : Undisturbed world) {action : ThreadStep}
    (haction : ∀ step, action ≠ .process step) (hstep : world.step (i, action) = some world') :
    world'.processes.Paired := by
  refine Transition.invariant_of_meets h.paired (fun s a s' hs hunused => hs.step hunused) ?_
    (h.run_effect hstep)
  refine Transition.meets_of_forall (fun a ha s hremove => ?_) _
  obtain ⟨step, hmem, rfl⟩ := List.mem_map.mp ha
  obtain rfl : step = .removeMutex := hremove
  cases action with
  | process step => exact absurd rfl (haction step)
  | _ => simp [ThreadStep.effect] at hmem

section Perform

variable {storage packets : List InternalPacket} {progress : Progress}

/-- Every pointer leads to a vector, in the segment of the object and in the others. -/
theorem stored_perform (h : Undisturbed world)
    (hload : world.processes.memory.loadPacketStorage transport.packetStorage = some storage)
    {k : ι} {pointer : Pointer} (hk : (world.processes.phase k).packetStorage? = some pointer) :
    ∃ storage', (world.perform i transport operation progress
      packets).processes.memory.loadPacketStorage pointer = some storage' := by
  obtain ⟨storage', hload'⟩ := h.stored k pointer hk
  by_cases hsegment : pointer.segment = transport.packetStorage.segment
  · obtain rfl := SharedMemory.pointer_unique hload' hload hsegment
    exact ⟨packets, SharedMemory.load_storePacketStorage_self ..⟩
  · refine ⟨storage', ?_⟩
    rw [SharedMemory.loadPacketStorage, (perform_of_ne world i _ _ _ _ hsegment).1]
    exact hload'

/-- The object knows its new vector, and whoever is inside on another segment the old one. -/
theorem holds_perform (h : Undisturbed world)
    (hi : world.processes.phase i = .locked transport (some operation))
    (hholds : progress.Holds (progress.rest operation) packets) {k : ι}
    {storage' : List InternalPacket}
    (hk : (world.perform i transport operation progress packets).processes.phase k
      = .locked other left)
    (hload' : (world.perform i transport operation progress
      packets).processes.memory.loadPacketStorage other.packetStorage = some storage') :
    ((world.perform i transport operation progress packets).progress k).Holds left storage' := by
  by_cases hki : k = i
  · subst hki
    rw [phase_perform_self] at hk
    obtain ⟨rfl, rfl⟩ := Phase.locked.inj hk
    have hstored := SharedMemory.load_storePacketStorage_self world.processes.memory
      transport.packetStorage packets
    obtain rfl : packets = storage' := Option.some.inj (hstored.symm.trans hload')
    rw [progress_perform_self]
    exact hholds
  · -- nobody else inside is on this segment
    rw [phase_perform_of_ne _ _ _ _ _ _ hki] at hk
    have hsegment : other.packetStorage.segment ≠ transport.packetStorage.segment :=
      fun heq => hki (h.exclusive hk hi heq)
    have hold : world.processes.memory.loadPacketStorage other.packetStorage = some storage' := by
      rw [← hload', SharedMemory.loadPacketStorage, SharedMemory.loadPacketStorage,
        (perform_of_ne world i _ _ _ _ hsegment).1]
    rw [progress_perform_of_ne _ _ _ _ _ _ hki]
    exact h.holds k other left storage' hk hold

/-- What an object receives in its step and leaves is what was there and what it sends. -/
theorem conserved_perform (h : Undisturbed world) {action : ThreadStep}
    (hload : world.processes.memory.loadPacketStorage transport.packetStorage = some storage)
    (hworks : Works storage action operation (world.progress i) progress packets) {segment : ℕ}
    (hsegment : segment < world.processes.memory.segments.created) :
    (world.perform i transport operation progress packets).received segment
        ++ ((world.perform i transport operation progress packets).processes.memory.contents
            segment).map InternalPacket.toPacket
      = (world.perform i transport operation progress packets).sent segment := by
  have hsame := h.conserved segment hsegment
  by_cases heq : segment = transport.packetStorage.segment
  · subst heq
    rw [SharedMemory.contents_of_load hload] at hsame
    rw [memory_perform, SharedMemory.contents_of_load (SharedMemory.load_storePacketStorage_self ..),
      sent_perform_self, received_perform_self, ← hsame, List.append_assoc, hworks.conserved,
      List.append_assoc]
  · obtain ⟨hobject, hsent, hreceived⟩ :=
      perform_of_ne world i transport operation progress packets heq
    rw [SharedMemory.contents, hobject, hsent, hreceived]
    exact hsame

end Perform

/-- The work of an object on its vector. -/
theorem work (h : Undisturbed world) {action : ThreadStep}
    (haction : ∀ step, action ≠ .process step) (hstep : world.step (i, action) = some world') :
    Undisturbed world' := by
  have hpaired := h.paired_of_work haction hstep
  obtain ⟨transport, operation, storage, progress, packets, hi, hload, hworks, rfl⟩ :=
    h.works_of_step haction hstep
  have hlt : transport.packetStorage.segment < world.processes.memory.segments.created :=
    h.lt_created (by rw [hi]; rfl)
  refine ⟨hpaired, fun k => ?_, fun k pointer hk => h.stored_perform hload
      (?_ : (world.processes.phase k).packetStorage? = _),
    fun k other left storage' hk hload' => h.holds_perform hi hworks.holds hk hload',
    fun k hk => ?_, fun segment hsegment => h.conserved_perform hload hworks hsegment,
    fun segment hle => ?_⟩
  · rw [feature_perform world i progress packets Phase.Placed (fun _ _ => rfl) hi]
    exact h.placed k
  · rw [← feature_perform world i progress packets Phase.packetStorage? (fun _ _ => rfl) hi]
    exact hk
  · have hki : k ≠ i := by
      rintro rfl
      exact hk transport _ (phase_perform_self ..)
    rw [progress_perform_of_ne _ _ _ _ _ _ hki]
    refine h.outside k fun other left hother => hk other left ?_
    rw [phase_perform_of_ne _ _ _ _ _ _ hki, hother]
  · have hne : segment ≠ transport.packetStorage.segment := by
      rintro rfl
      exact absurd hlt (Nat.not_lt.mpr hle)
    obtain ⟨-, hsent, hreceived⟩ :=
      perform_of_ne world i transport operation progress packets hne
    rw [hsent, hreceived]
    exact h.later segment hle

/-- Every step keeps the invariant, where a removal of the mutex name finds its mutex unused. -/
theorem step (h : Undisturbed world) {action : ι × ThreadStep} (hunused : MutexUnused world action)
    (hstep : world.step action = some world') : Undisturbed world' := by
  obtain ⟨i, action⟩ := action
  by_cases hprocess : ∃ step, action = .process step
  · obtain ⟨step, rfl⟩ := hprocess
    exact h.process hunused hstep
  · exact h.work (fun step heq => hprocess ⟨step, heq⟩) hstep

omit [DecidableEq ι] in
/-- Nobody is attached. -/
theorem start {memory : SharedMemory ι} (hsegments : memory.segments.WellFormed)
    (hmutexes : memory.mutexes.WellFormed) : Undisturbed (ShmThreads.start memory) where
  paired := ⟨hsegments, hmutexes, by simp [ShmThreads.start, Phase.handles?],
    by simp [ShmThreads.start, Phase.opening?], by simp [ShmThreads.start, Phase.handles?],
    by simp [ShmThreads.start, Phase.handles?], by simp [ShmThreads.start, Phase.inside?]⟩
  placed _ := trivial
  stored _ _ h := by cases h
  holds _ _ _ _ h := by cases h
  outside _ _ := rfl
  conserved segment hlt := by
    simp only [ShmThreads.start] at hlt ⊢
    rw [if_pos hlt, List.nil_append]
  later segment hle := by
    simp only [ShmThreads.start] at hle ⊢
    exact ⟨if_neg (Nat.not_lt.mpr hle), trivial⟩

/-- The invariant after every run in which the mutex name is only removed while its mutex is
unused. -/
theorem of_run {memory : SharedMemory ι} {actions : List (ι × ThreadStep)}
    (hsegments : memory.segments.WellFormed) (hmutexes : memory.mutexes.WellFormed)
    (hmeets : Transition.Meets ShmThreads.step MutexUnused (ShmThreads.start memory) actions)
    (hrun : Transition.run ShmThreads.step (ShmThreads.start memory) actions = some world) :
    Undisturbed world :=
  Transition.invariant_of_meets (start hsegments hmutexes)
    (fun _ _ _ hs hunused hstep => hs.step hunused hstep) hmeets hrun

end Undisturbed

/-! ## Finishing -/

/-- Work of one object on its vector while no other object has a step. -/
def solo (operation : Operation) (state : Progress × List InternalPacket) (action : ThreadStep) :
    Option (Progress × List InternalPacket) := work action operation state.1 state.2

omit [DecidableEq ι] in
/-- The loop of `Receive` and the clearing. -/
theorem solo_copying {storage : List InternalPacket} (left : ℕ) (receivedPackets : List Packet)
    (hleft : storage.length = receivedPackets.length + left) :
    ∃ actions progress storage', actions.flatMap ThreadStep.effect = [.receive] ∧
      Transition.run (solo .receive) (.copying storage.length receivedPackets, storage) actions
        = some (progress, storage') ∧ progress.rest .receive = none := by
  induction left generalizing receivedPackets with
  | zero =>
    refine ⟨[.clear], .received receivedPackets, [], rfl, ?_, rfl⟩
    simp [Transition.run, solo, Contra.work, hleft]
  | succ left ih =>
    have hlt : receivedPackets.length < storage.length := by omega
    obtain ⟨actions, progress, storage', heffect, hrun, hrest⟩ :=
      ih (receivedPackets ++ [(storage[receivedPackets.length]).toPacket])
        (by rw [List.length_append, List.length_singleton]; omega)
    have hstep : solo .receive (.copying storage.length receivedPackets, storage) .copyPacket
        = some (.copying storage.length
            (receivedPackets ++ [(storage[receivedPackets.length]).toPacket]), storage) := by
      simp only [solo, Contra.work, if_neg (Nat.ne_of_lt hlt), List.getElem?_eq_getElem hlt]
    refine ⟨.copyPacket :: actions, progress, storage', heffect, ?_, hrest⟩
    rw [Transition.run_cons, hstep, Option.bind_some, hrun]

omit [DecidableEq ι] in
/-- An object that knows the truth about its vector comes to the end of its call. -/
theorem solo_finishes {operation : Operation} {storage : List InternalPacket} {progress : Progress}
    (hholds : progress.Holds (some operation) storage) :
    ∃ actions progress' storage', actions.flatMap ThreadStep.effect = [operation.work] ∧
      Transition.run (solo operation) (progress, storage) actions = some (progress', storage') ∧
        progress'.rest operation = none := by
  have hreceive : ∀ receivedPackets : List Packet,
      receivedPackets = (storage.map InternalPacket.toPacket).take receivedPackets.length →
        storage.length
          = receivedPackets.length + (storage.length - receivedPackets.length) := by
    intro receivedPackets hreceived
    have hle := congrArg List.length hreceived
    rw [List.length_take, List.length_map] at hle
    omega
  cases progress with
  | idle =>
    cases operation with
    | send packet =>
      refine ⟨[.build, .findEnd, .append], .sent, storage ++ [.ofPacket packet], rfl, ?_, rfl⟩
      simp only [Transition.run, solo, Contra.work, Option.bind_some, lt_irrefl, if_false,
        List.take_length]
    | receive =>
      obtain ⟨actions, progress, storage', heffect, hrun, hrest⟩ :=
        solo_copying storage.length [] (hreceive [] rfl)
      exact ⟨.beginCopy :: actions, progress, storage', heffect, hrun, hrest⟩
  | built internalPacket =>
    obtain ⟨packet, hoperation, rfl⟩ := hholds
    obtain rfl := Option.some.inj hoperation
    refine ⟨[.findEnd, .append], .sent, storage ++ [.ofPacket packet], rfl, ?_, rfl⟩
    simp only [Transition.run, solo, Contra.work, Option.bind_some, lt_irrefl, if_false,
      List.take_length]
  | appending internalPacket finish =>
    obtain ⟨rfl, packet, hoperation, rfl⟩ := hholds
    obtain rfl := Option.some.inj hoperation
    refine ⟨[.append], .sent, storage ++ [.ofPacket packet], rfl, ?_, rfl⟩
    simp only [Transition.run, solo, Contra.work, Option.bind_some, lt_irrefl, if_false,
      List.take_length]
  | copying finish receivedPackets =>
    obtain ⟨rfl, hoperation, hreceived⟩ := hholds
    obtain rfl := Option.some.inj hoperation
    exact solo_copying _ receivedPackets (hreceive receivedPackets hreceived)
  | sent | received => cases hholds
  | overrun => exact hholds.elim

/-- What an object does alone on its vector, it does in the system, and everybody else is where they
were. -/
theorem run_of_solo {world : ShmThreads ι} {i : ι} {transport : SharedMemoryTransport}
    {operation : Operation} {actions : List ThreadStep} {storage storage' : List InternalPacket}
    {progress : Progress}
    (hi : world.processes.phase i = .locked transport ((world.progress i).rest operation))
    (hload : world.processes.memory.loadPacketStorage transport.packetStorage = some storage)
    (h : Transition.run (solo operation) (world.progress i, storage) actions
      = some (progress, storage')) :
    ∃ world', Transition.run step world (actions.map fun action => (i, action)) = some world' ∧
      world'.processes.phase i = .locked transport (progress.rest operation) ∧
      ∀ k, k ≠ i → world'.processes.phase k = world.processes.phase k := by
  induction actions generalizing world storage with
  | nil =>
    obtain ⟨rfl, -⟩ := Prod.mk.inj (Option.some.inj h)
    exact ⟨world, rfl, hi, fun _ _ => rfl⟩
  | cons action actions ih =>
    obtain ⟨⟨next, packets⟩, hsolo, hlater⟩ := Transition.run_cons_eq_some.mp h
    have hresult : work action operation (world.progress i) storage = some (next, packets) := hsolo
    rw [rest_of_work hresult] at hi
    have hstep : world.step (i, action)
        = some (world.perform i transport operation next packets) := by
      cases action with
      | process step => cases hresult
      | _ => simp only [step, hi, hload, Option.bind_some, hresult, Option.map_some]
    obtain ⟨world', hrun, hphase, hothers⟩ :=
      @ih (world.perform i transport operation next packets) packets
        (by rw [phase_perform_self, progress_perform_self])
        (SharedMemory.load_storePacketStorage_self ..)
        (by rw [progress_perform_self]; exact hlater)
    refine ⟨world', ?_, hphase, fun k hk => ?_⟩
    · rw [List.map_cons, Transition.run_cons, hstep, Option.bind_some, hrun]
    · rw [hothers k hk, phase_perform_of_ne _ _ _ _ _ _ hk]

/-- An object inside can do what is left of its call, without a step of anybody else. -/
theorem finishes {world : ShmThreads ι} (h : Undisturbed world) {i : ι}
    {transport : SharedMemoryTransport} {left : Option Operation}
    (hi : world.processes.phase i = .locked transport left) :
    ∃ (actions : List ThreadStep) (world' : ShmThreads ι),
      Transition.run step world (actions.map fun action => (i, action)) = some world' ∧
      actions.flatMap ThreadStep.effect = left.toList.map Operation.work ∧
      world'.processes.phase i = .locked transport none ∧
      ∀ k, k ≠ i → world'.processes.phase k = world.processes.phase k := by
  cases left with
  | none => exact ⟨[], world, rfl, rfl, hi, fun _ _ => rfl⟩
  | some operation =>
    obtain ⟨storage, hload⟩ := h.stored i transport.packetStorage (by rw [hi]; rfl)
    have hholds := h.holds i transport _ storage hi hload
    obtain ⟨actions, progress, storage', heffect, hsolo, hrest⟩ := solo_finishes hholds
    rw [← Progress.rest_of_holds hholds] at hi
    obtain ⟨world', hrun, hphase, hothers⟩ := run_of_solo hi hload hsolo
    rw [hrest] at hphase
    exact ⟨actions, world', hrun, heffect, hphase, hothers⟩

/-- An object inside can do what is left of its call and release the lock. -/
theorem releases {world : ShmThreads ι} (h : Undisturbed world) {i : ι}
    {transport : SharedMemoryTransport} {left : Option Operation}
    (hi : world.processes.phase i = .locked transport left) :
    ∃ (actions : List (ι × ThreadStep)) (world' : ShmThreads ι), (∀ action ∈ actions, action.1 = i) ∧
      Transition.run step world actions = some world' ∧
      actions.flatMap effect
        = (left.toList.map fun operation => (i, operation.work)) ++ [(i, .unlock)] ∧
      world'.processes.phase i = .live transport ∧
      world'.processes.memory.mutexes.object transport.mutex = none ∧
      ∀ k, k ≠ i → world'.processes.phase k = world.processes.phase k := by
  obtain ⟨actions, world', hrun, heffect, hphase, hothers⟩ := finishes h hi
  have hunlock : world'.step (i, .process .unlock) = some
      { world' with
        processes := ⟨world'.processes.memory.setOwner transport.mutex none,
          Function.update world'.processes.phase i (.live transport)⟩
        progress := Function.update world'.progress i .idle } := by
    simp [step, ShmProcesses.step, hphase, SharedMemory.perform]
  refine ⟨actions.map (fun action => (i, action)) ++ [(i, .process .unlock)], _, ?_,
    Transition.run_concat_eq_some.mpr ⟨world', hrun, hunlock⟩, ?_, Function.update_self ..,
    Name.object_set_self, fun k hk => ?_⟩
  · intro action hmem
    rcases List.mem_append.mp hmem with hfront | hlast
    · obtain ⟨-, -, rfl⟩ := List.mem_map.mp hfront
      rfl
    · obtain rfl := List.mem_singleton.mp hlast
      rfl
  · have heffects : (actions.map fun action => (i, action)).flatMap effect
        = (actions.flatMap ThreadStep.effect).map fun step => (i, step) := by
      rw [List.flatMap_map, List.map_flatMap]
      rfl
    rw [List.flatMap_append, heffects, heffect, List.map_map]
    rfl
  · rw [← hothers k hk]
    exact Function.update_of_ne hk _ _

end ShmThreads

/-! ### Who holds a mutex -/

namespace ShmProcesses

variable {ι : Type*} [DecidableEq ι] {world world' : ShmProcesses ι}

omit [DecidableEq ι] in
/-- Every locked mutex is locked by an object that is inside. -/
def Held (world : ShmProcesses ι) : Prop :=
  ∀ mutex i, world.memory.mutexes.object mutex = some i → (world.phase i).inside? = some mutex

/-- A step that gives no mutex to anybody, by an object that is inside afterwards if it was before. -/
theorem Held.of_mutexes (h : Held world) {memory : SharedMemory ι} {i : ι} {phase phase' : Phase}
    (hi : world.phase i = phase)
    (hmutexes : ∀ mutex owner, memory.mutexes.object mutex = some owner →
      world.memory.mutexes.object mutex = some owner)
    (hinside : phase'.inside? = phase.inside?) :
    Held ⟨memory, Function.update world.phase i phase'⟩ := by
  intro mutex owner howner
  have hold := h mutex owner (hmutexes mutex owner howner)
  by_cases heq : owner = i
  · subst heq
    simpa [hinside, ← hi] using hold
  · simpa [heq] using hold

omit [DecidableEq ι] in
/-- A mutex that is created is free. -/
theorem owner_of_openMutex {memory : SharedMemory ι} {mutex : ℕ} {owner : ι}
    (howner : memory.openMutex.2.mutexes.object mutex = some owner) :
    memory.mutexes.object mutex = some owner := by
  cases hbound : memory.mutexes.bound with
  | some bound => rwa [SharedMemory.openMutex, Name.openOrCreate_of_bound hbound] at howner
  | none =>
    rw [SharedMemory.openMutex, Name.openOrCreate_of_unbound hbound] at howner
    by_cases hnew : mutex = memory.mutexes.created
    · subst hnew
      simp at howner
    · simpa [hnew] using howner

/-- Whoever takes a mutex is inside. -/
theorem Held.lock (h : Held world) {i : ι} {transport : SharedMemoryTransport}
    (hi : world.phase i = .live transport) (operation : Operation) :
    Held ⟨world.memory.setOwner transport.mutex (some i),
      Function.update world.phase i (.locked transport (some operation))⟩ := by
  intro mutex owner howner
  by_cases hmutex : mutex = transport.mutex
  · subst hmutex
    obtain rfl : i = owner :=
      Option.some.inj ((@Name.object_set_self _ world.memory.mutexes _ _).symm.trans howner)
    simp [Phase.inside?]
  · have hold := h mutex owner ((Name.object_set_of_ne hmutex).symm.trans howner)
    have hne : owner ≠ i := by
      rintro rfl
      rw [hi] at hold
      cases hold
    simpa [hne] using hold

/-- Whoever goes outside has released its mutex. -/
theorem Held.unlock (h : Held world) {i : ι} {transport : SharedMemoryTransport}
    {left : Option Operation} (hi : world.phase i = .locked transport left) :
    Held ⟨world.memory.setOwner transport.mutex none,
      Function.update world.phase i (.live transport)⟩ := by
  intro mutex owner howner
  have hmutex : mutex ≠ transport.mutex := by
    rintro rfl
    have hnone : (world.memory.setOwner transport.mutex none).mutexes.object transport.mutex
        = none := Name.object_set_self
    rw [hnone] at howner
    cases howner
  have hold := h mutex owner ((Name.object_set_of_ne hmutex).symm.trans howner)
  have hne : owner ≠ i := by
    rintro rfl
    rw [hi] at hold
    exact hmutex (Option.some.inj hold).symm
  simpa [hne] using hold

/-- Every step keeps it. -/
theorem Held.step (h : Held world) {action : ι × ProcessStep}
    (hstep : world.step action = some world') : Held world' := by
  obtain ⟨i, action⟩ := action
  obtain ⟨phase', memory', hperform, rfl⟩ := step_eq_some.mp hstep
  obtain ⟨phase, hi⟩ : ∃ phase, world.phase i = phase := ⟨_, rfl⟩
  rw [hi] at hperform
  cases SharedMemory.names_of_performs (SharedMemory.performs_of_perform hperform) with
  | openMutex opened => exact h.of_mutexes hi (fun _ _ => owner_of_openMutex) rfl
  | lock transport operation => exact h.lock hi operation
  | unlock transport => exact h.unlock hi
  | openSegment | removeSegment | removeMutex => exact h.of_mutexes hi (fun _ _ => id) rfl
  | work hnames _ _ hinside =>
    refine h.of_mutexes hi (fun mutex owner howner => ?_) hinside
    rwa [hnames.mutexes] at howner

end ShmProcesses

namespace ShmThreads

variable {ι : Type*} [DecidableEq ι]

/-- The atomic run behind a run. -/
theorem run_effects {memory : SharedMemory ι} {world : ShmThreads ι}
    {actions : List (ι × ThreadStep)} (hsegments : memory.segments.WellFormed)
    (hmutexes : memory.mutexes.WellFormed)
    (hmeets : Transition.Meets step MutexUnused (start memory) actions)
    (hrun : Transition.run step (start memory) actions = some world) :
    Transition.run ShmProcesses.step ⟨memory, fun _ => .absent⟩ (actions.flatMap effect)
      = some world.processes := by
  rw [← Transition.observations_of_actions effect hrun]
  exact Transition.run_matched ShmThreads.processes (fun _ => effect)
    (Undisturbed.start hsegments hmutexes)
    (fun _ _ _ hs hunused hstep => hs.step hunused hstep)
    (fun _ _ _ hs _ hstep => hs.run_effect hstep) hmeets hrun

/-- Every locked mutex is locked by an object that is inside, in every run from free mutexes. -/
theorem held_of_run {memory : SharedMemory ι} {world : ShmThreads ι}
    {actions : List (ι × ThreadStep)} (hfree : ∀ mutex, memory.mutexes.object mutex = none)
    (hsegments : memory.segments.WellFormed) (hmutexes : memory.mutexes.WellFormed)
    (hmeets : Transition.Meets step MutexUnused (start memory) actions)
    (hrun : Transition.run step (start memory) actions = some world) : world.processes.Held := by
  refine Transition.invariant ShmProcesses.Held (fun mutex i howner => ?_)
    (fun _ _ _ hs hstep => hs.step hstep) (run_effects hsegments hmutexes hmeets hrun)
  have hnone : memory.mutexes.object mutex = some i := howner
  rw [hfree] at hnone
  cases hnone

end ShmThreads

/-- **Delivery under every interleaving.** In every run of any number of objects, from any memory in
which none is attached, in which the mutex name is removed only while its mutex is unused: the run is one
of the atomic system, in which `Send` works in the step that appends and `Receive` in the one that clears;
nobody uses an element that is not in the vector; and in every segment, what `Receive` took and what is
stored is what was there at the start and was sent, in order and each packet once. -/
theorem interleaved_delivery {ι : Type*} [DecidableEq ι] (memory : SharedMemory ι)
    (world : ShmThreads ι) (actions : List (ι × ThreadStep))
    (hsegments : memory.segments.WellFormed) (hmutexes : memory.mutexes.WellFormed)
    (hmeets : Transition.Meets ShmThreads.step ShmThreads.MutexUnused (ShmThreads.start memory)
      actions)
    (hrun : Transition.run ShmThreads.step (ShmThreads.start memory) actions = some world) :
    Transition.run ShmProcesses.step ⟨memory, fun _ => .absent⟩ (actions.flatMap ShmThreads.effect)
      = some world.processes ∧
    (∀ i, world.progress i ≠ .overrun) ∧
    ∀ segment, segment < world.processes.memory.segments.created →
      world.received segment
          ++ (world.processes.memory.contents segment).map InternalPacket.toPacket
        = world.sent segment := by
  have h := ShmThreads.Undisturbed.of_run hsegments hmutexes hmeets hrun
  refine ⟨ShmThreads.run_effects hsegments hmutexes hmeets hrun, fun i hoverrun => ?_,
    h.conserved⟩
  by_cases hi : ∃ transport left, world.processes.phase i = .locked transport left
  · obtain ⟨transport, left, hi⟩ := hi
    obtain ⟨storage, hload⟩ := h.stored i transport.packetStorage (by rw [hi]; rfl)
    have hholds := h.holds i transport left storage hi hload
    rw [hoverrun] at hholds
    exact hholds
  · rw [h.outside i fun transport left hlocked => hi ⟨transport, left, hlocked⟩] at hoverrun
    cases hoverrun

/-- Steps of constructors and destructors. -/
def processSteps {ι : Type*} (steps : List (ι × ProcessStep)) : List (ι × ThreadStep) :=
  steps.map fun step => (step.1, .process step.2)

/-- The steps of a `Send`, from taking the lock to releasing it. -/
def sendSteps {ι : Type*} (i : ι) (packet : Packet) : List (ι × ThreadStep) :=
  [.process (.lock (.send packet)), .build, .findEnd, .append, .process .unlock].map fun step =>
    (i, step)

/-- A send of each of two objects on one segment and a part of a receive, and between them a send of a
third one on another segment. -/
def overlapping {ι : Type*} (i j other : ι) : List (ι × ThreadStep) :=
  [(i, .process (.lock (.send ⟨[65], [1]⟩))), (other, .process (.lock (.send ⟨[66], [2]⟩))),
      (i, .build), (other, .build), (i, .findEnd), (other, .findEnd), (i, .append),
      (i, .process .unlock)] ++
    sendSteps j ⟨[67], [3]⟩ ++
    [(i, .process (.lock .receive)), (other, .append), (i, .beginCopy), (i, .copyPacket),
      (other, .process .unlock)]

/-- After the names were removed, two objects share the new segment while a third one is on the old
one. -/
theorem interleaved_delivery_teardown :
    ∃ world, Transition.run ShmThreads.step (ShmThreads.start (.empty : SharedMemory (Fin 4)))
        (processSteps teardown ++ overlapping 2 3 1 ++ [(2, .copyPacket), (2, .clear),
          (3, .process .decrement), (2, .process .unlock)] ++ sendSteps 2 ⟨[68], [4]⟩) = some world ∧
      world.received 1 = [⟨[65], [1]⟩, ⟨[67], [3]⟩] ∧
      world.received 1 ++ (world.processes.memory.contents 1).map InternalPacket.toPacket
        = [⟨[65], [1]⟩, ⟨[67], [3]⟩, ⟨[68], [4]⟩] := by
  refine ⟨_, rfl, rfl, ?_⟩
  exact (interleaved_delivery (.empty : SharedMemory (Fin 4)) _
    (processSteps teardown ++ overlapping 2 3 1 ++ [(2, .copyPacket), (2, .clear),
      (3, .process .decrement), (2, .process .unlock)] ++ sendSteps 2 ⟨[68], [4]⟩)
    (fun _ h => by cases h) (fun _ h => by cases h) (by decide) rfl).2.2 1 (by decide)

/-- Without the condition, two objects with two mutexes on one storage receive the same packet. -/
example : (Transition.run ShmThreads.step (ShmThreads.start (.empty : SharedMemory (Fin 3)))
    (processSteps (creation 0 ++
        ([(0, .decrement), (0, .testZero), (0, .removeSegment)] : List (Fin 3 × ProcessStep)) ++
        creation 1 ++ ([(0, .removeMutex)] : List (Fin 3 × ProcessStep)) ++ attachment 2) ++
      sendSteps 1 ⟨[65], [1]⟩ ++
      ([(1, .process (.lock .receive)), (2, .process (.lock .receive)), (1, .beginCopy),
        (2, .beginCopy), (1, .copyPacket), (2, .copyPacket), (1, .clear), (2, .clear)] :
          List (Fin 3 × ThreadStep)))).map (fun world => (world.sent 1, world.received 1))
      = some ([⟨[65], [1]⟩], [⟨[65], [1]⟩, ⟨[65], [1]⟩]) := rfl

/-- **No deadlock.** In every run as above, from a memory in which no mutex is locked: whoever wants to
send or receive finds its mutex free, or held by an object that is inside and can, by steps of its own
alone, do what is left of the call it took the lock for, and nothing else, and release the lock, after
which the one that waited can take it. -/
theorem operations_finish {ι : Type*} [DecidableEq ι] (memory : SharedMemory ι)
    (world : ShmThreads ι) (actions : List (ι × ThreadStep))
    (hsegments : memory.segments.WellFormed) (hmutexes : memory.mutexes.WellFormed)
    (hfree : ∀ mutex, memory.mutexes.object mutex = none)
    (hmeets : Transition.Meets ShmThreads.step ShmThreads.MutexUnused (ShmThreads.start memory)
      actions)
    (hrun : Transition.run ShmThreads.step (ShmThreads.start memory) actions = some world)
    (i : ι) (operation : Operation) (transport : SharedMemoryTransport)
    (hi : world.processes.phase i = .live transport) :
    (world.step (i, .process (.lock operation))).isSome = true ∨
    ∃ holder other left, world.processes.phase holder = .locked other left ∧
      other.mutex = transport.mutex ∧
      ∃ (more : List (ι × ThreadStep)) (released : ShmThreads ι),
        (∀ action ∈ more, action.1 = holder) ∧
        Transition.run ShmThreads.step world more = some released ∧
        more.flatMap ShmThreads.effect
          = (left.toList.map fun operation => (holder, operation.work)) ++ [(holder, .unlock)] ∧
        released.processes.phase holder = .live other ∧
        released.processes.phase i = .live transport ∧
        (released.step (i, .process (.lock operation))).isSome = true := by
  have h := ShmThreads.Undisturbed.of_run hsegments hmutexes hmeets hrun
  have hheld := ShmThreads.held_of_run hfree hsegments hmutexes hmeets hrun
  -- an object outside takes its mutex when it is free
  have htakes : ∀ next : ShmThreads ι, next.processes.phase i = .live transport →
      next.processes.memory.mutexes.object transport.mutex = none →
      (next.step (i, .process (.lock operation))).isSome = true := by
    intro next hphase hnone
    simp [ShmThreads.step, ShmProcesses.step, hphase, SharedMemory.perform, hnone]
  cases howner : world.processes.memory.mutexes.object transport.mutex with
  | none => exact Or.inl (htakes world hi howner)
  | some holder =>
    obtain ⟨other, left, hholder, hmutex⟩ :=
      Phase.locked_of_inside (hheld transport.mutex holder howner)
    have hne : i ≠ holder := by
      rintro rfl
      rw [hi] at hholder
      cases hholder
    obtain ⟨more, released, hmore, hreleased, heffect, hlive, hnone, hothers⟩ :=
      ShmThreads.releases h hholder
    have hphase := (hothers i hne).trans hi
    rw [hmutex] at hnone
    exact Or.inr ⟨holder, other, left, hholder, hmutex, more, released, hmore, hreleased, heffect,
      hlive, hphase, htakes released hphase hnone⟩

/-- The receiver is in the middle of its loop while the other object on its segment waits. -/
theorem operations_finish_waiting :
    ∃ world transport, Transition.run ShmThreads.step
        (ShmThreads.start (.empty : SharedMemory (Fin 4))) (processSteps teardown ++ overlapping 2 3 1)
          = some world ∧
      world.processes.phase 3 = .live transport ∧
      world.progress 2 = .copying 2 [⟨[65], [1]⟩] ∧
      ((world.step (3, .process (.lock (.send ⟨[68], [4]⟩)))).isSome = true ∨
        ∃ holder other left, world.processes.phase holder = .locked other left ∧
          other.mutex = transport.mutex ∧
          ∃ (more : List (Fin 4 × ThreadStep)) (released : ShmThreads (Fin 4)),
            (∀ action ∈ more, action.1 = holder) ∧
            Transition.run ShmThreads.step world more = some released ∧
            more.flatMap ShmThreads.effect
              = (left.toList.map fun operation => (holder, operation.work))
                ++ [(holder, .unlock)] ∧
            released.processes.phase holder = .live other ∧
            released.processes.phase 3 = .live transport ∧
            (released.step (3, .process (.lock (.send ⟨[68], [4]⟩)))).isSome = true) := by
  refine ⟨_, _, rfl, rfl, rfl, ?_⟩
  exact operations_finish (.empty : SharedMemory (Fin 4)) _ (processSteps teardown ++ overlapping 2 3 1)
    (fun _ h => by cases h) (fun _ h => by cases h) (fun _ => rfl) (by decide) rfl 3
    (.send ⟨[68], [4]⟩) _ rfl

end Contra
