import Contra.InterleavedDelivery
import Contra.SegmentGenerations

/-! # One queue for every epoch

What shared memory is for, across calls of `Destroy`: the objects constructed between two of them share
one queue, which starts empty, and to which every `Send` adds and which every `Receive` takes whole.
`EpochQueues` is that system, without segments, counts and pointers. `EpochQueues.run_refines` says that
the transport is this system in every run whose destructors are timely, for whatever is packed into the
packets; `one_queue_per_epoch` is the result for packets. -/

namespace Contra

open NamedObjects

/-! ## The abstract system -/

/-- An operation on the queues. -/
inductive QueueAction (ι μ : Type*) where
  /-- A constructor. -/
  | construct (i : ι)
  /-- A destructor. -/
  | destruct (i : ι)
  /-- A message is sent. -/
  | send (i : ι) (message : μ)
  /-- All messages are received. -/
  | receive (i : ι)
  /-- `Destroy`, from outside. -/
  | destroy

/-- The operation of the transport, with the messages packed. -/
def QueueAction.toShm {ι μ : Type*} (pack : μ → Packet) : QueueAction ι μ → ShmAction ι
  | .construct i => .construct i
  | .destruct i => .destruct i
  | .send i message => .call (.send i (pack message))
  | .receive i => .call (.receive i)
  | .destroy => .destroy

/-- The live objects by epoch, and the messages of every epoch. -/
structure EpochQueues (ι μ : Type*) where
  /-- The objects. -/
  epochs : Epochs ι
  /-- The messages. -/
  queue : ℕ → List μ

namespace EpochQueues

variable {ι μ : Type*}

/-- Nothing has happened. -/
def start : EpochQueues ι μ := ⟨.start, fun _ => []⟩

variable [DecidableEq ι]

/-- The object is alive. -/
def Alive (queues : EpochQueues ι μ) (i : ι) : Prop :=
  ∃ epoch, epoch < queues.epochs.current + 1 ∧ i ∈ queues.epochs.live epoch

instance (queues : EpochQueues ι μ) (i : ι) : Decidable (queues.Alive i) :=
  inferInstanceAs (Decidable (∃ epoch, epoch < queues.epochs.current + 1 ∧ _))

/-- Something happens to the queue of the epoch of an object. -/
def change (queues : EpochQueues ι μ) (i : ι) (f : List μ → List μ) : EpochQueues ι μ :=
  { queues with
    queue := fun epoch =>
      if i ∈ queues.epochs.live epoch then f (queues.queue epoch) else queues.queue epoch }

theorem queue_change_of_mem {queues : EpochQueues ι μ} {i : ι} {epoch : ℕ}
    (h : i ∈ queues.epochs.live epoch) (f : List μ → List μ) :
    (queues.change i f).queue epoch = f (queues.queue epoch) := if_pos h

theorem queue_change_of_notMem {queues : EpochQueues ι μ} {i : ι} {epoch : ℕ}
    (h : i ∉ queues.epochs.live epoch) (f : List μ → List μ) :
    (queues.change i f).queue epoch = queues.queue epoch := if_neg h

/-- One operation. -/
def step (queues : EpochQueues ι μ) : QueueAction ι μ → Option (EpochQueues ι μ)
  | .construct i =>
    if queues.Alive i then none
    else some ⟨queues.epochs.next (.construct i),
      -- the first object of an epoch finds an empty queue
      if queues.epochs.live queues.epochs.current = ∅
      then Function.update queues.queue queues.epochs.current []
      else queues.queue⟩
  | .destruct i =>
    if queues.Alive i then some { queues with epochs := queues.epochs.next (.destruct i) } else none
  | .send i message =>
    if queues.Alive i then some (queues.change i (· ++ [message])) else none
  | .receive i => if queues.Alive i then some (queues.change i fun _ => []) else none
  | .destroy => some { queues with epochs := queues.epochs.next .destroy }

/-- No destructor ends the last object of an earlier epoch while one of the current epoch is alive. -/
def Timely (queues : EpochQueues ι μ) : QueueAction ι μ → Prop
  | .destruct i => queues.epochs.Timely (.destruct i)
  | _ => True

instance (queues : EpochQueues ι μ) (action : QueueAction ι μ) : Decidable (queues.Timely action) :=
  match action with
  | .destruct i => inferInstanceAs (Decidable (queues.epochs.Timely (.destruct i)))
  | .construct _ | .send _ _ | .receive _ | .destroy => isTrue trivial

end EpochQueues

/-! ## What constructors and destructors do to the storages -/

namespace StorageFrame

variable {ι : Type*} {memory middle memory' : SharedMemory ι}

protected theorem refl (memory : SharedMemory ι) : StorageFrame memory memory :=
  of_packetStorage rfl fun _ => rfl

protected theorem trans (h : StorageFrame memory middle) (h' : StorageFrame middle memory') :
    StorageFrame memory memory' where
  created := le_trans h.created h'.created
  load pointer storage hlt hload :=
    h'.load pointer storage (lt_of_lt_of_le hlt h.created) (h.load pointer storage hlt hload)
  old segment hlt := (h'.old segment (lt_of_lt_of_le hlt h.created)).trans (h.old segment hlt)
  new segment hle hlt := by
    by_cases hmiddle : segment < middle.segments.created
    · exact (h'.old segment hmiddle).trans (h.new segment hle hmiddle)
    · exact h'.new segment (Nat.not_lt.mp hmiddle) hlt

end StorageFrame

namespace SharedMemory

variable {ι : Type*} {memory memory' : SharedMemory ι} {transport : SharedMemoryTransport}
  {segment : ℕ} {pointer : Pointer}

theorem storage_of_findOrConstructPacketStorage
    (h : memory.findOrConstructPacketStorage segment = some (pointer, memory')) :
    StorageFrame memory memory' := by
  unfold findOrConstructPacketStorage at h
  split at h
  · obtain ⟨-, rfl⟩ := Prod.mk.inj (Option.some.inj h)
    exact .refl memory
  · exact (StorageFrame.of_constructPacketStorage h).1

theorem storage_of_findOrConstructReferenceCount
    (h : memory.findOrConstructReferenceCount segment = some (pointer, memory')) :
    StorageFrame memory memory' := by
  unfold findOrConstructReferenceCount at h
  split at h
  · obtain ⟨-, rfl⟩ := Prod.mk.inj (Option.some.inj h)
    exact .refl memory
  · exact .of_constructReferenceCount h

/-- A constructor leaves the packets where they are. -/
theorem storage_of_construct (h : memory.construct = some (transport, memory')) :
    StorageFrame memory memory' := by
  simp only [construct, Option.bind_eq_bind, Option.bind_eq_some_iff, Prod.exists] at h
  obtain ⟨storage, withStorage, hstorage, count, withCount, hcount, counted, hincrement, hresult⟩ := h
  obtain ⟨-, rfl⟩ := Prod.mk.inj (Option.some.inj hresult)
  have hopened : StorageFrame memory memory.openSegment.2.openMutex.2 :=
    (StorageFrame.of_openSegment memory).trans (.of_packetStorage rfl fun _ => rfl)
  exact ((hopened.trans (storage_of_findOrConstructPacketStorage hstorage)).trans
    (storage_of_findOrConstructReferenceCount hcount)).trans (.of_addReferenceCount hincrement)

/-- So does a destructor. -/
theorem storage_of_destruct (h : memory.destruct transport = some memory') :
    StorageFrame memory memory' := by
  obtain ⟨middle, hdecrement, h⟩ := Option.bind_eq_some_iff.mp h
  obtain ⟨count, -, rfl⟩ := Option.map_eq_some_iff.mp h
  refine (StorageFrame.of_addReferenceCount hdecrement).trans ?_
  split
  · exact .of_packetStorage rfl fun _ => rfl
  · exact .refl middle

end SharedMemory

/-! ## The refinement -/

namespace EpochQueues

variable {ι μ : Type*} [DecidableEq ι] {pack : μ → Packet}

/-- The segment of every epoch with live objects stores the packed messages of its queue. -/
structure Refines (pack : μ → Packet) (handles : ℕ → SharedMemoryTransport) (world : ShmWorld ι)
    (queues : EpochQueues ι μ) : Prop where
  /-- Every epoch has a segment of its own. -/
  generations : ShmWorld.Generations handles queues.epochs world
  /-- It stores the queue. -/
  stored : ∀ epoch, (queues.epochs.live epoch).Nonempty → ∃ storage,
    world.memory.loadPacketStorage (handles epoch).packetStorage = some storage ∧
      storage.map InternalPacket.toPacket = (queues.queue epoch).map pack

namespace Refines

variable {handles : ℕ → SharedMemoryTransport} {world : ShmWorld ι} {queues : EpochQueues ι μ}
  {i : ι} {epoch : ℕ}

omit [DecidableEq ι] in
theorem alive_iff (h : Refines pack handles world queues) :
    queues.Alive i ↔ (world.transports i).isSome = true := by
  constructor
  · rintro ⟨epoch, -, hi⟩
    rw [h.generations.handle epoch i hi]
    rfl
  · intro hi
    obtain ⟨epoch, hmem⟩ := h.generations.alive i hi
    exact ⟨epoch, Nat.lt_succ_of_le (h.generations.le_current ⟨i, hmem⟩), hmem⟩

omit [DecidableEq ι] in
/-- The storage of an epoch is in a segment that exists. -/
theorem storage_lt (h : Refines pack handles world queues)
    (hlive : (queues.epochs.live epoch).Nonempty) :
    (handles epoch).packetStorage.segment < world.memory.segments.created := by
  obtain ⟨storage, hstores⟩ := h.generations.stores epoch hlive
  rw [hstores.storageSegment]
  exact h.generations.created epoch hlive

omit [DecidableEq ι] in
/-- What leaves the storages alone leaves the queues as they are. -/
theorem stored_of_frame (h : Refines pack handles world queues) {memory : SharedMemory ι}
    (hframe : StorageFrame world.memory memory) (hlive : (queues.epochs.live epoch).Nonempty) :
    ∃ storage, memory.loadPacketStorage (handles epoch).packetStorage = some storage ∧
      storage.map InternalPacket.toPacket = (queues.queue epoch).map pack := by
  obtain ⟨storage, hload, hqueue⟩ := h.stored epoch hlive
  exact ⟨storage, hframe.load _ storage (h.storage_lt hlive) hload, hqueue⟩

/-- A constructor joins the current epoch, and finds an empty queue if it is the first. -/
theorem construct (h : Refines pack handles world queues) (hi : world.transports i = none) :
    ∃ handles' world', world.step (.construct i) = some world' ∧
      Refines pack handles' world' ⟨queues.epochs.next (.construct i),
        if queues.epochs.live queues.epochs.current = ∅
        then Function.update queues.queue queues.epochs.current [] else queues.queue⟩ := by
  obtain ⟨transport, memory, hstep, hsame, hgenerations⟩ := h.generations.construct hi
  have hconstruct : world.memory.construct = some (transport, memory) := by
    rw [ShmWorld.step_construct world hi] at hstep
    obtain ⟨⟨transport', memory'⟩, hconstruct, heq⟩ := Option.map_eq_some_iff.mp hstep
    obtain ⟨rfl, htransports⟩ := ShmWorld.mk.inj heq
    have hself := congrFun htransports i
    rw [Function.update_self, Function.update_self] at hself
    rw [hconstruct, Option.some.inj hself]
  have hframe := SharedMemory.storage_of_construct hconstruct
  refine ⟨_, _, hstep, hgenerations, fun epoch hlive => ?_⟩
  by_cases hcurrent : epoch = queues.epochs.current
  · subst hcurrent
    simp only [Function.update_self]
    by_cases hempty : queues.epochs.live queues.epochs.current = ∅
    · -- the segment is new
      obtain ⟨created, memory', hcreated, hserves, -⟩ :=
        SharedMemory.construct_of_unbound (h.generations.unbound hempty)
      obtain ⟨rfl, rfl⟩ := Prod.mk.inj (Option.some.inj (hconstruct.symm.trans hcreated))
      rw [if_pos hempty, Function.update_self]
      exact ⟨[], hserves.stores.loadPacketStorage, rfl⟩
    · have hsome := Finset.nonempty_iff_ne_empty.mpr hempty
      rw [if_neg hempty, hsame hsome]
      exact h.stored_of_frame hframe hsome
  · have hold : (queues.epochs.live epoch).Nonempty := by
      rwa [queues.epochs.live_next_construct_of_ne i hcurrent] at hlive
    obtain ⟨storage, hload, hqueue⟩ := h.stored_of_frame hframe hold
    refine ⟨storage, by rwa [Function.update_of_ne hcurrent], hqueue.trans (congrArg _ ?_)⟩
    split
    · exact (Function.update_of_ne hcurrent _ _).symm
    · rfl

/-- A timely destructor leaves its epoch. -/
theorem destruct (h : Refines pack handles world queues) (hi : i ∈ queues.epochs.live epoch)
    (htimely : queues.epochs.Timely (.destruct i)) :
    ∃ world', world.step (.destruct i) = some world' ∧
      Refines pack handles world' { queues with epochs := queues.epochs.next (.destruct i) } := by
  obtain ⟨storage, -, hstep⟩ := h.generations.step_destruct hi
  obtain ⟨transport, -, hdestruct⟩ := Option.bind_eq_some_iff.mp hstep
  obtain ⟨memory, hmemory, heq⟩ := Option.map_eq_some_iff.mp hdestruct
  refine ⟨_, hstep, h.generations.destruct hi htimely hstep, fun other hlive => ?_⟩
  rw [← heq]
  exact h.stored_of_frame (SharedMemory.storage_of_destruct hmemory)
    (hlive.mono (Finset.erase_subset ..))

/-- New packets in the segment of an epoch are a new queue of that epoch alone. -/
theorem change (h : Refines pack handles world queues) (hi : i ∈ queues.epochs.live epoch)
    {f : List μ → List μ} {packets : List InternalPacket}
    (hpackets : packets.map InternalPacket.toPacket = (f (queues.queue epoch)).map pack) :
    Refines pack handles ⟨world.memory.storePacketStorage (handles epoch).packetStorage packets,
      world.transports⟩ (queues.change i f) := by
  refine ⟨h.generations.store hi packets, fun other hlive => ?_⟩
  by_cases hother : other = epoch
  · subst hother
    rw [queue_change_of_mem hi]
    exact ⟨packets, SharedMemory.load_storePacketStorage_self .., hpackets⟩
  · obtain ⟨storage', hload', hqueue'⟩ := h.stored other hlive
    have hne : (handles other).packetStorage.segment ≠ (handles epoch).packetStorage.segment := by
      obtain ⟨_, hstores⟩ := h.generations.stores epoch ⟨i, hi⟩
      obtain ⟨_, hstores'⟩ := h.generations.stores other hlive
      rw [hstores.storageSegment, hstores'.storageSegment]
      exact fun heq => hother (h.generations.apart other epoch hlive ⟨i, hi⟩ heq)
    have hmem : i ∉ queues.epochs.live other :=
      fun hmem => hother (h.generations.epoch_unique hmem hi)
    rw [queue_change_of_notMem hmem]
    refine ⟨storage', ?_, hqueue'⟩
    rw [SharedMemory.loadPacketStorage, SharedMemory.object_storePacketStorage_of_ne _ hne]
    exact hload'

omit [DecidableEq ι] in
/-- **What a `Receive` returns** is the queue of the object's epoch. -/
theorem received_eq (h : Refines pack handles world queues) (hi : i ∈ queues.epochs.live epoch) :
    world.received i = some ((queues.queue epoch).map pack) := by
  obtain ⟨storage, hload, hqueue⟩ := h.stored epoch ⟨i, hi⟩
  rw [ShmWorld.received, h.generations.handle epoch i hi, Option.bind_some, SharedMemory.receive,
    hload, Option.map_some, Option.map_some, hqueue]

/-- The transport and the queues do the same operations. -/
theorem step (h : Refines pack handles world queues) {action : QueueAction ι μ}
    (htimely : queues.Timely action) :
    Option.Rel (fun world queues => ∃ handles, Refines pack handles world queues)
      (world.step (action.toShm pack)) (queues.step action) := by
  -- an object that is not alive can do nothing
  have hdead : ∀ {i}, ¬ queues.Alive i → world.transports i = none := fun {i} hi => by
    rwa [h.alive_iff, Bool.not_eq_true, Option.isSome_eq_false_iff, Option.isNone_iff_eq_none] at hi
  cases action with
  | construct i =>
    rw [EpochQueues.step, QueueAction.toShm]
    by_cases halive : queues.Alive i
    · obtain ⟨transport, hi⟩ := Option.isSome_iff_exists.mp (h.alive_iff.mp halive)
      rw [if_pos halive, ShmWorld.step, hi]
      exact .none
    · obtain ⟨handles', world', hstep, hrefines⟩ := h.construct (hdead halive)
      rw [if_neg halive, hstep]
      exact .some ⟨handles', hrefines⟩
  | destruct i =>
    rw [EpochQueues.step, QueueAction.toShm]
    by_cases halive : queues.Alive i
    · obtain ⟨epoch, -, hi⟩ := id halive
      obtain ⟨world', hstep, hrefines⟩ := h.destruct hi htimely
      rw [if_pos halive, hstep]
      exact .some ⟨handles, hrefines⟩
    · rw [if_neg halive, ShmWorld.step, hdead halive]
      exact .none
  | send i message =>
    rw [EpochQueues.step, QueueAction.toShm]
    by_cases halive : queues.Alive i
    · obtain ⟨epoch, -, hi⟩ := id halive
      obtain ⟨storage, hload, hqueue⟩ := h.stored epoch ⟨i, hi⟩
      rw [if_pos halive, ShmWorld.step, h.generations.handle epoch i hi, Option.bind_some,
        SharedMemory.send, hload]
      refine .some ⟨handles, h.change hi ?_⟩
      rw [List.map_append, hqueue, List.map_append]
      rfl
    · rw [if_neg halive, ShmWorld.step, hdead halive]
      exact .none
  | receive i =>
    rw [EpochQueues.step, QueueAction.toShm]
    by_cases halive : queues.Alive i
    · obtain ⟨epoch, -, hi⟩ := id halive
      obtain ⟨storage, hload, -⟩ := h.stored epoch ⟨i, hi⟩
      rw [if_pos halive, ShmWorld.step, h.generations.handle epoch i hi, Option.bind_some,
        SharedMemory.receive, hload]
      exact .some ⟨handles, h.change hi rfl⟩
    · rw [if_neg halive, ShmWorld.step, hdead halive]
      exact .none
  | destroy =>
    refine .some ⟨handles, h.generations.destroy, fun epoch hlive => ?_⟩
    exact h.stored_of_frame (.of_packetStorage rfl fun _ => rfl) hlive

end Refines

/-- The transport and the queues, after every run whose destructors are timely. -/
theorem run_refines (pack : μ → Packet) {start : ShmWorld ι} {actions : List (QueueAction ι μ)}
    (hunbound : start.memory.segments.bound = none) (hnone : ∀ i, start.transports i = none)
    (htimely : Transition.Meets step Timely .start actions) :
    Option.Rel (fun world queues => ∃ handles, Refines pack handles world queues)
      (Transition.run ShmWorld.step start (actions.map (QueueAction.toShm pack)))
      (Transition.run step .start actions) := by
  rw [Transition.run_map]
  refine Transition.run_lockstep (fun world queues action h htimely => ?_) ?_ htimely
  · obtain ⟨handles, h⟩ := h
    exact h.step htimely
  · refine ⟨fun _ => ⟨0, 0, ⟨0, 0⟩, ⟨0, 0⟩⟩, ShmWorld.generations_start hunbound hnone _, ?_⟩
    exact fun epoch hlive => absurd rfl hlive.ne_empty

end EpochQueues

/-- **One queue for every epoch.** From a start without objects and without a segment, in every run of
constructions, destructions, sends, receives and calls of `Destroy` in which no destructor ends the last
object of an earlier epoch while one of the current epoch is alive: the transport can do what the queues
can do and nothing else; at the end the live objects are the same, a `Receive` returns the queue of the
object's epoch, and two objects are attached to the same segment exactly if they are of the same
epoch. -/
theorem one_queue_per_epoch {ι : Type*} [DecidableEq ι] (start : ShmWorld ι)
    (actions : List (QueueAction ι Packet)) (hunbound : start.memory.segments.bound = none)
    (hnone : ∀ i, start.transports i = none)
    (htimely : Transition.Meets EpochQueues.step EpochQueues.Timely .start actions) :
    Option.Rel (fun world queues =>
        (∀ i, (world.transports i).isSome = true ↔ queues.Alive i) ∧
        (∀ epoch, ∀ i ∈ queues.epochs.live epoch,
          world.received i = some (queues.queue epoch)) ∧
        ∀ epoch other, ∀ i ∈ queues.epochs.live epoch, ∀ j ∈ queues.epochs.live other, ∀ segment,
          world.attachedTo i segment = true →
            (world.attachedTo j segment = true ↔ epoch = other))
      (Transition.run ShmWorld.step start (actions.map (QueueAction.toShm id)))
      (Transition.run EpochQueues.step .start actions) := by
  refine Transition.rel_imp ?_ (EpochQueues.run_refines id hunbound hnone htimely)
  rintro world queues ⟨handles, h⟩
  refine ⟨fun i => h.alive_iff.symm, fun epoch i hi => ?_, fun epoch other i hi j hj segment => ?_⟩
  · rw [h.received_eq hi, List.map_id]
  · rw [h.generations.attachedTo_iff hi, h.generations.attachedTo_iff hj]
    rintro rfl
    constructor
    · exact fun heq => h.generations.apart epoch other ⟨i, hi⟩ ⟨j, hj⟩ heq.symm
    · rintro rfl
      rfl

/-- The tool runs between two objects, and each finds its own packets. -/
theorem one_queue_per_epoch_release :
    ∃ world, Transition.run ShmWorld.step (⟨.empty, fun _ => none⟩ : ShmWorld (Fin 3))
        [.construct 0, .call (.send 0 ⟨[65], [1]⟩), .construct 1, .destroy, .destruct 1,
          .construct 2, .call (.send 2 ⟨[66], [2]⟩)] = some world ∧
      world.received 0 = some [⟨[65], [1]⟩] ∧ world.received 2 = some [⟨[66], [2]⟩] := by
  obtain ⟨queues, hqueues, hfirst, hfirstQueue, hlast, hlastQueue⟩ :
      ∃ queues : EpochQueues (Fin 3) Packet, Transition.run EpochQueues.step .start
          [.construct 0, .send 0 ⟨[65], [1]⟩, .construct 1, .destroy, .destruct 1, .construct 2,
            .send 2 ⟨[66], [2]⟩] = some queues ∧
        0 ∈ queues.epochs.live 0 ∧ queues.queue 0 = [⟨[65], [1]⟩] ∧
        2 ∈ queues.epochs.live 1 ∧ queues.queue 1 = [⟨[66], [2]⟩] :=
    ⟨_, rfl, by decide, rfl, by decide, rfl⟩
  have h := one_queue_per_epoch (⟨.empty, fun _ => none⟩ : ShmWorld (Fin 3))
    [.construct 0, .send 0 ⟨[65], [1]⟩, .construct 1, .destroy, .destruct 1, .construct 2,
      .send 2 ⟨[66], [2]⟩] rfl (fun _ => rfl) (by decide)
  rw [hqueues] at h
  obtain ⟨world, hworld, h⟩ := Transition.exists_of_rel_some h
  exact ⟨world, hworld, hfirstQueue ▸ h.2.1 0 0 hfirst, hlastQueue ▸ h.2.1 1 2 hlast⟩

end Contra
