import Contra.Foundation.Vec
import Contra.SharedMemoryLifecycle

/-! # `Send` and `Receive` when memory runs out

`SharedMemoryTransport::Send` and `Receive` once more, allocation by allocation. The buffers of the
stored packets, of the temporary that `Send` makes and of the packet vector come from the segment, those
of the received packets from the heap; each allocation may be refused, and an exception unwinds through
the destructors of the local objects and of the lock.

`send_spec` and `receive_spec` are the two operations with everything that is live before and after
them, and `send_receive_all_or_nothing` puts them together. `send_refines` and `receive_refines` lead
back to the operations on whole packets. -/

namespace Contra

open Allocation

/-! ## The data -/

/-- Where memory comes from. -/
inductive Pool where
  /-- The segment manager of the shared memory segment. -/
  | segment
  /-- The heap of the process. -/
  | heap
  deriving DecidableEq

/-- A packet with its buffers; the schema may lie in the object itself. -/
structure BufferedPacket (inlineSize : ℕ) where
  /-- `schema`. -/
  schema : Vec Pool UInt8 inlineSize
  /-- `data`. -/
  data : Vec Pool UInt8 0

namespace BufferedPacket

variable {inlineSize : ℕ} (grants : ℕ → Bool)

/-- The bytes of the packet. -/
def toPacket (packet : BufferedPacket inlineSize) : Packet :=
  ⟨packet.schema.elements, packet.data.elements⟩

/-- The buffers of the packet. -/
def buffers (packet : BufferedPacket inlineSize) : Multiset (Block Pool) :=
  packet.schema.buffer + packet.data.buffer

variable {ρ : Type}

/-- Aggregate initialization from two ranges: the schema, then the data. -/
def construct (pool : Pool) (schema data : List UInt8) :
    Program Pool ρ (BufferedPacket inlineSize) := do
  let schema ← Vec.copy grants pool schema
  -- a schema that is constructed is destroyed when the data cannot be
  let data ← onFailure (Vec.copy grants pool data) schema.releaseBuffer
  return ⟨schema, data⟩

/-- The destructor: the members in reverse order. -/
def destroy (packet : BufferedPacket inlineSize) : Program Pool ρ Unit := do
  packet.data.releaseBuffer
  packet.schema.releaseBuffer

section Specifications

variable {grants : ℕ → Bool} {live : Multiset (Block Pool)} {content : ρ}

theorem construct_spec (pool : Pool) (schema data : List UInt8) :
    Triple grants (Owns live content) (construct grants pool schema data)
      (fun (packet : BufferedPacket inlineSize) arena =>
        (packet.toPacket = ⟨schema, data⟩ ∧ FromPool pool packet.buffers) ∧
        Owns (packet.buffers + live) content arena)
      (Owns live content) := by
  unfold construct
  refine (Vec.copy_spec schema).bind fun schemaVec => ?_
  apply Triple.of_fact
  rintro ⟨hschema, hschemaPool⟩
  refine ((Vec.copy_spec data).onFailure schemaVec.releaseBuffer_spec).bind fun dataVec => ?_
  apply Triple.of_fact
  rintro ⟨hdata, hdataPool⟩
  refine Triple.pure fun arena harena => ⟨⟨?_, ?_⟩, ?_⟩
  · rw [toPacket, hschema, hdata]
  · exact fromPool_add.mpr ⟨hschemaPool, hdataPool⟩
  · rw [buffers, add_assoc, add_left_comm]
    exact harena

theorem destroy_spec (packet : BufferedPacket inlineSize) (live : Multiset (Block Pool)) :
    Triple grants (Owns (packet.buffers + live) content) packet.destroy
      (fun _ => Owns live content) Never := by
  have hlive : packet.buffers + live = packet.data.buffer + (packet.schema.buffer + live) := by
    rw [buffers, add_assoc, add_left_comm]
  rw [hlive]
  exact packet.data.releaseBuffer_spec.bind fun _ => packet.schema.releaseBuffer_spec

end Specifications

end BufferedPacket

/-- `InternalPacket`, whose schema is a vector. -/
abbrev StoredPacket : Type := BufferedPacket 0

/-- What the mutex protects. -/
structure ShmContent where
  /-- Whether the mutex is held. -/
  locked : Bool
  /-- `*packet_storage_`. -/
  storage : Vec Pool StoredPacket 0

namespace ShmContent

/-- The packets in a storage. -/
def packets (storage : Vec Pool StoredPacket 0) : List InternalPacket :=
  storage.elements.map fun stored => .ofPacket stored.toPacket

/-- The buffer of the packet vector and those of the packets in it. -/
def footprint (content : ShmContent) : Multiset (Block Pool) :=
  content.storage.footprint BufferedPacket.buffers

/-! ## The operations -/

/-- The constructor of `ScopedLock`, once the mutex is free. -/
def lock : Program Pool ShmContent Unit := update fun content => { content with locked := true }

/-- The destructor of `ScopedLock`. -/
def unlock : Program Pool ShmContent Unit := update fun content => { content with locked := false }

/-- The scope of a `ScopedLock`. -/
def scopedLock {α : Type} (body : Program Pool ShmContent α) : Program Pool ShmContent α := do
  lock
  withRelease body unlock

/-- A new value for `*packet_storage_`. -/
def setStorage (storage : Vec Pool StoredPacket 0) : Program Pool ShmContent Unit :=
  update fun content => { content with storage := storage }

section Operations

variable (grants : ℕ → Bool) (spare : ℕ → ℕ)

/-- `packet_storage_->push_back(internal_packet)`, which copies the packet. -/
def appendCopy (internalPacket : StoredPacket) : Program Pool ShmContent Unit := do
  let content ← load
  let storage ← content.storage.pushBack grants .segment spare
    (BufferedPacket.construct grants .segment internalPacket.schema.elements
      internalPacket.data.elements)
  setStorage storage

/-- `Send`. -/
def send (packet : Packet) : Program Pool ShmContent Unit := scopedLock do
  let internalPacket : StoredPacket ←
    BufferedPacket.construct grants .segment packet.schema packet.data
  withRelease (appendCopy grants spare internalPacket) internalPacket.destroy

variable (inlineSize : ℕ)

/-- One round of the loop of `Receive`: a temporary is constructed and moved into the vector. -/
def receivePacket (receivedPackets : Vec Pool (BufferedPacket inlineSize) 0)
    (internalPacket : StoredPacket) :
    Program Pool ShmContent (Vec Pool (BufferedPacket inlineSize) 0) := do
  let packet : BufferedPacket inlineSize ←
    BufferedPacket.construct grants .heap internalPacket.schema.elements internalPacket.data.elements
  -- the temporary is left empty by the move, or destroyed if the vector cannot grow
  onFailure (receivedPackets.pushBack grants .heap spare (return packet)) packet.destroy

/-- The loop of `Receive`, with the packets received so far. -/
def receivePackets (receivedPackets : Vec Pool (BufferedPacket inlineSize) 0) :
    List StoredPacket → Program Pool ShmContent (Vec Pool (BufferedPacket inlineSize) 0)
  | [] => return receivedPackets
  | internalPacket :: rest => do
    -- an exception destroys what was received so far
    let receivedPackets ← onFailure
      (receivePacket grants spare inlineSize receivedPackets internalPacket)
      (receivedPackets.release BufferedPacket.destroy)
    receivePackets receivedPackets rest

/-- `Receive`. -/
def receive : Program Pool ShmContent (Vec Pool (BufferedPacket inlineSize) 0) := scopedLock do
  let content ← load
  let receivedPackets ← Vec.empty.reserve grants .heap content.storage.elements.length
  let receivedPackets ←
    receivePackets grants spare inlineSize receivedPackets content.storage.elements
  -- `packet_storage_->clear()`
  let storage ← content.storage.clear BufferedPacket.destroy
  setStorage storage
  return receivedPackets

end Operations

/-! ## Specifications -/

section Specifications

variable {grants : ℕ → Bool} {spare : ℕ → ℕ} {inlineSize : ℕ} {content : ShmContent}
  {storage : Vec Pool StoredPacket 0} {live : Multiset (Block Pool)}

/-- What a body does to the storage under the lock, it does with the mutex free before and after it. -/
theorem scopedLock_spec {α : Type} {body : Program Pool ShmContent α}
    {done : α → Vec Pool StoredPacket 0 → Prop}
    {blocks : α → Vec Pool StoredPacket 0 → Multiset (Block Pool)}
    (hbody : Triple grants (Owns live ⟨true, storage⟩) body
      (fun result arena => ∃ after, done result after ∧
        Owns (blocks result after) ⟨true, after⟩ arena)
      (Owns live ⟨true, storage⟩)) :
    Triple grants (Owns live ⟨false, storage⟩) (scopedLock body)
      (fun result arena => ∃ after, done result after ∧
        Owns (blocks result after) ⟨false, after⟩ arena)
      (Owns live ⟨false, storage⟩) := by
  unfold scopedLock
  refine (update_spec _).of_never.bind fun _ => hbody.withRelease (fun result => ?_) ?_
  · refine Triple.of_exists fun after => Triple.of_fact fun hdone => ?_
    refine (update_spec _).mono (fun _ => id) (fun _ arena harena => ?_) fun _ => id
    exact ⟨after, hdone, harena⟩
  · exact update_spec _

/-- A vector of stored packets has got one more packet, with buffers from the segment. -/
def Appended (packet : Packet) (before after : Vec Pool StoredPacket 0) : Prop :=
  ∃ stored : StoredPacket, (stored.toPacket = packet ∧ FromPool .segment stored.buffers) ∧
    Vec.Pushed .segment before after stored

/-- Appending a copy to the packet vector, all or nothing. -/
theorem appendCopy_spec {locked : Bool} (internalPacket : StoredPacket) :
    Triple grants (Owns (storage.footprint BufferedPacket.buffers + live) ⟨locked, storage⟩)
      (appendCopy grants spare internalPacket)
      (fun _ arena => ∃ after, Appended internalPacket.toPacket storage after ∧
        Owns (after.footprint BufferedPacket.buffers + live) ⟨locked, after⟩ arena)
      (Owns (storage.footprint BufferedPacket.buffers + live) ⟨locked, storage⟩) := by
  unfold appendCopy
  refine load_spec.of_never.bind fun loaded => Triple.of_fact fun hloaded => ?_
  subst hloaded
  rw [Vec.footprint, add_assoc]
  refine (storage.pushBack_spec fun live => BufferedPacket.construct_spec _ _ _).bind fun after => ?_
  refine Triple.of_exists fun stored => Triple.of_fact ?_
  rintro ⟨hstored, hpushed⟩
  refine ((update_spec _).mono (fun _ => id) (fun _ arena harena => ?_) fun _ => id).of_never
  rw [← Vec.footprint_of_append hpushed.1] at harena
  exact ⟨after, ⟨stored, hstored, hpushed⟩, harena⟩

/-- **`Send`** appends the packet, or throws and changes nothing. -/
theorem send_spec (packet : Packet) :
    Triple grants (Owns (storage.footprint BufferedPacket.buffers + live) ⟨false, storage⟩)
      (send grants spare packet)
      (fun _ arena => ∃ after, Appended packet storage after ∧
        Owns (after.footprint BufferedPacket.buffers + live) ⟨false, after⟩ arena)
      (Owns (storage.footprint BufferedPacket.buffers + live) ⟨false, storage⟩) := by
  unfold send
  refine scopedLock_spec ?_
  refine (BufferedPacket.construct_spec _ _ _).bind fun internalPacket => ?_
  apply Triple.of_fact
  rintro ⟨hpacket, -⟩
  -- the temporary is destroyed in both cases
  rw [add_left_comm]
  refine (appendCopy_spec internalPacket).withRelease (fun _ => ?_) ?_
  · refine Triple.of_exists fun after => Triple.of_fact fun happended => ?_
    rw [hpacket] at happended
    rw [add_left_comm]
    refine (internalPacket.destroy_spec _).mono (fun _ => id) (fun _ arena harena => ?_) fun _ => id
    exact ⟨after, happended, harena⟩
  · rw [add_left_comm]
    exact internalPacket.destroy_spec _

/-- A vector of received packets has got the given ones, all with buffers from the heap. -/
def CopiedOut (packets : List StoredPacket) (before after : Vec Pool (BufferedPacket inlineSize) 0) :
    Prop :=
  after.elements.map BufferedPacket.toPacket
      = before.elements.map BufferedPacket.toPacket ++ packets.map BufferedPacket.toPacket ∧
    (FromPool .heap (before.footprint BufferedPacket.buffers) →
      FromPool .heap (after.footprint BufferedPacket.buffers))

/-- One round of the loop of `Receive` copies one packet out, or throws and changes nothing. -/
theorem receivePacket_spec (receivedPackets : Vec Pool (BufferedPacket inlineSize) 0)
    (internalPacket : StoredPacket) :
    Triple grants (Owns (receivedPackets.footprint BufferedPacket.buffers + live) content)
      (receivePacket grants spare inlineSize receivedPackets internalPacket)
      (fun received arena => CopiedOut [internalPacket] receivedPackets received ∧
        Owns (received.footprint BufferedPacket.buffers + live) content arena)
      (Owns (receivedPackets.footprint BufferedPacket.buffers + live) content) := by
  unfold receivePacket
  refine (BufferedPacket.construct_spec _ _ _).bind fun packet => ?_
  apply Triple.of_fact
  rintro ⟨hpacket, hpool⟩
  have hlive : packet.buffers + (receivedPackets.footprint BufferedPacket.buffers + live)
      = receivedPackets.buffer + (packet.buffers +
        ((receivedPackets.elements.map BufferedPacket.buffers).sum + live)) := by
    rw [Vec.footprint, add_assoc, add_left_comm]
  rw [hlive]
  refine ((receivedPackets.pushBack_pure_spec packet).onFailure ?_).mono (fun _ => id)
    (fun received arena => ?_) fun _ => id
  · rw [← hlive]
    exact packet.destroy_spec _
  · rintro ⟨hpushed, harena⟩
    rw [← Vec.footprint_of_append hpushed.1] at harena
    refine ⟨⟨?_, fun hheap => hpushed.fromPool_footprint hheap hpool⟩, harena⟩
    rw [hpushed.1, List.map_append, List.map_singleton, hpacket]
    rfl

/-- The loop of `Receive` copies out every packet, or throws and leaves nothing behind. -/
theorem receivePackets_spec (receivedPackets : Vec Pool (BufferedPacket inlineSize) 0)
    (packets : List StoredPacket) :
    Triple grants (Owns (receivedPackets.footprint BufferedPacket.buffers + live) content)
      (receivePackets grants spare inlineSize receivedPackets packets)
      (fun received arena => CopiedOut packets receivedPackets received ∧
        Owns (received.footprint BufferedPacket.buffers + live) content arena)
      (Owns live content) := by
  induction packets generalizing receivedPackets with
  | nil =>
    refine Triple.pure fun arena harena => ⟨⟨?_, id⟩, harena⟩
    rw [List.map_nil, List.append_nil]
  | cons internalPacket rest ih =>
    unfold receivePackets
    refine ((receivePacket_spec receivedPackets internalPacket).onFailure
      (receivedPackets.release_spec BufferedPacket.destroy_spec)).bind fun received => ?_
    apply Triple.of_fact
    rintro ⟨hreceived, hpool⟩
    refine (ih received).mono (fun _ => id) (fun result arena => ?_) fun _ => id
    rintro ⟨⟨hresult, hpools⟩, harena⟩
    refine ⟨⟨?_, fun hheap => hpools (hpool hheap)⟩, harena⟩
    rw [hresult, hreceived, List.append_assoc, ← List.map_append, List.singleton_append]

/-- A vector of stored packets is empty and has kept its buffer. -/
def Emptied (before after : Vec Pool StoredPacket 0) : Prop :=
  after.elements = [] ∧ after.block = before.block

/-- A vector of packets from the heap holds what is stored. -/
def Returned (storage : Vec Pool StoredPacket 0) (received : Vec Pool (BufferedPacket inlineSize) 0) :
    Prop :=
  received.elements.map BufferedPacket.toPacket = storage.elements.map BufferedPacket.toPacket ∧
    FromPool .heap (received.footprint BufferedPacket.buffers)

/-- **`Receive`** returns all packets and destroys the stored ones, or throws and changes nothing. -/
theorem receive_spec :
    Triple grants (Owns (storage.footprint BufferedPacket.buffers + live) ⟨false, storage⟩)
      (receive grants spare inlineSize)
      (fun received arena => ∃ after, (Emptied storage after ∧ Returned storage received) ∧
        Owns (received.footprint BufferedPacket.buffers
          + (after.footprint BufferedPacket.buffers + live)) ⟨false, after⟩ arena)
      (Owns (storage.footprint BufferedPacket.buffers + live) ⟨false, storage⟩) := by
  unfold receive
  refine scopedLock_spec ?_
  refine load_spec.of_never.bind fun loaded => Triple.of_fact fun hloaded => ?_
  subst hloaded
  -- the vector of received packets: empty at first, then with room for all of them
  have hempty : (Vec.empty : Vec Pool (BufferedPacket inlineSize) 0).buffer
      + (storage.footprint BufferedPacket.buffers + live)
      = storage.footprint BufferedPacket.buffers + live := zero_add _
  rw [← hempty]
  refine (Vec.reserve_spec _ _).bind fun reserved => ?_
  apply Triple.of_fact
  rintro ⟨hreserved, -, hreservedPool⟩
  have hbuffer : reserved.footprint BufferedPacket.buffers = reserved.buffer :=
    Vec.footprint_of_nil hreserved
  rw [hempty, ← hbuffer]
  refine (receivePackets_spec reserved _).bind fun received => ?_
  apply Triple.of_fact
  rintro ⟨hreceived, hpool⟩
  -- from here on nothing can throw
  refine Triple.of_never ?_
  rw [add_left_comm]
  refine (storage.clear_spec BufferedPacket.destroy_spec).bind fun after => ?_
  refine Triple.of_fact fun helements => Triple.of_fact fun hblock => ?_
  refine (update_spec _).bind fun _ => Triple.pure fun arena harena => ?_
  refine ⟨after, ⟨⟨helements, hblock⟩, ?_, hpool ?_⟩, ?_⟩
  · rw [hreceived, hreserved]
    rfl
  · rw [hbuffer]
    exact hreservedPool fromPool_zero
  · rw [add_left_comm]
    exact harena

end Specifications

/-! ## Back to whole packets -/

section Refinement

variable {ι : Type*} {memory : SharedMemory ι} {transport : SharedMemoryTransport} {count : ℤ}
  {storage after : Vec Pool StoredPacket 0}

/-- A `Send` that succeeds is the `Send` of whole packets. -/
theorem send_refines {packet : Packet} (hstores : memory.Stores transport (packets storage) count)
    (h : Appended packet storage after) : ∃ memory', memory.send transport packet = some memory' ∧
      memory'.Stores transport (packets after) count := by
  obtain ⟨stored, ⟨hstored, -⟩, hpushed⟩ := h
  have hpackets : packets after = packets storage ++ [.ofPacket packet] := by
    rw [packets, packets, hpushed.1, List.map_append, List.map_singleton, hstored]
  refine ⟨_, hstores.send packet, ?_⟩
  rw [hpackets]
  exact hstores.storePacketStorage _

/-- A `Receive` that succeeds is the `Receive` of whole packets. -/
theorem receive_refines (hstores : memory.Stores transport (packets storage) count)
    (h : Emptied storage after) : ∃ memory', memory.receive transport
        = some (storage.elements.map BufferedPacket.toPacket, memory') ∧
      memory'.Stores transport (packets after) count := by
  have hpackets : packets after = [] := by
    rw [packets, h.1]
    rfl
  have hreceived : (packets storage).map InternalPacket.toPacket
      = storage.elements.map BufferedPacket.toPacket := by
    rw [packets, List.map_map]
    rfl
  refine ⟨_, by rw [hstores.receive, hreceived], ?_⟩
  rw [hpackets]
  exact hstores.storePacketStorage _

end Refinement

/-! ## Runs -/

/-- An operation, with the allocations in it that succeed. -/
inductive Attempt where
  /-- `Send`. -/
  | send (grants : ℕ → Bool) (packet : Packet)
  /-- `Receive`. -/
  | receive (grants : ℕ → Bool)

/-- The arena after an operation, whether it succeeds or throws; `none` after an invalid free. -/
def attempt (spare : ℕ → ℕ) (inlineSize : ℕ) (arena : Arena Pool ShmContent) :
    Attempt → Option (Arena Pool ShmContent)
  | .send grants packet =>
    match send grants spare packet arena with
    | .ok _ after => some after
    | .error .badAlloc after => some after
    | .error .invalidFree _ => none
  | .receive grants =>
    match receive grants spare inlineSize arena with
    | .ok _ after => some after
    | .error .badAlloc after => some after
    | .error .invalidFree _ => none

/-- An arena with a free mutex, as the specifications have it. -/
theorem owns_of_unlocked {arena : Arena Pool ShmContent} {others : Multiset (Block Pool)}
    (hunlocked : arena.content.locked = false)
    (hlive : arena.live = arena.content.footprint + others) :
    Owns (arena.content.storage.footprint BufferedPacket.buffers + others)
      ⟨false, arena.content.storage⟩ arena :=
  ⟨hlive, by rw [← hunlocked]⟩

end ShmContent

open ShmContent

/-- **All or nothing.** With any stored packets, any capacity and any choice of the allocations that
fail: a `Send` that throws leaves the packets, the live blocks and the free mutex as they were; one that
succeeds appends the packet, with buffers from the segment, and what is live then is the buffer of the
vector, those of the earlier packets, those of the new one and what did not belong to the storage. A
`Receive` that throws changes nothing either, and a later one returns all packets; one that succeeds has
given back every buffer of the packets it removed, and what it returns is on the heap. Neither throws
when every allocation succeeds. -/
theorem send_receive_all_or_nothing (grants : ℕ → Bool) (spare : ℕ → ℕ) (inlineSize : ℕ)
    (arena : Arena Pool ShmContent) (frame : Multiset (Block Pool))
    (hunlocked : arena.content.locked = false)
    (hlive : arena.live = arena.content.footprint + frame) :
    (∀ packet failure after, send grants spare packet arena = .error failure after →
      failure = .badAlloc ∧ after.content = arena.content ∧ after.live = arena.live) ∧
    (∀ packet after, send grants spare packet arena = .ok () after →
      after.content.locked = false ∧ ∃ stored : StoredPacket, stored.toPacket = packet ∧
        after.content.storage.elements = arena.content.storage.elements ++ [stored] ∧
        after.live = after.content.storage.buffer
          + (arena.content.storage.elements.map BufferedPacket.buffers).sum
          + (stored.schema.buffer + stored.data.buffer) + frame ∧
        FromPool .segment (stored.schema.buffer + stored.data.buffer) ∧
        (FromPool .segment arena.content.storage.buffer →
          FromPool .segment after.content.storage.buffer)) ∧
    (∀ failure after, receive grants spare inlineSize arena = .error failure after →
      failure = .badAlloc ∧ after.content = arena.content ∧ after.live = arena.live ∧
      ∀ granted : ℕ → Bool, (∀ request, granted request = true) → ∃ received later,
        receive granted spare inlineSize after = .ok received later ∧
        received.elements.map BufferedPacket.toPacket
          = arena.content.storage.elements.map BufferedPacket.toPacket) ∧
    (∀ received after, receive grants spare inlineSize arena = .ok received after →
      after.content.locked = false ∧ after.content.storage.elements = [] ∧
      received.elements.map BufferedPacket.toPacket
        = arena.content.storage.elements.map BufferedPacket.toPacket ∧
      after.live = after.content.storage.buffer + received.footprint BufferedPacket.buffers
        + frame ∧
      after.content.storage.buffer = arena.content.storage.buffer ∧
      FromPool .heap (received.footprint BufferedPacket.buffers)) ∧
    ((∀ request, grants request = true) →
      (∀ packet, ∃ after, send grants spare packet arena = .ok () after) ∧
      ∃ received after, receive grants spare inlineSize arena = .ok received after) := by
  have howns := owns_of_unlocked hunlocked hlive
  have hcontent : (⟨false, arena.content.storage⟩ : ShmContent) = arena.content := by
    rw [← hunlocked]
  refine ⟨fun packet failure after herror => ?_, fun packet after hok => ?_,
    fun failure after herror => ?_, fun received after hok => ?_,
    fun hgranted => ⟨fun packet => ?_, ?_⟩⟩
  · obtain ⟨hfailure, -, hlive', hcontent'⟩ := (send_spec packet).of_error howns herror
    exact ⟨hfailure, hcontent'.trans hcontent, hlive'.trans hlive.symm⟩
  · obtain ⟨storage, ⟨stored, ⟨hstored, hpool⟩, hpushed⟩, hlive', hcontent'⟩ :=
      (send_spec packet).of_ok howns hok
    rw [hcontent']
    refine ⟨rfl, stored, hstored, hpushed.1, ?_, hpool, hpushed.2⟩
    rw [hlive', Vec.footprint_of_append hpushed.1, BufferedPacket.buffers]
    ac_rfl
  · obtain ⟨hfailure, -, hafter⟩ := receive_spec.of_error howns herror
    refine ⟨hfailure, hafter.2.trans hcontent, hafter.1.trans hlive.symm, fun granted hgranted => ?_⟩
    obtain ⟨received, later, hlater, storage, ⟨-, hreceived, -⟩, -⟩ :=
      receive_spec.exists_ok hgranted hafter
    exact ⟨received, later, hlater, hreceived⟩
  · obtain ⟨storage, ⟨⟨helements, hblock⟩, hreceived, hpool⟩, hlive', hcontent'⟩ :=
      receive_spec.of_ok howns hok
    rw [hcontent']
    refine ⟨rfl, helements, hreceived, ?_, by rw [Vec.buffer, Vec.buffer, hblock], hpool⟩
    rw [hlive', Vec.footprint_of_nil helements]
    ac_rfl
  · obtain ⟨⟨⟩, after, hsend, -⟩ := (send_spec packet).exists_ok hgranted howns
    exact ⟨after, hsend⟩
  · obtain ⟨received, after, hreceive, -⟩ := receive_spec.exists_ok hgranted howns
    exact ⟨received, after, hreceive⟩

/-- The second `Send` has constructed its packet and has got a larger buffer for the vector when the
copy of the schema fails. -/
theorem send_receive_all_or_nothing_growth :
    ∃ first second, send (fun _ => true) id ⟨[65], [1]⟩ (.start ⟨false, .empty⟩) = .ok () first ∧
      send (fun request => request != 8) id ⟨[66], [2]⟩ first = .error .badAlloc second ∧
      second.content = first.content ∧ second.live = first.live := by
  refine ⟨_, _, rfl, rfl, ?_⟩
  exact ((send_receive_all_or_nothing (fun request => request != 8) id 15 _ 0 rfl (by decide)).1
    ⟨[66], [2]⟩ .badAlloc _ rfl).2

end Contra
