import Contra.EpochQueues
import Contra.FileDelivery
import Contra.ZmqDelivery

/-! # The relay (`relay.hpp`)

`Relay` sends conduit nodes over a transport: `CreatePacket` turns a node into a packet, and `CreateNode`
a packet into a node. What it uses of conduit is the parameter `Conduit`, and its template parameter is
`Transport`. A node may come back changed, or its packet may make the constructor of the node throw, after
the transport has returned it; `Relay.copy` is what becomes of a node.

* `relay_over_shared_memory`: a `Receive` returns copies of the nodes in the queue of the object's epoch,
  and takes them even if it throws;
* `relay_over_file`: it returns copies of the nodes since the last first send, as often as it is called;
* `relay_over_zmq`: it returns copies of the nodes whose messages the socket gave it. -/

namespace Contra

open FifoNetwork

/-! ## The class -/

/-- What `Relay` uses of conduit. -/
structure Conduit (Node Schema : Type*) where
  /-- `Node::schema`. -/
  schema : Node → Schema
  /-- `Schema::compact_to`. -/
  compactTo : Schema → Schema
  /-- `Schema::to_json`. -/
  toJson : Schema → List UInt8
  /-- `Node::serialize`. -/
  serialize : Node → List UInt8
  /-- The constructor from a schema and data, which it copies; `none` where it throws. -/
  node : List UInt8 → List UInt8 → Option Node

/-- What `Send` and `Receive` of the transport objects do to the state they share; `none` where they do
not return. -/
structure Transport (ι σ : Type*) where
  /-- `Send`. -/
  send : ι → Packet → σ → Option σ
  /-- `Receive`. -/
  receive : ι → σ → Option (List Packet × σ)

namespace Relay

variable {ι σ Node Schema β : Type*} (conduit : Conduit Node Schema) (transport : Transport ι σ)

/-- `CreatePacket`. -/
def createPacket (node : Node) : Packet where
  schema := conduit.toJson (conduit.compactTo (conduit.schema node))
  data := conduit.serialize node

/-- `CreateNode`. -/
def createNode (packet : Packet) : Option Node := conduit.node packet.schema packet.data

/-- `Send`. -/
def send (i : ι) (node : Node) (state : σ) : Option σ :=
  transport.send i (createPacket conduit node) state

/-- `Receive`, with no nodes where a `CreateNode` throws; the transport has returned by then. -/
def receive (i : ι) (state : σ) : Option (Option (List Node) × σ) :=
  (transport.receive i state).map fun (packets, state) =>
    (packets.mapM (createNode conduit), state)

/-- What becomes of a node on its way. -/
def copy (node : Node) : Option Node := createNode conduit (createPacket conduit node)

/-- The node arrives with the same content. -/
def Lossless (content : Node → β) (node : Node) : Prop :=
  ∃ received, copy conduit node = some received ∧ content received = content node

variable {conduit}

/-- The packets of nodes make the copies of the nodes. -/
theorem mapM_createNode (nodes : List Node) :
    (nodes.map (createPacket conduit)).mapM (createNode conduit) = nodes.mapM (copy conduit) :=
  List.mapM_map

/-- What a `Receive` makes of the packets of nodes. -/
theorem receive_of_transport {transport : Transport ι σ} {i : ι} {state next : σ} {nodes : List Node}
    (h : transport.receive i state = some (nodes.map (createPacket conduit), next)) :
    receive conduit transport i state = some (nodes.mapM (copy conduit), next) := by
  simp only [receive, h, Option.map_some, mapM_createNode]

/-- When all nodes arrive, their contents do, in order. -/
theorem exists_copies {content : Node → β} {nodes : List Node}
    (h : ∀ node ∈ nodes, Lossless conduit content node) :
    ∃ received, nodes.mapM (copy conduit) = some received ∧
      received.map content = nodes.map content := by
  induction nodes with
  | nil => exact ⟨[], rfl, rfl⟩
  | cons node nodes ih =>
    obtain ⟨received, hcopy, hcontent⟩ := h node List.mem_cons_self
    obtain ⟨rest, hrest, hcontents⟩ := ih fun other hmem => h other (List.mem_cons_of_mem _ hmem)
    refine ⟨received :: rest, by simp [hcopy, hrest], ?_⟩
    rw [List.map_cons, List.map_cons, hcontent, hcontents]

end Relay

/-- Nodes that are arrays of bytes; the constructor refuses data of another length. -/
def Conduit.bytes : Conduit (List UInt8) ℕ where
  schema node := node.length
  compactTo schema := schema
  toJson schema := List.replicate schema 98
  serialize node := node
  node schema data := if schema.length = data.length then some data else none

/-! ## Over shared memory -/

namespace ShmWorld

variable {ι Node Schema : Type*} [DecidableEq ι]

/-- `SharedMemoryTransport` as the template parameter. -/
def transport : Transport ι (ShmWorld ι) where
  send i packet world := world.step (.call (.send i packet))
  receive i world := (world.received i).bind fun packets =>
    (world.step (.call (.receive i))).map fun world => (packets, world)

/-- A `Receive` takes what is stored. -/
theorem transport_receive {world : ShmWorld ι} {i : ι} {handle : SharedMemoryTransport}
    {storage : List InternalPacket} (hi : world.transports i = some handle)
    (hload : world.memory.loadPacketStorage handle.packetStorage = some storage) :
    transport.receive i world = some (storage.map InternalPacket.toPacket,
      ⟨world.memory.storePacketStorage handle.packetStorage [], world.transports⟩) := by
  simp [transport, received, step, hi, SharedMemory.receive, hload]

/-- One operation on relays over shared memory. -/
def relayStep (conduit : Conduit Node Schema) (world : ShmWorld ι) :
    QueueAction ι Node → Option (ShmWorld ι)
  -- the relay's only member is the transport
  | .construct i => world.step (.construct i)
  | .destruct i => world.step (.destruct i)
  | .send i node => Relay.send conduit transport i node world
  | .receive i => (Relay.receive conduit transport i world).map Prod.snd
  | .destroy => world.step .destroy

/-- To the shared memory, a relay is its transport. -/
theorem relayStep_eq (conduit : Conduit Node Schema) (world : ShmWorld ι)
    (action : QueueAction ι Node) : world.relayStep conduit action
      = world.step (action.toShm (Relay.createPacket conduit)) := by
  cases action with
  | receive i =>
    simp only [relayStep, Relay.receive, transport, received, QueueAction.toShm, step]
    cases world.transports i with
    | none => rfl
    | some handle => cases hreceive : world.memory.receive handle <;> simp [hreceive]
  | _ => rfl

end ShmWorld

/-- **The relay over shared memory.** From a start without objects and without a segment, in every run of
relays whose destructors are timely: the relays can do what queues of nodes can do and nothing else; at the
end, a `Receive` returns the copies of the nodes in the queue of the object's epoch, and throws if one of
them has none; either way the nodes are gone, and the next `Receive` returns nothing. If all of them arrive,
it returns their contents, in order. -/
theorem relay_over_shared_memory {ι Node Schema β : Type*} [DecidableEq ι]
    (conduit : Conduit Node Schema) (content : Node → β) (start : ShmWorld ι)
    (actions : List (QueueAction ι Node)) (hunbound : start.memory.segments.bound = none)
    (hnone : ∀ i, start.transports i = none)
    (htimely : Transition.Meets EpochQueues.step EpochQueues.Timely .start actions) :
    Option.Rel (fun world queues => ∀ epoch, ∀ i ∈ queues.epochs.live epoch,
        (∃ taken,
          Relay.receive conduit ShmWorld.transport i world
            = some ((queues.queue epoch).mapM (Relay.copy conduit), taken) ∧
          Relay.receive conduit ShmWorld.transport i taken = some (some [], taken)) ∧
        ((∀ node ∈ queues.queue epoch, Relay.Lossless conduit content node) →
          ∃ nodes, (queues.queue epoch).mapM (Relay.copy conduit) = some nodes ∧
            nodes.map content = (queues.queue epoch).map content))
      (Transition.run (ShmWorld.relayStep conduit) start actions)
      (Transition.run EpochQueues.step .start actions) := by
  have hstep : ShmWorld.relayStep conduit = fun (world : ShmWorld ι) action =>
      world.step (action.toShm (Relay.createPacket conduit)) := by
    funext world action
    exact world.relayStep_eq conduit action
  rw [hstep, ← Transition.run_map]
  refine Transition.rel_imp ?_
    (EpochQueues.run_refines (Relay.createPacket conduit) hunbound hnone htimely)
  rintro world queues ⟨handles, h⟩ epoch i hi
  obtain ⟨storage, hload, hqueue⟩ := h.stored epoch ⟨i, hi⟩
  have hhandle := h.generations.handle epoch i hi
  have hempty := SharedMemory.load_storePacketStorage_self world.memory
    (handles epoch).packetStorage []
  obtain ⟨taken, htaken⟩ : ∃ taken : ShmWorld ι, taken
      = ⟨world.memory.storePacketStorage (handles epoch).packetStorage [], world.transports⟩ :=
    ⟨_, rfl⟩
  have hfirst : ShmWorld.transport.receive i world
      = some ((queues.queue epoch).map (Relay.createPacket conduit), taken) := by
    rw [ShmWorld.transport_receive hhandle hload, hqueue, htaken]
  have hsecond : ShmWorld.transport.receive i taken
      = some (([] : List Node).map (Relay.createPacket conduit), taken) := by
    rw [htaken, ShmWorld.transport_receive (by exact hhandle) hempty,
      SharedMemory.storePacketStorage_self hempty]
    rfl
  exact ⟨⟨taken, Relay.receive_of_transport hfirst, Relay.receive_of_transport hsecond⟩,
    Relay.exists_copies⟩

/-- The sender goes before its node is received; the receiver gets it once. -/
theorem relay_over_shared_memory_pending :
    ∃ world taken, Transition.run (ShmWorld.relayStep Conduit.bytes)
        (⟨.empty, fun _ => none⟩ : ShmWorld Bool)
        [.construct true, .send true [1, 2], .construct false, .destruct true] = some world ∧
      Relay.receive Conduit.bytes ShmWorld.transport false world = some (some [[1, 2]], taken) ∧
      Relay.receive Conduit.bytes ShmWorld.transport false taken = some (some [], taken) := by
  obtain ⟨queues, hqueues, hlive, hqueue⟩ : ∃ queues : EpochQueues Bool (List UInt8),
      Transition.run EpochQueues.step .start
          [.construct true, .send true [1, 2], .construct false, .destruct true] = some queues ∧
        false ∈ queues.epochs.live 0 ∧ queues.queue 0 = [[1, 2]] := ⟨_, rfl, by decide, rfl⟩
  have h := relay_over_shared_memory Conduit.bytes (fun node => node)
    (⟨.empty, fun _ => none⟩ : ShmWorld Bool)
    [.construct true, .send true [1, 2], .construct false, .destruct true] rfl (fun _ => rfl)
    (by decide)
  rw [hqueues] at h
  obtain ⟨world, hworld, h⟩ := Transition.exists_of_rel_some h
  obtain ⟨⟨taken, hfirst, hsecond⟩, -⟩ := h 0 false hlive
  rw [hqueue] at hfirst
  exact ⟨world, taken, hworld, hfirst, hsecond⟩

/-! ## Over a file -/

/-- A call of a relay. -/
inductive RelayCall (ι Node : Type*) where
  /-- `Send`. -/
  | send (i : ι) (node : Node)
  /-- `Receive`. -/
  | receive (i : ι)

namespace RelayCall

variable {ι Node Schema : Type*} (conduit : Conduit Node Schema)

/-- The call of the transport. -/
def toCall : RelayCall ι Node → Call ι
  | .send i node => .send i (Relay.createPacket conduit node)
  | .receive i => .receive i

variable {conduit} in
/-- The sends of the transport are those of the relay. -/
theorem send_mem_map_toCall {calls : List (RelayCall ι Node)} {i : ι} {packet : Packet} :
    Call.send i packet ∈ calls.map (toCall conduit) ↔
      ∃ node, send i node ∈ calls ∧ Relay.createPacket conduit node = packet := by
  rw [List.mem_map]
  constructor
  · rintro ⟨call, hmem, heq⟩
    cases call with
    | send j node =>
      obtain ⟨rfl, hpacket⟩ := Call.send.inj heq
      exact ⟨node, hmem, hpacket⟩
    | receive j => cases heq
  · rintro ⟨node, hmem, rfl⟩
    exact ⟨send i node, hmem, rfl⟩

variable [DecidableEq ι]

/-- The nodes sent since, and including, the most recent send that was the first send of its object;
the newest call comes first. -/
def sinceFirstSend : List (RelayCall ι Node) → List Node
  | [] => []
  | .send i node :: earlier =>
    if Call.hasSent i (earlier.map (toCall conduit)) then sinceFirstSend earlier ++ [node]
    else [node]
  | .receive _ :: earlier => sinceFirstSend earlier

/-- Their packets are those of the calls of the transport. -/
theorem sinceFirstSend_toCall (earlier : List (RelayCall ι Node)) :
    Call.sinceFirstSend (earlier.map (toCall conduit))
      = (sinceFirstSend conduit earlier).map (Relay.createPacket conduit) := by
  induction earlier with
  | nil => rfl
  | cons call earlier ih =>
    cases call with
    | receive i => exact ih
    | send i node =>
      rw [List.map_cons, toCall, Call.sinceFirstSend, sinceFirstSend, ih]
      split <;> simp

end RelayCall

namespace FileWorld

variable {ι Node Schema : Type*} [DecidableEq ι]

/-- `FileTransport` as the template parameter. -/
def transport (fits : ℕ → Bool) : Transport ι (FileWorld ι) where
  send i packet world := world.step fits (.send i packet)
  receive i world :=
    match (world.transports i).receive fits world.disk with
    | .ok packets => some (packets, world)
    | .error _ => none

theorem transport_receive {fits : ℕ → Bool} {world : FileWorld ι} {i : ι} {packets : List Packet}
    (h : (world.transports i).receive fits world.disk = .ok packets) :
    (transport fits).receive i world = some (packets, world) := by
  simp only [transport, h]

/-- One call of a relay over a file. -/
def relayStep (conduit : Conduit Node Schema) (fits : ℕ → Bool) (world : FileWorld ι) :
    RelayCall ι Node → Option (FileWorld ι)
  | .send i node => Relay.send conduit (transport fits) i node world
  | .receive i => (Relay.receive conduit (transport fits) i world).map Prod.snd

/-- To the file, a relay is its transport. -/
theorem relayStep_eq (conduit : Conduit Node Schema) (fits : ℕ → Bool) (world : FileWorld ι)
    (call : RelayCall ι Node) :
    world.relayStep conduit fits call = world.step fits (call.toCall conduit) := by
  cases call with
  | send i node => rfl
  | receive i =>
    simp only [relayStep, Relay.receive, transport, RelayCall.toCall, step]
    cases (world.transports i).receive fits world.disk <;> rfl

end FileWorld

/-- **The relay over a file.** After every run of completed calls of relays on one filename with a send
in it: a `Receive` returns the copies of the nodes sent since the last first send of a relay, and throws if
one of them has none; either way the file is as before, and the next `Receive` does the same. If all of
them arrive, it returns their contents, in order. -/
theorem relay_over_file {ι Node Schema β : Type*} [DecidableEq ι] (conduit : Conduit Node Schema)
    (content : Node → β) (filename : String) (start world : FileWorld ι)
    (calls : List (RelayCall ι Node)) (hfresh : ∀ i, start.transports i = ⟨filename, true⟩)
    (hsized : ∀ i node, RelayCall.send i node ∈ calls →
      (Relay.createPacket conduit node).schema.length
        + (Relay.createPacket conduit node).data.length + 16 < 2 ^ 63)
    (hrun : Transition.run (FileWorld.relayStep conduit addressable) start calls = some world)
    (hsent : ∃ i node, RelayCall.send i node ∈ calls) (i : ι) :
    Relay.receive conduit (FileWorld.transport addressable) i world
      = some ((RelayCall.sinceFirstSend conduit calls.reverse).mapM (Relay.copy conduit), world) ∧
    ((∀ node ∈ RelayCall.sinceFirstSend conduit calls.reverse,
        Relay.Lossless conduit content node) →
      ∃ nodes, (RelayCall.sinceFirstSend conduit calls.reverse).mapM (Relay.copy conduit)
          = some nodes ∧
        nodes.map content = (RelayCall.sinceFirstSend conduit calls.reverse).map content) := by
  have hstep : FileWorld.relayStep conduit addressable = fun (world : FileWorld ι) call =>
      world.step addressable (call.toCall conduit) := by
    funext world call
    exact world.relayStep_eq conduit addressable call
  rw [hstep, ← Transition.run_map] at hrun
  have hsizedCalls : ∀ i packet, Call.send i packet ∈ calls.map (RelayCall.toCall conduit) →
      packet.Sized := by
    intro i packet hmem
    obtain ⟨node, hnode, rfl⟩ := RelayCall.send_mem_map_toCall.mp hmem
    exact hsized i node hnode
  have htracks := FileWorld.tracks_of_run hfresh hsizedCalls hrun
  rw [← List.map_reverse] at htracks
  have hsome : ∃ i, Call.hasSent i (calls.reverse.map (RelayCall.toCall conduit)) = true := by
    obtain ⟨j, node, hmem⟩ := hsent
    exact ⟨j, Call.hasSent_iff.mpr ⟨_, RelayCall.send_mem_map_toCall.mpr
      ⟨node, List.mem_reverse.mpr hmem, rfl⟩⟩⟩
  have hframed : ∀ packet ∈ Call.sinceFirstSend (calls.reverse.map (RelayCall.toCall conduit)),
      packet.Sized := by
    intro packet hmem
    obtain ⟨j, hj⟩ := Call.exists_send_of_mem_sinceFirstSend hmem
    rw [List.map_reverse] at hj
    exact hsizedCalls j packet (List.mem_reverse.mp hj)
  refine ⟨Relay.receive_of_transport ?_, Relay.exists_copies⟩
  rw [FileWorld.transport_receive (htracks.receive_eq hframed hsome i),
    RelayCall.sinceFirstSend_toCall]

/-- A receiver beside the sender reads both nodes. -/
theorem relay_over_file_two :
    ∃ world, Transition.run (FileWorld.relayStep Conduit.bytes addressable)
        (⟨fun _ => none, fun _ => ⟨"tmp.contra", true⟩⟩ : FileWorld Bool)
        [.send true [1, 2], .send true [3]] = some world ∧
      Relay.receive Conduit.bytes (FileWorld.transport addressable) false world
        = some (some [[1, 2], [3]], world) := by
  refine ⟨_, rfl, ?_⟩
  have hsized : ∀ i node, RelayCall.send i node
      ∈ ([.send true [1, 2], .send true [3]] : List (RelayCall Bool _)) →
      (Relay.createPacket Conduit.bytes node).schema.length
        + (Relay.createPacket Conduit.bytes node).data.length + 16 < 2 ^ 63 := by
    intro i node hmem
    simp only [List.mem_cons, RelayCall.send.injEq, List.not_mem_nil, or_false] at hmem
    rcases hmem with ⟨-, rfl⟩ | ⟨-, rfl⟩ <;> decide
  exact (relay_over_file Conduit.bytes (fun node => node) "tmp.contra"
    (⟨fun _ => none, fun _ => ⟨"tmp.contra", true⟩⟩ : FileWorld Bool) _
    [.send true [1, 2], .send true [3]] (fun _ => rfl) hsized rfl
    ⟨true, [1, 2], List.mem_cons_self⟩ false).1

/-! ## Over ZeroMQ -/

/-- What can happen next to relays over ZeroMQ. -/
inductive ZmqRelayAction (ι Node : Type*) where
  /-- A `Send`; the message is routed to an endpoint or not accepted. -/
  | send (a : Endpoint ι) (node : Node) (route : Option (Endpoint ι))
  /-- The oldest message from `a` to `b` arrives at the socket of `b`. -/
  | deliver (a b : Endpoint ι)
  /-- The transport of a relay starts a `Receive`. -/
  | startReceive (b : Endpoint ι)
  /-- One `recv` in it. -/
  | recv (b : Endpoint ι)

namespace ZmqRelayAction

variable {ι Node Schema : Type*} (conduit : Conduit Node Schema)

/-- The sender, the receiver and the node of a send. -/
def posting : ZmqRelayAction ι Node → Option (Endpoint ι × Option (Endpoint ι) × Node)
  | .send a node route => some (a, route, node)
  | _ => none

end ZmqRelayAction

namespace ZmqWorld

variable {ι Node Schema : Type*}

/-- What a relay returns when the `Receive` of its transport is done. -/
def nodes (conduit : Conduit Node Schema) (result : Received ι) : Option (List Node) :=
  (result.packets.map Receipt.packet).mapM (Relay.createNode conduit)

end ZmqWorld

end Contra
