import Contra.Foundation.FifoNetwork
import Contra.Foundation.Transition
import Contra.PacketCodec

/-! # The ZeroMQ transport (`zeromq_transport.cpp`)

One server and any number of clients, each a `ZMQTransport` with a `DEALER` socket. A send is one
step, with the choice ZeroMQ makes as part of the action; a `Receive` is one step that reads the
flag, and one step for every `recv` of its body, so that deliveries and other endpoints come between
them. An object makes one call at a time, but `SetWaitForMessages` may come at any time: a `Receive`
reads the flag once, when it starts. -/

namespace Contra

open CheckedMemory FifoNetwork

/-- What `Receive` does with a message: it copies the message into a vector and decodes it. -/
def receiveMessage (fits : ℕ → Bool) (receivedMessage : List UInt8) : Except Fault Packet := do
  let message ← allocate fits receivedMessage.length
  let message ← write message 0 receivedMessage
  deserialize fits message

/-- The copy is exact, so a message that fits is decoded as it is. -/
theorem receiveMessage_eq (fits : ℕ → Bool) (receivedMessage : List UInt8) :
    receiveMessage fits receivedMessage =
      if fits receivedMessage.length = false then .error (.allocation receivedMessage.length)
      else deserialize fits receivedMessage := by
  rw [receiveMessage]
  by_cases hfit : fits receivedMessage.length = false
  · rw [if_pos hfit, allocate_of_not_fits hfit, error_bind]
  · have hfit' : fits receivedMessage.length = true := by simpa using hfit
    have hwrite := write_append [] (List.replicate receivedMessage.length 0) [] receivedMessage
      (show 0 = _ from rfl) (by simp)
    simp only [List.nil_append, List.append_nil] at hwrite
    rw [if_neg hfit, allocate_of_fits hfit', ok_bind, hwrite, ok_bind]

/-! ## Endpoints -/

/-- The endpoints of one address: the transport that binds it and those that connect to it. -/
inductive Endpoint (ι : Type*) where
  /-- `Type::SERVER`. -/
  | server
  /-- `Type::CLIENT`. -/
  | client (i : ι)
  deriving DecidableEq, Repr

/-- Sockets are connected along `connect` and `bind`. -/
def Endpoint.connected {ι : Type*} : Endpoint ι → Endpoint ι → Bool
  | .server, .client _ => true
  | .client _, .server => true
  | _, _ => false

/-- A message on the wire. -/
structure WireMessage where
  /-- The bytes. -/
  bytes : List UInt8
  /-- History: the packet `Send` was called with. -/
  origin : Packet

/-- A packet that `Receive` returns, with the send it comes from, which the caller does not see. -/
structure Receipt (ι : Type*) where
  /-- The number of the send. -/
  ticket : ℕ
  /-- The endpoint that sent. -/
  sender : Endpoint ι
  /-- The packet. -/
  packet : Packet
  deriving DecidableEq

/-- The call an object is in. -/
inductive Activity (ι : Type*) where
  /-- In none. -/
  | idle
  /-- In the loop of a `Receive` that does not wait, with the packets received so far. -/
  | draining (packets : List (Receipt ι))
  /-- In a `Receive` that waits for a message. -/
  | waiting
  /-- An exception or an access outside a buffer ended the call. -/
  | failed (fault : Fault)

/-- A `ZMQTransport` object. -/
structure ZMQTransport (ι : Type*) where
  /-- `wait_for_messages_`. -/
  waitForMessages : Bool
  /-- The call it is in. -/
  activity : Activity ι

/-- The result of a completed `Receive`. -/
structure Received (ι : Type*) where
  /-- Whether the `Receive` was a waiting one. -/
  waited : Bool
  /-- The packets returned. -/
  packets : List (Receipt ι)
  deriving DecidableEq

/-- All transports on one address and the network between them. -/
structure ZmqWorld (ι : Type*) where
  /-- The objects. -/
  transports : Endpoint ι → ZMQTransport ι
  /-- The messages. -/
  network : Network (Endpoint ι) WireMessage
  /-- History: the results of the completed `Receive` calls of an endpoint, in order. -/
  results : Endpoint ι → List (Received ι)
  /-- History: the numbers of the sends that printed the lost-data warning. -/
  warnings : List ℕ

/-- What can happen next. -/
inductive ZmqAction (ι : Type*) where
  /-- A `Send`; the message is routed to an endpoint or not accepted. -/
  | send (a : Endpoint ι) (packet : Packet) (route : Option (Endpoint ι))
  /-- The oldest message from `a` to `b` arrives at the socket of `b`. -/
  | deliver (a b : Endpoint ι)
  /-- A `Receive` starts. -/
  | startReceive (b : Endpoint ι)
  /-- One `recv` in the `Receive` that `b` is in. -/
  | recv (b : Endpoint ι)
  /-- `SetWaitForMessages`. -/
  | setWaitForMessages (b : Endpoint ι) (waitForMessages : Bool)

namespace ZmqWorld

variable {ι : Type*} [DecidableEq ι]

/-- No call was made yet; the flags are the ones given to the constructors. -/
def start (waitForMessages : Endpoint ι → Bool) : ZmqWorld ι :=
  ⟨fun a => ⟨waitForMessages a, .idle⟩, Network.empty, fun _ => [], []⟩

/-- The object at `a` is now in the given call. -/
def setActivity (world : ZmqWorld ι) (a : Endpoint ι) (activity : Activity ι) : ZmqWorld ι :=
  let transport := { world.transports a with activity := activity }
  { world with transports := Function.update world.transports a transport }

/-- The `Receive` that `b` is in returns. -/
def finish (world : ZmqWorld ι) (b : Endpoint ι) (result : Received ι) : ZmqWorld ι :=
  { world.setActivity b .idle with
    results := Function.update world.results b (world.results b ++ [result]) }

/-- The receipt for a message. -/
def receipt (envelope : Envelope (Endpoint ι) WireMessage) (packet : Packet) : Receipt ι :=
  ⟨envelope.ticket, envelope.sender, packet⟩

/-- `socket_.send`: the number of bytes sent, and none where ZeroMQ does not accept the message.
Without `ZMQ_DONTWAIT` it blocks until the message is accepted. -/
def socketSend (world : ZmqWorld ι) (a : Endpoint ι) (message : WireMessage) (dontWait : Bool) :
    Option (Endpoint ι) → Option (ℕ × Network (Endpoint ι) WireMessage)
  | some b =>
    if a.connected b then some (message.bytes.length, world.network.accept a b message) else none
  | none => if dontWait then some (0, world.network.refuse a message) else none

/-- `Send`, from the call to its end. -/
def send (fits : ℕ → Bool) (world : ZmqWorld ι) (a : Endpoint ι) (packet : Packet)
    (route : Option (Endpoint ι)) : Option (ZmqWorld ι) :=
  match (world.transports a).activity with
  | .idle =>
    match serializePacket fits packet with
    | .error fault => some (world.setActivity a (.failed fault))
    | .ok buffer =>
      -- the flag decides whether the send may block
      (world.socketSend a ⟨buffer, packet⟩ (!(world.transports a).waitForMessages) route).map
        fun (size, network) =>
          let ticket := world.network.posted.length
          { world with
            network := network
            warnings := if size = 0 then world.warnings ++ [ticket] else world.warnings }
  | _ => none

/-- The test of the flag at the start of `Receive`. -/
def startReceive (world : ZmqWorld ι) (b : Endpoint ι) : Option (ZmqWorld ι) :=
  match (world.transports b).activity with
  | .idle => some (world.setActivity b
      (if (world.transports b).waitForMessages then .waiting else .draining []))
  | _ => none

/-- One `recv` of `Receive` and what follows it. The loop ends at the first `recv` that finds no
message; the waiting `recv` blocks until there is one. -/
def recv (fits : ℕ → Bool) (world : ZmqWorld ι) (b : Endpoint ι) : Option (ZmqWorld ι) :=
  match (world.transports b).activity with
  | .draining packets =>
    match world.network.take b with
    -- `ZMQ_DONTWAIT` found nothing: the loop ends and the call returns
    | none => some (world.finish b ⟨false, packets⟩)
    | some (envelope, network) =>
      let world := { world with network := network }
      match receiveMessage fits envelope.body.bytes with
      | .error fault => some (world.setActivity b (.failed fault))
      | .ok packet =>
        some (world.setActivity b (.draining (packets ++ [receipt envelope packet])))
  | .waiting =>
    match world.network.take b with
    | none => none
    | some (envelope, network) =>
      let world := { world with network := network }
      match receiveMessage fits envelope.body.bytes with
      | .error fault => some (world.setActivity b (.failed fault))
      | .ok packet => some (world.finish b ⟨true, [receipt envelope packet]⟩)
  | _ => none

/-- One step of the system; `none` where the action is not possible. -/
def step (fits : ℕ → Bool) (world : ZmqWorld ι) : ZmqAction ι → Option (ZmqWorld ι)
  | .send a packet route => world.send fits a packet route
  | .deliver a b => (world.network.deliver a b).map fun network => { world with network := network }
  | .startReceive b => world.startReceive b
  | .recv b => world.recv fits b
  | .setWaitForMessages b waitForMessages =>
      let transport := { world.transports b with waitForMessages := waitForMessages }
      some { world with transports := Function.update world.transports b transport }

end ZmqWorld

end Contra
