import Contra.ZmqTransport

/-! # Delivery over ZeroMQ

Runs of one server and any number of clients that send, receive and change their flag in any order,
with the network in between. The invariant `Delivering` says what every object and the history have
to do with the network: what an endpoint has returned or holds in an unfinished `Receive` is what it
took from its socket, decoded. `zmqTransport_delivers` reads the guarantees off the invariant and the
conservation law of the network. -/

namespace Contra

open CheckedMemory FifoNetwork

variable {ι : Type*} [DecidableEq ι]

/-! ## What a step does -/

namespace ZmqWorld

variable {world world' : ZmqWorld ι} {a b : Endpoint ι} {packet : Packet}
  {route : Option (Endpoint ι)}

/-- `Send` of a packet that can be serialized: its message is accepted, or refused without waiting
and with a warning. -/
theorem send_eq_some (hsize : packet.messageSize < 2 ^ 64)
    (h : world.send unlimited a packet route = some world') :
    (∃ b, route = some b ∧
      world' = { world with network := world.network.accept a b ⟨packet.message, packet⟩ }) ∨
    (route = none ∧ (world.transports a).waitForMessages = false ∧
      world' = { world with
        network := world.network.refuse a ⟨packet.message, packet⟩
        warnings := world.warnings ++ [world.network.posted.length] }) := by
  unfold send at h
  rw [serializePacket_eq hsize rfl] at h
  split at h
  · obtain ⟨⟨size, network⟩, hsend, rfl⟩ := Option.map_eq_some_iff.mp h
    cases route with
    | some b =>
      simp only [socketSend] at hsend
      split_ifs at hsend with hconnected
      obtain ⟨rfl, rfl⟩ := Prod.mk.inj (Option.some.inj hsend)
      have hsixteen := packet.sixteen_le_messageSize
      refine Or.inl ⟨b, rfl, ?_⟩
      -- a message is never empty, so the number of bytes sent is not zero
      dsimp only
      rw [Packet.length_message, if_neg (by omega)]
    | none =>
      simp only [socketSend] at hsend
      split_ifs at hsend with hwait
      obtain ⟨rfl, rfl⟩ := Prod.mk.inj (Option.some.inj hsend)
      exact Or.inr ⟨rfl, by simpa using hwait, rfl⟩
  · cases h

/-- The start of a `Receive` changes the activity of an idle object, as its flag says. -/
theorem startReceive_eq_some (h : world.startReceive b = some world') :
    (world.transports b).activity = .idle ∧
      (((world.transports b).waitForMessages = true ∧ world' = world.setActivity b .waiting) ∨
        ((world.transports b).waitForMessages = false ∧
          world' = world.setActivity b (.draining []))) := by
  unfold startReceive at h
  split at h
  · rename_i hidle
    refine ⟨hidle, ?_⟩
    split_ifs at h with hflag
    · exact Or.inl ⟨hflag, (Option.some.inj h).symm⟩
    · exact Or.inr ⟨by simpa using hflag, (Option.some.inj h).symm⟩
  · cases h

/-- The receipt for a message that decodes to the packet it was made from. -/
def receiptOf (envelope : Envelope (Endpoint ι) WireMessage) : Receipt ι :=
  receipt envelope envelope.body.origin

/-- A message on the wire is a serialized packet. -/
def Genuine (envelope : Envelope (Endpoint ι) WireMessage) : Prop :=
  envelope.body.bytes = envelope.body.origin.message ∧ envelope.body.origin.messageSize < 2 ^ 64

omit [DecidableEq ι] in
theorem receiveMessage_genuine {envelope : Envelope (Endpoint ι) WireMessage}
    (h : Genuine envelope) : receiveMessage unlimited envelope.body.bytes = .ok envelope.body.origin := by
  have hmessage : deserialize unlimited (envelope.body.origin.message ++ [])
      = .ok envelope.body.origin := deserialize_message_append h.2 rfl rfl []
  rw [receiveMessage_eq, h.1, if_neg (by simp)]
  rwa [List.append_nil] at hmessage

/-- One `recv` on genuine messages: the loop ends on an empty queue or goes on with one packet more,
and the waiting `recv` returns its packet. -/
theorem recv_eq_some (hgenuine : ∀ envelope ∈ world.network.inbound b, Genuine envelope)
    (h : world.recv unlimited b = some world') :
    (∃ packets, (world.transports b).activity = .draining packets ∧ world.network.inbound b = [] ∧
      world' = world.finish b ⟨false, packets⟩) ∨
    (∃ packets envelope network, (world.transports b).activity = .draining packets ∧
      world.network.take b = some (envelope, network) ∧
      world' = { world with network := network }.setActivity b
        (.draining (packets ++ [receiptOf envelope]))) ∨
    (∃ envelope network, (world.transports b).activity = .waiting ∧
      world.network.take b = some (envelope, network) ∧
      world' = { world with network := network }.finish b ⟨true, [receiptOf envelope]⟩) := by
  have hreceive : ∀ envelope network, world.network.take b = some (envelope, network) →
      receiveMessage unlimited envelope.body.bytes = .ok envelope.body.origin := by
    intro envelope network htake
    obtain ⟨rest, hqueue, -⟩ := Network.take_eq_some htake
    exact receiveMessage_genuine (hgenuine envelope (by rw [hqueue]; exact List.mem_cons_self))
  unfold recv at h
  split at h
  · rename_i packets hactivity
    split at h
    · rename_i htake
      exact Or.inl ⟨packets, hactivity, Network.take_eq_none.mp htake, (Option.some.inj h).symm⟩
    · rename_i envelope network htake
      rw [hreceive envelope network htake] at h
      exact Or.inr (Or.inl ⟨packets, envelope, network, hactivity, htake, (Option.some.inj h).symm⟩)
  · rename_i hactivity
    split at h
    · cases h
    · rename_i envelope network htake
      rw [hreceive envelope network htake] at h
      exact Or.inr (Or.inr ⟨envelope, network, hactivity, htake, (Option.some.inj h).symm⟩)
  · cases h

end ZmqWorld

/-- The last activity counts. -/
theorem ZmqWorld.setActivity_setActivity (world : ZmqWorld ι) (b : Endpoint ι)
    (first second : Activity ι) :
    (world.setActivity b first).setActivity b second = world.setActivity b second := by
  simp [ZmqWorld.setActivity]

/-- The packet of a send is smaller than the address space. -/
def ZmqAction.Sized : ZmqAction ι → Prop
  | .send _ packet _ => packet.messageSize < 2 ^ 64
  | _ => True

/-- The sender, the receiver and the packet of a send. -/
def ZmqAction.posting : ZmqAction ι → Option (Endpoint ι × Option (Endpoint ι) × Packet)
  | .send a packet route => some (a, route, packet)
  | _ => none

/-- The same of a send in the history. -/
def ZmqWorld.posting (envelope : Envelope (Endpoint ι) WireMessage) :
    Endpoint ι × Option (Endpoint ι) × Packet :=
  (envelope.sender, envelope.receiver, envelope.body.origin)

/-- The flag of `b` after an action. -/
def ZmqAction.flagAfter (b : Endpoint ι) (flag : Bool) : ZmqAction ι → Bool
  | .setWaitForMessages a waitForMessages => if a = b then waitForMessages else flag
  | _ => flag

/-- The flag that a `Receive` of `b` reads in an action: it reads it once, when it starts. -/
def ZmqAction.flagRead (b : Endpoint ι) (flag : Bool) : ZmqAction ι → List Bool
  | .startReceive a => if a = b then [flag] else []
  | _ => []

/-- The flags that the `Receive` calls of `b` read, in order, from the flag at the start on. -/
def ZmqAction.flagsRead (b : Endpoint ι) (flag : Bool) : List (ZmqAction ι) → List Bool
  | [] => []
  | action :: actions => action.flagRead b flag ++ flagsRead b (action.flagAfter b flag) actions

/-! ## The invariant -/

/-- Whether the `Receive` an object is in is a waiting one. -/
def Activity.waited : Activity ι → List Bool
  | .draining _ => [false]
  | .waiting => [true]
  | _ => []

/-- The packets an object holds in an unfinished `Receive`. -/
def Activity.packets : Activity ι → List (Receipt ι)
  | .draining packets => packets
  | _ => []

namespace ZmqWorld

/-- All packets an endpoint returned, in order. -/
def returned (world : ZmqWorld ι) (b : Endpoint ι) : List (Receipt ι) :=
  (world.results b).flatMap Received.packets

/-- The objects and the history agree with the network. -/
structure Delivering (world : ZmqWorld ι) : Prop where
  /-- The network loses and adds nothing. -/
  conserved : world.network.Conserved
  /-- Every message is a serialized packet. -/
  genuine : ∀ envelope ∈ world.network.posted, Genuine envelope
  /-- What was returned and what is held is what was taken. -/
  returned_taken : ∀ b, world.returned b ++ (world.transports b).activity.packets
    = (world.network.taken b).map receiptOf
  /-- No call failed. -/
  sound : ∀ b fault, (world.transports b).activity ≠ .failed fault
  /-- A waiting `Receive` returned one packet. -/
  waited : ∀ b, ∀ result ∈ world.results b, result.waited = true → result.packets.length = 1
  /-- A warning is about a refused message. -/
  warned : ∀ ticket ∈ world.warnings, ∃ envelope ∈ world.network.posted,
    envelope.ticket = ticket ∧ envelope.receiver = none

namespace Delivering

variable {world world' : ZmqWorld ι} {a b : Endpoint ι} {packet : Packet}

theorem start (waitForMessages : Endpoint ι → Bool) :
    Delivering (ZmqWorld.start waitForMessages) where
  conserved := .empty
  genuine := by simp [ZmqWorld.start, Network.empty]
  returned_taken _ := rfl
  sound := by simp [ZmqWorld.start]
  waited := by simp [ZmqWorld.start]
  warned := by simp [ZmqWorld.start]

/-- Messages that wait for an endpoint are genuine. -/
theorem genuine_inbound (h : Delivering world) (b : Endpoint ι) :
    ∀ envelope ∈ world.network.inbound b, Genuine envelope := fun envelope hmem =>
  h.genuine envelope (h.conserved.posted_of_mem (List.mem_append_right _ hmem)).1

/-- An accepted message adds to the queues and the history only. -/
theorem accept (h : Delivering world) (hsize : packet.messageSize < 2 ^ 64) (a b : Endpoint ι) :
    Delivering { world with network := world.network.accept a b ⟨packet.message, packet⟩ } where
  conserved := h.conserved.accept a b _
  genuine := by
    intro envelope hmem
    rcases List.mem_append.mp hmem with hold | hnew
    · exact h.genuine envelope hold
    · obtain rfl := List.mem_singleton.mp hnew
      exact ⟨rfl, hsize⟩
  returned_taken := h.returned_taken
  sound := h.sound
  waited := h.waited
  warned := by
    intro ticket hmem
    obtain ⟨envelope, hposted, hticket⟩ := h.warned ticket hmem
    exact ⟨envelope, List.mem_append_left _ hposted, hticket⟩

/-- A refused message is posted with no receiver, and its warning names it. -/
theorem refuse (h : Delivering world) (hsize : packet.messageSize < 2 ^ 64) (a : Endpoint ι) :
    Delivering { world with
      network := world.network.refuse a ⟨packet.message, packet⟩
      warnings := world.warnings ++ [world.network.posted.length] } where
  conserved := h.conserved.refuse a _
  genuine := by
    intro envelope hmem
    rcases List.mem_append.mp hmem with hold | hnew
    · exact h.genuine envelope hold
    · obtain rfl := List.mem_singleton.mp hnew
      exact ⟨rfl, hsize⟩
  returned_taken := h.returned_taken
  sound := h.sound
  waited := h.waited
  warned := by
    intro ticket hmem
    rcases List.mem_append.mp hmem with hold | hnew
    · obtain ⟨envelope, hposted, hticket⟩ := h.warned ticket hold
      exact ⟨envelope, List.mem_append_left _ hposted, hticket⟩
    · obtain rfl := List.mem_singleton.mp hnew
      exact ⟨_, List.mem_append_right _ List.mem_cons_self, rfl, rfl⟩

/-- A delivery moves a message between queues. -/
theorem deliver (h : Delivering world) {network : Network (Endpoint ι) WireMessage}
    (hdeliver : world.network.deliver a b = some network) :
    Delivering { world with network := network } := by
  have hconserved := h.conserved.deliver hdeliver
  obtain ⟨envelope, rest, -, rfl⟩ := Network.deliver_eq_some hdeliver
  exact ⟨hconserved, h.genuine, h.returned_taken, h.sound, h.waited, h.warned⟩

/-- An object may go from one call to another, or change its flag, if it holds the same packets. -/
theorem update (h : Delivering world) (b : Endpoint ι) (transport : ZMQTransport ι)
    (hpackets : transport.activity.packets = (world.transports b).activity.packets)
    (hsound : ∀ fault, transport.activity ≠ .failed fault) :
    Delivering { world with transports := Function.update world.transports b transport } where
  conserved := h.conserved
  genuine := h.genuine
  returned_taken c := by
    by_cases hc : c = b
    · subst hc
      rw [← h.returned_taken c, ← hpackets]
      simp [returned]
    · rw [← h.returned_taken c]
      simp [returned, hc]
  sound c fault := by
    by_cases hc : c = b
    · subst hc
      simpa using hsound fault
    · simpa [hc] using h.sound c fault
  waited := h.waited
  warned := h.warned

/-- A `Receive` returns what it holds. -/
theorem finish (h : Delivering world) (b : Endpoint ι) (result : Received ι)
    (hpackets : result.packets = (world.transports b).activity.packets)
    (hwaited : result.waited = true → result.packets.length = 1) :
    Delivering (world.finish b result) where
  conserved := h.conserved
  genuine := h.genuine
  returned_taken c := by
    by_cases hc : c = b
    · -- the packets held become packets returned
      subst hc
      show _ = (world.network.taken c).map receiptOf
      rw [← h.returned_taken c, ← hpackets]
      simp [returned, ZmqWorld.finish, setActivity, Activity.packets]
    · show _ = (world.network.taken c).map receiptOf
      rw [← h.returned_taken c]
      simp [returned, ZmqWorld.finish, setActivity, hc]
  sound c fault := by
    by_cases hc : c = b
    · subst hc
      simp [ZmqWorld.finish, setActivity]
    · simpa [ZmqWorld.finish, setActivity, hc] using h.sound c fault
  waited c r hmem := by
    by_cases hc : c = b
    · subst hc
      simp only [ZmqWorld.finish, Function.update_self, List.mem_append, List.mem_singleton] at hmem
      rcases hmem with hold | rfl
      · exact h.waited c r hold
      · exact hwaited
    · simp only [ZmqWorld.finish, Function.update_of_ne hc] at hmem
      exact h.waited c r hmem
  warned := h.warned

/-- A `Receive` takes a message and holds its packet. -/
theorem take (h : Delivering world) {envelope : Envelope (Endpoint ι) WireMessage}
    {network : Network (Endpoint ι) WireMessage}
    (htake : world.network.take b = some (envelope, network)) :
    Delivering ({ world with network := network }.setActivity b
      (.draining ((world.transports b).activity.packets ++ [receiptOf envelope]))) := by
  have hconserved := h.conserved.take htake
  obtain ⟨rest, hqueue, rfl⟩ := Network.take_eq_some htake
  refine ⟨hconserved, h.genuine, fun c => ?_, fun c fault => ?_, h.waited, h.warned⟩
  · by_cases hc : c = b
    · -- one packet more is held, one message more is taken
      subst hc
      have hreturned := h.returned_taken c
      simp only [setActivity, Function.update_self, Activity.packets, List.map_append, ← hreturned]
      simp [returned]
    · have hreturned := h.returned_taken c
      simpa [setActivity, hc, returned] using hreturned
  · by_cases hc : c = b
    · subst hc
      simp [setActivity]
    · simpa [setActivity, hc] using h.sound c fault

/-- Taking a message and returning it at once. -/
theorem take_finish (h : Delivering world) {envelope : Envelope (Endpoint ι) WireMessage}
    {network : Network (Endpoint ι) WireMessage}
    (hactivity : (world.transports b).activity = .waiting)
    (htake : world.network.take b = some (envelope, network)) :
    Delivering ({ world with network := network }.finish b ⟨true, [receiptOf envelope]⟩) := by
  have hheld := h.take htake
  rw [hactivity] at hheld
  have hfinish := hheld.finish b ⟨true, [receiptOf envelope]⟩
    (by simp [setActivity, Activity.packets]) (fun _ => rfl)
  rwa [ZmqWorld.finish, setActivity_setActivity] at hfinish

/-- Every step keeps the invariant. -/
theorem step (h : Delivering world) {action : ZmqAction ι} (hsized : action.Sized)
    (hstep : world.step unlimited action = some world') : Delivering world' := by
  cases action with
  | send a packet route =>
    rcases send_eq_some hsized hstep with ⟨b, -, rfl⟩ | ⟨-, -, rfl⟩
    · exact h.accept hsized a b
    · exact h.refuse hsized a
  | deliver a b =>
    obtain ⟨network, hdeliver, rfl⟩ := Option.map_eq_some_iff.mp hstep
    exact h.deliver hdeliver
  | startReceive b =>
    obtain ⟨hidle, ⟨-, rfl⟩ | ⟨-, rfl⟩⟩ := startReceive_eq_some hstep
    · exact h.update b _ (by rw [hidle]; rfl) (by simp)
    · exact h.update b _ (by rw [hidle]; rfl) (by simp)
  | recv b =>
    rcases recv_eq_some (h.genuine_inbound b) hstep with
      ⟨packets, hactivity, -, rfl⟩ | ⟨packets, envelope, network, hactivity, htake, rfl⟩ |
        ⟨envelope, network, hactivity, htake, rfl⟩
    · exact h.finish b _ (by rw [hactivity]; rfl) (by simp)
    · have hheld := h.take htake
      rwa [hactivity] at hheld
    · exact h.take_finish hactivity htake
  | setWaitForMessages b waitForMessages =>
    obtain rfl := Option.some.inj hstep
    exact h.update b _ rfl (h.sound b)

end Delivering

/-! ## Runs -/

/-- The history of sends is the list of `Send` calls of the run. -/
theorem posted_step {world world' : ZmqWorld ι} {action : ZmqAction ι} (hsized : action.Sized)
    (hgenuine : ∀ b, ∀ envelope ∈ world.network.inbound b, Genuine envelope)
    (hstep : world.step unlimited action = some world') :
    world'.network.posted.map posting
      = world.network.posted.map posting ++ action.posting.toList := by
  cases action with
  | send a packet route =>
    rcases send_eq_some hsized hstep with ⟨b, rfl, rfl⟩ | ⟨rfl, -, rfl⟩
    · exact List.map_append ..
    · exact List.map_append ..
  | deliver a b =>
    obtain ⟨network, hdeliver, rfl⟩ := Option.map_eq_some_iff.mp hstep
    obtain ⟨envelope, rest, -, rfl⟩ := Network.deliver_eq_some hdeliver
    exact (List.append_nil _).symm
  | startReceive b =>
    obtain ⟨-, ⟨-, rfl⟩ | ⟨-, rfl⟩⟩ := startReceive_eq_some hstep <;> exact (List.append_nil _).symm
  | recv b =>
    rcases recv_eq_some (hgenuine b) hstep with
      ⟨packets, -, -, rfl⟩ | ⟨packets, envelope, network, -, htake, rfl⟩ |
        ⟨envelope, network, -, htake, rfl⟩
    · exact (List.append_nil _).symm
    · obtain ⟨rest, -, rfl⟩ := Network.take_eq_some htake
      exact (List.append_nil _).symm
    · obtain ⟨rest, -, rfl⟩ := Network.take_eq_some htake
      exact (List.append_nil _).symm
  | setWaitForMessages b waitForMessages =>
    obtain rfl := Option.some.inj hstep
    exact (List.append_nil _).symm

/-- The invariant after every run, and the calls behind its history. -/
theorem delivering_of_run {waitForMessages : Endpoint ι → Bool} {actions : List (ZmqAction ι)}
    {world : ZmqWorld ι} (hsized : ∀ action ∈ actions, action.Sized)
    (hrun : Transition.run (step unlimited) (start waitForMessages) actions = some world) :
    Delivering world ∧ world.network.posted.map posting = actions.filterMap ZmqAction.posting := by
  apply Transition.run_induction_of_forall (fun actions world => Delivering world ∧
    world.network.posted.map posting = actions.filterMap ZmqAction.posting) _ _ hsized hrun
  · exact ⟨.start waitForMessages, rfl⟩
  · rintro actions action world world' _ ⟨hdelivering, hposted⟩ haction hstep
    refine ⟨hdelivering.step haction hstep, ?_⟩
    rw [posted_step haction hdelivering.genuine_inbound hstep, hposted, List.filterMap_append]
    cases hposting : action.posting <;> simp [hposting]

/-- Which of the `Receive` calls of an endpoint waited, in order: those that are done, and the one it is
in. -/
def waits (world : ZmqWorld ι) (b : Endpoint ι) : List Bool :=
  (world.results b).map Received.waited ++ (world.transports b).activity.waited

/-- A `Receive` waits if the flag it read was set, and no step changes the flag but
`SetWaitForMessages`. -/
theorem waits_step {world world' : ZmqWorld ι} {action : ZmqAction ι} (hsized : action.Sized)
    (hgenuine : ∀ b, ∀ envelope ∈ world.network.inbound b, Genuine envelope)
    (hstep : world.step unlimited action = some world') (b : Endpoint ι) :
    world'.waits b = world.waits b ++ action.flagRead b (world.transports b).waitForMessages ∧
      (world'.transports b).waitForMessages
        = action.flagAfter b (world.transports b).waitForMessages := by
  cases action with
  | send a packet route =>
    rcases send_eq_some hsized hstep with ⟨c, -, rfl⟩ | ⟨-, -, rfl⟩
    · exact ⟨(List.append_nil _).symm, rfl⟩
    · exact ⟨(List.append_nil _).symm, rfl⟩
  | deliver a c =>
    obtain ⟨network, -, rfl⟩ := Option.map_eq_some_iff.mp hstep
    exact ⟨(List.append_nil _).symm, rfl⟩
  | startReceive a =>
    obtain ⟨hidle, ⟨hflag, rfl⟩ | ⟨hflag, rfl⟩⟩ := startReceive_eq_some hstep
    all_goals
      by_cases hb : b = a
      · subst hb
        simp [waits, setActivity, hidle, hflag, Activity.waited, ZmqAction.flagRead,
          ZmqAction.flagAfter]
      · simp [waits, setActivity, hb, Ne.symm hb, ZmqAction.flagRead, ZmqAction.flagAfter]
  | recv a =>
    rcases recv_eq_some (hgenuine a) hstep with
      ⟨packets, hactivity, -, rfl⟩ | ⟨packets, envelope, network, hactivity, -, rfl⟩ |
        ⟨envelope, network, hactivity, -, rfl⟩
    all_goals
      by_cases hb : b = a
      · subst hb
        simp [waits, ZmqWorld.finish, setActivity, hactivity, Activity.waited, ZmqAction.flagRead,
          ZmqAction.flagAfter]
      · simp [waits, ZmqWorld.finish, setActivity, hb, ZmqAction.flagRead, ZmqAction.flagAfter]
  | setWaitForMessages a waitForMessages =>
    obtain rfl := Option.some.inj hstep
    by_cases hb : b = a
    · subst hb
      simp [waits, ZmqAction.flagRead, ZmqAction.flagAfter]
    · simp [waits, hb, Ne.symm hb, ZmqAction.flagRead, ZmqAction.flagAfter]

/-- The `Receive` calls of a run wait as the flags say that they read. -/
theorem waits_run {world world' : ZmqWorld ι} {actions : List (ZmqAction ι)}
    (h : Delivering world) (hsized : ∀ action ∈ actions, action.Sized)
    (hrun : Transition.run (step unlimited) world actions = some world') (b : Endpoint ι) :
    world'.waits b = world.waits b
      ++ ZmqAction.flagsRead b (world.transports b).waitForMessages actions := by
  induction actions generalizing world with
  | nil =>
    obtain rfl := Option.some.inj hrun
    exact (List.append_nil _).symm
  | cons action actions ih =>
    obtain ⟨middle, hstep, hrest⟩ := Transition.run_cons_eq_some.mp hrun
    obtain ⟨hfirst, hlater⟩ := List.forall_mem_cons.mp hsized
    obtain ⟨hwaits, hflag⟩ := waits_step hfirst h.genuine_inbound hstep b
    rw [ih (h.step hfirst hstep) hlater hrest, hwaits, hflag, ZmqAction.flagsRead,
      List.append_assoc]

/-- A `Receive` that does not wait ends on an empty queue. -/
theorem inbound_of_drained {world world' : ZmqWorld ι} (h : Delivering world) {b : Endpoint ι}
    {packets : List (Receipt ι)} (hactivity : (world.transports b).activity = .draining packets)
    (hstep : world.step unlimited (.recv b) = some world')
    (hidle : (world'.transports b).activity = .idle) : world'.network.inbound b = [] := by
  rcases recv_eq_some (h.genuine_inbound b) hstep with
    ⟨packets, -, hempty, rfl⟩ | ⟨packets, envelope, network, -, -, rfl⟩ |
      ⟨envelope, network, hwaiting, -, rfl⟩
  · exact hempty
  · simp [setActivity] at hidle
  · rw [hactivity] at hwaiting
    cases hwaiting

/-- A packet returned is the packet of a message taken. -/
theorem mem_taken_of_returned {world : ZmqWorld ι} (h : Delivering world) {b : Endpoint ι}
    {r : Receipt ι} (hmem : r ∈ world.returned b) :
    ∃ envelope ∈ world.network.taken b, receiptOf envelope = r := by
  rw [← List.mem_map, ← h.returned_taken b]
  exact List.mem_append_left _ hmem

end ZmqWorld

/-- **Delivery over ZeroMQ.** After every run, the packets of `a` that `b` returned are, in order and
unchanged, a prefix of the packets of `a` that were accepted and routed to `b`. No packet is returned
twice or at two endpoints or after a warning, and no call fails. A `Receive` waits exactly if the flag
was set when it started; a waiting one returns one packet, and one that does not wait leaves no delivered
message behind. -/
theorem zmqTransport_delivers (waitForMessages : Endpoint ι → Bool)
    (actions : List (ZmqAction ι)) (world : ZmqWorld ι)
    (hsized : ∀ a packet route, ZmqAction.send a packet route ∈ actions →
      packet.schema.length + packet.data.length + 16 < 2 ^ 64)
    (hrun : Transition.run (ZmqWorld.step unlimited) (ZmqWorld.start waitForMessages) actions
      = some world) :
    world.network.posted.map ZmqWorld.posting = actions.filterMap ZmqAction.posting ∧
    (∀ a b, ((world.returned b).filter fun r => r.sender = a).map (fun r => (r.ticket, r.packet))
      <+: (world.network.routed a b).map fun envelope =>
        (envelope.ticket, envelope.body.origin)) ∧
    (∀ b, ((world.returned b).map Receipt.ticket).Nodup) ∧
    (∀ b c, ∀ r ∈ world.returned b, ∀ s ∈ world.returned c, r.ticket = s.ticket → b = c) ∧
    (∀ b, ∀ r ∈ world.returned b, r.ticket ∉ world.warnings) ∧
    (∀ b, (world.results b).map Received.waited ++ (world.transports b).activity.waited
      = ZmqAction.flagsRead b (waitForMessages b) actions) ∧
    (∀ b, ∀ result ∈ world.results b, result.waited = true → result.packets.length = 1) ∧
    (∀ b packets world', (world.transports b).activity = .draining packets →
      world.step unlimited (.recv b) = some world' →
      (world'.transports b).activity = .idle → world'.network.inbound b = []) ∧
    ∀ b fault, (world.transports b).activity ≠ .failed fault := by
  have hactions : ∀ action ∈ actions, action.Sized := by
    intro action hmem
    cases action with
    | send a packet route => exact hsized a packet route hmem
    | _ => trivial
  obtain ⟨h, hposted⟩ := ZmqWorld.delivering_of_run hactions hrun
  have hreturned : ∀ b, world.returned b <+: (world.network.taken b).map ZmqWorld.receiptOf :=
    fun b => ⟨_, h.returned_taken b⟩
  refine ⟨hposted, fun a b => ?_, fun b => ?_, fun b c r hr s hs heq => ?_, fun b r hr hwarned => ?_,
    fun b => ZmqWorld.waits_run (.start waitForMessages) hactions hrun b, h.waited,
    fun b packets world' hactivity hstep hidle =>
      ZmqWorld.inbound_of_drained h hactivity hstep hidle, h.sound⟩
  · -- the packets of `a` among the taken ones, then the conservation law
    have hfiltered := ((hreturned b).filter fun r => decide (r.sender = a)).map
      fun r : Receipt ι => (r.ticket, r.packet)
    rw [List.filter_map, List.map_map] at hfiltered
    exact hfiltered.trans ((h.conserved.taken_routed a b).map _)
  · have hnodup := h.conserved.nodup_tickets_taken b
    have htickets := ((hreturned b).map Receipt.ticket).sublist
    rw [List.map_map] at htickets
    exact hnodup.sublist htickets
  · obtain ⟨first, hfirst, rfl⟩ := ZmqWorld.mem_taken_of_returned h hr
    obtain ⟨second, hsecond, rfl⟩ := ZmqWorld.mem_taken_of_returned h hs
    exact h.conserved.receiver_unique hfirst hsecond heq
  · obtain ⟨envelope, htaken, rfl⟩ := ZmqWorld.mem_taken_of_returned h hr
    obtain ⟨refused, hrefused, hticket, hnone⟩ := h.warned _ hwarned
    exact h.conserved.refused_not_taken hrefused hnone htaken hticket.symm

/-- Two clients send, a third packet is not accepted, and the flag of the server is set before its second
`Receive`, which has to wait, and reset before that has returned. -/
def togglingServer : List (ZmqAction Bool) :=
  [.send (.client false) ⟨[65], [1]⟩ (some .server), .startReceive .server,
    .deliver (.client false) .server, .recv .server, .recv .server,
    .setWaitForMessages .server true, .startReceive .server, .setWaitForMessages .server false,
    .send (.client true) ⟨[66], [2]⟩ (some .server), .send (.client true) ⟨[67], [3]⟩ none,
    .deliver (.client true) .server, .recv .server, .startReceive .server, .recv .server]

/-- The server drains a packet, waits for one, and drains none. -/
theorem zmqTransport_delivers_toggling :
    ∃ world, Transition.run (ZmqWorld.step unlimited) (ZmqWorld.start fun _ : Endpoint Bool => false)
        togglingServer = some world ∧
      world.results .server = [⟨false, [⟨0, .client false, ⟨[65], [1]⟩⟩]⟩,
        ⟨true, [⟨1, .client true, ⟨[66], [2]⟩⟩]⟩, ⟨false, []⟩] ∧
      (world.results .server).map Received.waited ++ (world.transports .server).activity.waited
        = ZmqAction.flagsRead .server false togglingServer ∧
      (∀ result ∈ world.results .server, result.waited = true → result.packets.length = 1) ∧
      ∀ r ∈ world.returned .server, r.ticket ∉ world.warnings := by
  have hsized : ∀ a packet route, ZmqAction.send a packet route ∈ togglingServer →
      packet.schema.length + packet.data.length + 16 < 2 ^ 64 := by
    intro a packet route hmem
    simp only [togglingServer, List.mem_cons, ZmqAction.send.injEq, reduceCtorEq, false_or,
      List.not_mem_nil, or_false] at hmem
    rcases hmem with ⟨-, rfl, -⟩ | ⟨-, rfl, -⟩ | ⟨-, rfl, -⟩ <;> decide
  have hresults : (Transition.run (ZmqWorld.step unlimited)
      (ZmqWorld.start fun _ : Endpoint Bool => false) togglingServer).map
        (fun world => world.results .server) = some [⟨false, [⟨0, .client false, ⟨[65], [1]⟩⟩]⟩,
          ⟨true, [⟨1, .client true, ⟨[66], [2]⟩⟩]⟩, ⟨false, []⟩] := by decide +kernel
  obtain ⟨world, hrun, hserver⟩ := Option.map_eq_some_iff.mp hresults
  obtain ⟨-, -, -, -, hwarnings, hflags, hwaited, -⟩ :=
    zmqTransport_delivers (fun _ : Endpoint Bool => false) togglingServer world hsized hrun
  exact ⟨world, hrun, hserver, hflags .server, hwaited .server, hwarnings .server⟩

end Contra
