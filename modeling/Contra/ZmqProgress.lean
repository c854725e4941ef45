import Contra.ZmqDelivery

/-! # Progress over ZeroMQ

What it takes for a `Receive` to end. A `Receive` that does not wait makes at most one `recv` more than
there are messages that it finds and that arrive meanwhile, and a waiting one makes one
(`zmqTransport_receive_bounded`). With deliveries and steps of its own, an endpoint can return everything
that was routed to it, unless it waits for a message and none is under way (`zmqTransport_catches_up_iff`). -/

namespace Contra

open FifoNetwork

variable {ι : Type*} [DecidableEq ι]

/-! ## The actions of a receiver -/

namespace ZmqAction

/-- Whether an action is a `recv` of `b`. -/
def isRecvBy (b : Endpoint ι) : ZmqAction ι → Bool
  | .recv c => c = b
  | _ => false

/-- Whether an action is a delivery to `b`. -/
def deliversTo (b : Endpoint ι) : ZmqAction ι → Bool
  | .deliver _ c => c = b
  | _ => false

omit [DecidableEq ι] in
/-- The deliveries to `b` and the steps of its `Receive` calls. -/
def ReceivesAt (b : Endpoint ι) : ZmqAction ι → Prop
  | .deliver _ c => c = b
  | .startReceive c => c = b
  | .recv c => c = b
  | _ => False

end ZmqAction

omit [DecidableEq ι] in
/-- The number of `recv`s that a call has left at most, by the number of messages at its socket. -/
def Activity.recvsLeft : Activity ι → ℕ → ℕ
  | .draining _, arrived => arrived + 1
  | .waiting, _ => 1
  | _, _ => 0

namespace ZmqWorld

variable {world world' later : ZmqWorld ι} {a b c : Endpoint ι}

omit [DecidableEq ι] in
/-- The number of `recv`s that the call of `b` has left at most, unless more messages arrive. -/
def recvsLeft (world : ZmqWorld ι) (b : Endpoint ι) : ℕ :=
  (world.transports b).activity.recvsLeft (world.network.inbound b).length

/-! ## The steps of a receiver -/

/-- The call an object is in now. -/
theorem activity_setActivity (world : ZmqWorld ι) (b : Endpoint ι) (activity : Activity ι) :
    ((world.setActivity b activity).transports b).activity = activity := by
  simp [setActivity]

/-- A `Receive` that does not wait ends on an empty queue. -/
theorem recv_of_draining_empty {packets : List (Receipt ι)}
    (hactivity : (world.transports b).activity = .draining packets)
    (hempty : world.network.inbound b = []) :
    world.step unlimited (.recv b) = some (world.finish b ⟨false, packets⟩) := by
  rw [step, recv, hactivity]
  simp only [Network.take_eq_none.mpr hempty]

/-- On any other queue it goes on. -/
theorem recv_of_draining {packets : List (Receipt ι)}
    {envelope : Envelope (Endpoint ι) WireMessage} {rest : List (Envelope (Endpoint ι) WireMessage)}
    (hactivity : (world.transports b).activity = .draining packets)
    (hqueue : world.network.inbound b = envelope :: rest) (hgenuine : Genuine envelope) :
    ∃ network, world.network.take b = some (envelope, network) ∧
      world.step unlimited (.recv b) = some (({ world with network := network } : ZmqWorld ι).setActivity b
        (.draining (packets ++ [receiptOf envelope]))) := by
  refine ⟨_, by rw [Network.take, hqueue], ?_⟩
  rw [step, recv, hactivity]
  simp only [Network.take, hqueue, receiveMessage_genuine hgenuine]
  rfl

/-- A waiting `Receive` ends with the oldest message. -/
theorem recv_of_waiting
    {envelope : Envelope (Endpoint ι) WireMessage} {rest : List (Envelope (Endpoint ι) WireMessage)}
    (hactivity : (world.transports b).activity = .waiting)
    (hqueue : world.network.inbound b = envelope :: rest) (hgenuine : Genuine envelope) :
    ∃ network, world.network.take b = some (envelope, network) ∧
      world.step unlimited (.recv b) = some (({ world with network := network } : ZmqWorld ι).finish b
        ⟨true, [receiptOf envelope]⟩) := by
  refine ⟨_, by rw [Network.take, hqueue], ?_⟩
  rw [step, recv, hactivity]
  simp only [Network.take, hqueue, receiveMessage_genuine hgenuine]
  rfl

/-- Without a message it blocks. -/
theorem recv_of_waiting_empty (hactivity : (world.transports b).activity = .waiting)
    (hempty : world.network.inbound b = []) : world.step unlimited (.recv b) = none := by
  rw [step, recv, hactivity]
  simp only [Network.take_eq_none.mpr hempty]

/-- A `Receive` starts at an object that is in no call. -/
theorem startReceive_of_idle (hidle : (world.transports b).activity = .idle) :
    world.step unlimited (.startReceive b) = some (world.setActivity b
      (if (world.transports b).waitForMessages then .waiting else .draining [])) := by
  rw [step, startReceive, hidle]

/-! ## How often a `Receive` reads -/

omit [DecidableEq ι] in
/-- A step that leaves the call and the socket of `b` as they are. -/
theorem recvsLeft_congr (hactivity : (world'.transports b).activity = (world.transports b).activity)
    (hinbound : world'.network.inbound b = world.network.inbound b) :
    world'.recvsLeft b = world.recvsLeft b := by
  rw [recvsLeft, recvsLeft, hactivity, hinbound]

/-- A delivery adds one `recv` at most. -/
theorem recvsLeft_deliver {network : Network (Endpoint ι) WireMessage}
    (h : world.network.deliver a c = some network) :
    ({ world with network := network } : ZmqWorld ι).recvsLeft b
      ≤ (decide (c = b)).toNat + world.recvsLeft b := by
  obtain ⟨envelope, rest, -, rfl⟩ := Network.deliver_eq_some h
  by_cases hc : c = b
  · subst hc
    simp only [recvsLeft, Function.update_self, List.length_append, List.length_singleton,
      decide_true, Bool.toNat_true]
    cases (world.transports c).activity with
    | draining packets =>
      simp only [Activity.recvsLeft]
      omega
    | _ => simp [Activity.recvsLeft]
  · have hb : b ≠ c := fun hb => hc hb.symm
    apply Nat.le_trans (m := world.recvsLeft b)
    · exact Nat.le_of_eq (recvsLeft_congr rfl (Function.update_of_ne hb _ _))
    · exact Nat.le_add_left ..

/-- The call or the flag of another object does not matter. -/
theorem recvsLeft_setActivity_of_ne (hc : c ≠ b) (activity : Activity ι) :
    (world.setActivity c activity).recvsLeft b = world.recvsLeft b := by
  have hb : b ≠ c := fun hb => hc hb.symm
  exact recvsLeft_congr (by simp [setActivity, hb]) rfl

/-- Every `recv` is one of those that are left. -/
theorem recvsLeft_recv (h : Delivering world)
    (hstep : world.step unlimited (.recv c) = some world') :
    (decide (c = b)).toNat + world'.recvsLeft b ≤ world.recvsLeft b := by
  by_cases hc : c = b
  · subst hc
    rcases recv_eq_some (h.genuine_inbound c) hstep with
      ⟨packets, hactivity, hempty, rfl⟩ | ⟨packets, envelope, network, hactivity, htake, rfl⟩ |
        ⟨envelope, network, hactivity, htake, rfl⟩
    · simp [recvsLeft, ZmqWorld.finish, setActivity, hactivity, Activity.recvsLeft]
    · obtain ⟨rest, hqueue, rfl⟩ := Network.take_eq_some htake
      simp only [recvsLeft, setActivity, Function.update_self, hactivity, hqueue,
        Activity.recvsLeft, List.length_cons, decide_true, Bool.toNat_true]
      omega
    · simp [recvsLeft, ZmqWorld.finish, setActivity, hactivity, Activity.recvsLeft]
  · have hb : b ≠ c := fun hb => hc hb.symm
    rw [decide_eq_false hc, Bool.toNat_false, Nat.zero_add]
    apply Nat.le_of_eq
    rcases recv_eq_some (h.genuine_inbound c) hstep with
      ⟨packets, -, -, rfl⟩ | ⟨packets, envelope, network, -, htake, rfl⟩ |
        ⟨envelope, network, -, htake, rfl⟩
    · exact recvsLeft_congr (by simp [ZmqWorld.finish, setActivity, hb]) rfl
    · obtain ⟨rest, -, rfl⟩ := Network.take_eq_some htake
      exact recvsLeft_congr (by simp [setActivity, hb]) (by simp [setActivity, hb])
    · obtain ⟨rest, -, rfl⟩ := Network.take_eq_some htake
      exact recvsLeft_congr (by simp [ZmqWorld.finish, setActivity, hb])
        (by simp [ZmqWorld.finish, setActivity, hb])

/-- **One step**: a `recv` of `b` uses up one of those left, and only a delivery to `b` adds one. -/
theorem recvsLeft_step (h : Delivering world) {action : ZmqAction ι} (hsized : action.Sized)
    (hcall : action ≠ .startReceive b) (hstep : world.step unlimited action = some world') :
    (action.isRecvBy b).toNat + world'.recvsLeft b
      ≤ (action.deliversTo b).toNat + world.recvsLeft b := by
  cases action with
  | send a packet route =>
    rcases send_eq_some hsized hstep with ⟨c, -, rfl⟩ | ⟨-, -, rfl⟩
    · exact Nat.le_refl _
    · exact Nat.le_refl _
  | deliver a c =>
    obtain ⟨network, hdeliver, rfl⟩ := Option.map_eq_some_iff.mp hstep
    show 0 + _ ≤ _
    rw [Nat.zero_add]
    exact recvsLeft_deliver hdeliver
  | startReceive c =>
    have hc : c ≠ b := fun hc => hcall (by rw [hc])
    obtain ⟨-, ⟨-, rfl⟩ | ⟨-, rfl⟩⟩ := startReceive_eq_some hstep
    · rw [recvsLeft_setActivity_of_ne hc]
      exact Nat.le_refl _
    · rw [recvsLeft_setActivity_of_ne hc]
      exact Nat.le_refl _
  | recv c =>
    show _ ≤ 0 + _
    rw [Nat.zero_add]
    exact recvsLeft_recv h hstep
  | setWaitForMessages c waitForMessages =>
    obtain rfl := Option.some.inj hstep
    show 0 + _ ≤ 0 + _
    rw [Nat.zero_add, Nat.zero_add]
    apply Nat.le_of_eq
    apply recvsLeft_congr
    · by_cases hc : b = c
      · subst hc
        simp
      · simp [hc]
    · rfl

/-- `recv` is possible in a `Receive` that does not wait, and in a waiting one if there is a message. -/
theorem isSome_recv_iff (h : Delivering world) :
    (world.step unlimited (.recv b)).isSome ↔
      (∃ packets, (world.transports b).activity = .draining packets) ∨
        ((world.transports b).activity = .waiting ∧ world.network.inbound b ≠ []) := by
  constructor
  · intro hsome
    obtain ⟨later, hlater⟩ := Option.isSome_iff_exists.mp hsome
    rcases recv_eq_some (h.genuine_inbound b) hlater with
      ⟨packets, hactivity, -, -⟩ | ⟨packets, -, -, hactivity, -, -⟩ |
        ⟨envelope, network, hactivity, htake, -⟩
    · exact Or.inl ⟨packets, hactivity⟩
    · exact Or.inl ⟨packets, hactivity⟩
    · obtain ⟨rest, hqueue, -⟩ := Network.take_eq_some htake
      exact Or.inr ⟨hactivity, by simp [hqueue]⟩
  · rintro (⟨packets, hactivity⟩ | ⟨hactivity, hinbound⟩)
    · cases hqueue : world.network.inbound b with
      | nil => rw [recv_of_draining_empty hactivity hqueue, Option.isSome_some]
      | cons envelope rest =>
        have hgenuine := h.genuine_inbound b envelope (by rw [hqueue]; exact List.mem_cons_self)
        obtain ⟨network, -, hstep⟩ := recv_of_draining hactivity hqueue hgenuine
        rw [hstep, Option.isSome_some]
    · obtain ⟨envelope, rest, hqueue⟩ := List.exists_cons_of_ne_nil hinbound
      have hgenuine := h.genuine_inbound b envelope (by rw [hqueue]; exact List.mem_cons_self)
      obtain ⟨network, -, hstep⟩ := recv_of_waiting hactivity hqueue hgenuine
      rw [hstep, Option.isSome_some]

/-! ## A `Receive` that keeps finding messages -/

/-- A `Send` to a connected endpoint that ZeroMQ accepts. -/
theorem send_of_idle {packet : Packet} (hsize : packet.messageSize < 2 ^ 64)
    (hidle : (world.transports a).activity = .idle) (hconnected : a.connected b = true) :
    world.step unlimited (.send a packet (some b)) = some { world with
      network := world.network.accept a b ⟨packet.message, packet⟩ } := by
  have hsixteen := packet.sixteen_le_messageSize
  rw [step, send, hidle, serializePacket_eq hsize rfl]
  simp only [socketSend, if_pos hconnected, Option.map_some, Packet.length_message]
  rw [if_neg (by omega)]

/-- A packet of `a` is sent, arrives and is read while `b` is in the loop of `Receive`. -/
theorem Delivering.exists_round (h : Delivering world) {packet : Packet}
    (hsize : packet.messageSize < 2 ^ 64) (hconnected : a.connected b = true)
    (hidle : (world.transports a).activity = .idle)
    (hdraining : ∃ packets, (world.transports b).activity = .draining packets) :
    ∃ later, Transition.run (ZmqWorld.step unlimited) world
        [.send a packet (some b), .deliver a b, .recv b] = some later ∧
      Delivering later ∧ (later.transports a).activity = .idle ∧
      ∃ packets, (later.transports b).activity = .draining packets := by
  obtain ⟨packets, hdraining⟩ := hdraining
  have hne : a ≠ b := by
    rintro rfl
    cases a <;> cases hconnected
  -- the packet is sent
  have hsend := send_of_idle hsize hidle hconnected
  have hsent := h.step (show ZmqAction.Sized (.send a packet (some b)) from hsize) hsend
  generalize hfirst : world.network.accept a b ⟨packet.message, packet⟩ = first at hsend hsent
  have hqueue : first.inFlight a b ≠ [] := by
    rw [← hfirst]
    simp [Network.accept]
  obtain ⟨envelope, rest, hqueue⟩ := List.exists_cons_of_ne_nil hqueue
  -- the oldest message of `a` arrives
  obtain ⟨second, hdeliver, harrived⟩ : ∃ second,
      ZmqWorld.step unlimited { world with network := first } (.deliver a b)
        = some { world with network := second } ∧ second.inbound b ≠ [] := by
    refine ⟨_, by rw [ZmqWorld.step, Network.deliver, hqueue, Option.map_some], ?_⟩
    simp
  have hdelivered := hsent.step (by exact trivial) hdeliver
  -- `b` takes the oldest message at its socket
  obtain ⟨oldest, others, hinbound⟩ := List.exists_cons_of_ne_nil harrived
  have hgenuine := hdelivered.genuine_inbound b oldest
    (show oldest ∈ second.inbound b by rw [hinbound]; exact List.mem_cons_self)
  obtain ⟨network, -, hrecv⟩ := @recv_of_draining ι _ { world with network := second } b packets
    oldest others hdraining hinbound hgenuine
  refine ⟨_, ?_, hdelivered.step (by exact trivial) hrecv, ?_, _, activity_setActivity ..⟩
  · rw [Transition.run_cons, hsend, Option.bind_some, Transition.run_cons, hdeliver, Option.bind_some,
      Transition.run_cons, hrecv]
    rfl
  · simpa [setActivity, hne] using hidle

/-- So a `Receive` that does not wait goes on as long as a peer goes on sending. -/
theorem Delivering.exists_rounds (h : Delivering world) {packet : Packet}
    (hsize : packet.messageSize < 2 ^ 64) (hconnected : a.connected b = true)
    (hidle : (world.transports a).activity = .idle)
    (hdraining : ∃ packets, (world.transports b).activity = .draining packets) (n : ℕ) :
    ∃ more later, Transition.run (ZmqWorld.step unlimited) world more = some later ∧
      .startReceive b ∉ more ∧ more.countP (ZmqAction.isRecvBy b) = n ∧
      ∃ packets, (later.transports b).activity = .draining packets := by
  induction n generalizing world with
  | zero => exact ⟨[], world, rfl, List.not_mem_nil, rfl, hdraining⟩
  | succ n ih =>
    obtain ⟨middle, hround, hmiddle, hidle, hdraining⟩ :=
      h.exists_round hsize hconnected hidle hdraining
    obtain ⟨more, later, hrun, hcall, hcount, hlater⟩ := ih hmiddle hidle hdraining
    refine ⟨[.send a packet (some b), .deliver a b, .recv b] ++ more, later, ?_, ?_, ?_, hlater⟩
    · rw [Transition.run_append, hround, Option.bind_some, hrun]
    · simpa using hcall
    · rw [List.countP_append, hcount]
      simp [ZmqAction.isRecvBy, Nat.add_comm]

/-! ## Catching up -/

/-- `b` can empty its socket with `Receive` calls of its own. -/
def CanEmpty (world : ZmqWorld ι) (b : Endpoint ι) : Prop :=
  ∃ more later, (∀ action ∈ more, action = .startReceive b ∨ action = .recv b) ∧
    Transition.run (ZmqWorld.step unlimited) world more = some later ∧
    (later.transports b).activity = .idle ∧ later.network.inbound b = [] ∧
    later.network.inFlight = world.network.inFlight

/-- One more step before it. -/
theorem CanEmpty.cons {action : ZmqAction ι} (haction : action = .startReceive b ∨ action = .recv b)
    (hstep : world.step unlimited action = some world')
    (hinFlight : world'.network.inFlight = world.network.inFlight) (h : world'.CanEmpty b) :
    world.CanEmpty b := by
  obtain ⟨more, later, hmore, hrun, hidle, hempty, hlater⟩ := h
  refine ⟨action :: more, later, List.forall_mem_cons.mpr ⟨haction, hmore⟩, ?_, hidle, hempty,
    hlater.trans hinFlight⟩
  exact Transition.run_cons_eq_some.mpr ⟨world', hstep, hrun⟩

namespace Delivering

/-- The loop of a `Receive` that does not wait empties the socket. -/
theorem canEmpty_of_draining (h : Delivering world) {packets : List (Receipt ι)}
    (hactivity : (world.transports b).activity = .draining packets) : world.CanEmpty b := by
  induction hqueue : world.network.inbound b generalizing world packets with
  | nil =>
    refine ⟨[.recv b], world.finish b ⟨false, packets⟩, by simp, ?_, ?_, hqueue, rfl⟩
    · exact Transition.run_cons_eq_some.mpr ⟨_, recv_of_draining_empty hactivity hqueue, rfl⟩
    · exact activity_setActivity ..
  | cons envelope rest ih =>
    have hgenuine := h.genuine_inbound b envelope (by rw [hqueue]; exact List.mem_cons_self)
    obtain ⟨network, htake, hstep⟩ := recv_of_draining hactivity hqueue hgenuine
    have hnext := h.step (by exact trivial) hstep
    obtain ⟨_, htail, rfl⟩ := Network.take_eq_some htake
    obtain ⟨-, rfl⟩ := List.cons.inj (hqueue.symm.trans htail)
    refine CanEmpty.cons (Or.inr rfl) hstep rfl (ih hnext (activity_setActivity ..) ?_)
    exact Function.update_self ..

/-- Between two calls the socket can be emptied, by one call or, when the calls wait, by one call for
each message. -/
theorem canEmpty_of_idle (h : Delivering world) (hidle : (world.transports b).activity = .idle) :
    world.CanEmpty b := by
  induction hqueue : world.network.inbound b generalizing world with
  | nil => exact ⟨[], world, by simp, rfl, hidle, hqueue, rfl⟩
  | cons envelope rest ih =>
    have hstart := startReceive_of_idle hidle
    have hstarted := h.step (by exact trivial) hstart
    refine CanEmpty.cons (Or.inl rfl) hstart rfl ?_
    split_ifs at hstart hstarted ⊢ with hwait
    · have hgenuine := h.genuine_inbound b envelope (by rw [hqueue]; exact List.mem_cons_self)
      obtain ⟨network, htake, hstep⟩ := recv_of_waiting
        (activity_setActivity world b .waiting) hqueue hgenuine
      have hnext := hstarted.step (by exact trivial) hstep
      obtain ⟨_, htail, rfl⟩ := Network.take_eq_some htake
      obtain ⟨-, rfl⟩ := List.cons.inj (hqueue.symm.trans htail)
      refine CanEmpty.cons (Or.inr rfl) hstep rfl (ih hnext (activity_setActivity ..) ?_)
      exact Function.update_self ..
    · exact hstarted.canEmpty_of_draining (activity_setActivity ..)

/-- The socket can be emptied in every state but one: a `Receive` waits and nothing has arrived. -/
theorem canEmpty (h : Delivering world)
    (hwaiting : (world.transports b).activity = .waiting → world.network.inbound b ≠ []) :
    world.CanEmpty b := by
  cases hactivity : (world.transports b).activity with
  | idle => exact h.canEmpty_of_idle hactivity
  | draining packets => exact h.canEmpty_of_draining hactivity
  | waiting =>
    obtain ⟨envelope, rest, hqueue⟩ := List.exists_cons_of_ne_nil (hwaiting hactivity)
    have hgenuine := h.genuine_inbound b envelope (by rw [hqueue]; exact List.mem_cons_self)
    obtain ⟨network, htake, hstep⟩ := recv_of_waiting hactivity hqueue hgenuine
    have hnext := h.step (by exact trivial) hstep
    obtain ⟨_, -, rfl⟩ := Network.take_eq_some htake
    exact CanEmpty.cons (Or.inr rfl) hstep rfl (hnext.canEmpty_of_idle (activity_setActivity ..))
  | failed fault => exact absurd hactivity (h.sound b fault)

end Delivering

/-- Deliveries of the network are steps of the system. -/
theorem run_deliver {order : List (Endpoint ι)} {network : Network (Endpoint ι) WireMessage}
    (h : Transition.run (fun net a => net.deliver a b) world.network order = some network) :
    Transition.run (ZmqWorld.step unlimited) world (order.map fun a => .deliver a b)
      = some { world with network := network } := by
  induction order generalizing world with
  | nil =>
    obtain rfl : world.network = network := Option.some.inj h
    rfl
  | cons a order ih =>
    obtain ⟨middle, hdeliver, hrest⟩ := Transition.run_cons_eq_some.mp h
    refine Transition.run_cons_eq_some.mpr ⟨{ world with network := middle }, ?_, ?_⟩
    · rw [step, hdeliver, Option.map_some]
    · exact ih hrest

/-- A receiver sends nothing. -/
theorem posted_of_receivesAt {more : List (ZmqAction ι)} (h : Delivering world)
    (hmore : ∀ action ∈ more, action.ReceivesAt b)
    (hrun : Transition.run (ZmqWorld.step unlimited) world more = some later) :
    Delivering later ∧ later.network.posted = world.network.posted := by
  apply Transition.run_induction_of_forall (fun _ later =>
    Delivering later ∧ later.network.posted = world.network.posted) ⟨h, rfl⟩ _ hmore hrun
  rintro _ action first second - ⟨hfirst, hposted⟩ haction hstep
  rw [← hposted]
  cases action with
  | send a packet route => exact haction.elim
  | deliver a c =>
    refine ⟨hfirst.step (by exact trivial) hstep, ?_⟩
    obtain ⟨network, hdeliver, rfl⟩ := Option.map_eq_some_iff.mp hstep
    obtain ⟨envelope, rest, -, rfl⟩ := Network.deliver_eq_some hdeliver
    rfl
  | startReceive c =>
    refine ⟨hfirst.step (by exact trivial) hstep, ?_⟩
    obtain ⟨-, ⟨-, rfl⟩ | ⟨-, rfl⟩⟩ := startReceive_eq_some hstep
    · rfl
    · rfl
  | recv c =>
    refine ⟨hfirst.step (by exact trivial) hstep, ?_⟩
    rcases recv_eq_some (hfirst.genuine_inbound c) hstep with
      ⟨packets, -, -, rfl⟩ | ⟨packets, envelope, network, -, htake, rfl⟩ |
        ⟨envelope, network, -, htake, rfl⟩
    · rfl
    · obtain ⟨rest, -, rfl⟩ := Network.take_eq_some htake
      rfl
    · obtain ⟨rest, -, rfl⟩ := Network.take_eq_some htake
      rfl
  | setWaitForMessages c waitForMessages => exact haction.elim

/-- An endpoint in no call, with nothing under way to it, returned what was routed to it. -/
theorem returned_eq_routed (h : Delivering world) (hidle : (world.transports b).activity = .idle)
    (hinbound : world.network.inbound b = [])
    (hinFlight : world.network.inFlight a b = []) :
    ((world.returned b).filter fun r => r.sender = a).map (fun r => (r.ticket, r.packet))
      = (world.network.routed a b).map fun envelope => (envelope.ticket, envelope.body.origin) := by
  have hreturned := h.returned_taken b
  rw [hidle, show (Activity.idle : Activity ι).packets = [] from rfl, List.append_nil] at hreturned
  have hbalance := h.conserved.balance a b
  rw [hinbound, hinFlight, List.append_nil, List.append_nil] at hbalance
  rw [hreturned, List.filter_map, List.map_map, ← hbalance]
  rfl

/-- An endpoint that waits while nothing is under way to it takes no step. -/
theorem eq_nil_of_receivesAt {more : List (ZmqAction ι)}
    (hwaiting : (world.transports b).activity = .waiting) (hinbound : world.network.inbound b = [])
    (hinFlight : ∀ a, world.network.inFlight a b = []) (hmore : ∀ action ∈ more, action.ReceivesAt b)
    (hrun : Transition.run (ZmqWorld.step unlimited) world more = some later) : more = [] := by
  cases more with
  | nil => rfl
  | cons action more =>
    obtain ⟨middle, hstep, -⟩ := Transition.run_cons_eq_some.mp hrun
    have haction := (List.forall_mem_cons.mp hmore).1
    cases action with
    | send a packet route => exact haction.elim
    | deliver a c =>
      obtain rfl : c = b := haction
      obtain ⟨network, hdeliver, -⟩ := Option.map_eq_some_iff.mp hstep
      rw [Network.deliver, hinFlight a] at hdeliver
      cases hdeliver
    | startReceive c =>
      obtain rfl : c = b := haction
      obtain ⟨hidle, -⟩ := startReceive_eq_some hstep
      rw [hwaiting] at hidle
      cases hidle
    | recv c =>
      obtain rfl : c = b := haction
      rw [recv_of_waiting_empty hwaiting hinbound] at hstep
      cases hstep
    | setWaitForMessages c waitForMessages => exact haction.elim

/-- What is under way to an endpoint arrives: it waits at its socket when everything was delivered. -/
theorem inbound_ne_nil_of_delivered {network : Network (Endpoint ι) WireMessage}
    (h : world.network.Conserved) (hnetwork : network.Conserved)
    (hhistory : network.posted = world.network.posted ∧ network.taken = world.network.taken)
    (hdelivered : ∀ a, network.inFlight a b = [])
    (hunderWay : world.network.inbound b ≠ [] ∨ ∃ a, world.network.inFlight a b ≠ []) :
    network.inbound b ≠ [] := by
  intro hempty
  -- otherwise everything routed to `b` was taken before the deliveries
  have hnone : ∀ a, Network.fromSender a (world.network.inbound b) = [] ∧
      world.network.inFlight a b = [] := by
    intro a
    have hafter := hnetwork.balance a b
    rw [hempty, hdelivered a, List.append_nil, List.append_nil, hhistory.2, Network.routed,
      hhistory.1, ← Network.routed, ← h.balance a b, Network.fromSender_append,
      List.append_assoc] at hafter
    exact List.append_eq_nil_iff.mp (List.self_eq_append_right.mp hafter)
  rcases hunderWay with hinbound | ⟨a, ha⟩
  · obtain ⟨envelope, rest, hqueue⟩ := List.exists_cons_of_ne_nil hinbound
    have hfirst := (hnone envelope.sender).1
    rw [hqueue] at hfirst
    simp [Network.fromSender] at hfirst
  · exact ha (hnone a).2

end ZmqWorld

omit [DecidableEq ι] in
/-- Every packet sent is smaller than the address space. -/
theorem ZmqAction.sized_of_forall {actions : List (ZmqAction ι)}
    (h : ∀ a packet route, ZmqAction.send a packet route ∈ actions →
      packet.schema.length + packet.data.length + 16 < 2 ^ 64) : ∀ action ∈ actions, action.Sized := by
  intro action hmem
  cases action with
  | send a packet route => exact h a packet route hmem
  | _ => trivial

/-- **How long a `Receive` takes.** From any state of any run on, while `b` starts no other `Receive`: the
`recv`s it makes and those it has left are at most those it had left and the messages that arrive. It is
kept from going on only while it waits for a message. But while a peer goes on sending, a `Receive` that
does not wait need not end. -/
theorem zmqTransport_receive_bounded (waitForMessages : Endpoint ι → Bool)
    (actions more : List (ZmqAction ι)) (world later : ZmqWorld ι) (b : Endpoint ι)
    (hsized : ∀ a packet route, ZmqAction.send a packet route ∈ actions ++ more →
      packet.schema.length + packet.data.length + 16 < 2 ^ 64)
    (hrun : Transition.run (ZmqWorld.step unlimited) (ZmqWorld.start waitForMessages) actions
      = some world)
    (hmore : Transition.run (ZmqWorld.step unlimited) world more = some later)
    (hcall : .startReceive b ∉ more) :
    more.countP (ZmqAction.isRecvBy b) + later.recvsLeft b
      ≤ more.countP (ZmqAction.deliversTo b) + world.recvsLeft b ∧
    ((later.step unlimited (.recv b)).isSome ↔
      (∃ packets, (later.transports b).activity = .draining packets) ∨
        ((later.transports b).activity = .waiting ∧ later.network.inbound b ≠ [])) ∧
    ∀ a (packet : Packet) n, a.connected b = true → (later.transports a).activity = .idle →
      (∃ packets, (later.transports b).activity = .draining packets) →
      packet.schema.length + packet.data.length + 16 < 2 ^ 64 →
      ∃ longer last, Transition.run (ZmqWorld.step unlimited) later longer = some last ∧
        .startReceive b ∉ longer ∧ longer.countP (ZmqAction.isRecvBy b) = n ∧
        ∃ packets, (last.transports b).activity = .draining packets := by
  have hactions := ZmqAction.sized_of_forall hsized
  have hworld := (ZmqWorld.delivering_of_run
    (fun action hmem => hactions action (List.mem_append_left _ hmem)) hrun).1
  have hlater := (ZmqWorld.delivering_of_run hactions
    (by rw [Transition.run_append, hrun]; exact hmore)).1
  refine ⟨?_, ZmqWorld.isSome_recv_iff hlater, fun a packet n hconnected hidle hdraining hsize =>
    hlater.exists_rounds hsize hconnected hidle hdraining n⟩
  have hallowed : ∀ action ∈ more, action.Sized ∧ action ≠ .startReceive b := by
    intro action hmem
    refine ⟨hactions action (List.mem_append_right _ hmem), ?_⟩
    rintro rfl
    exact hcall hmem
  exact Transition.run_potential (fun world => world.recvsLeft b) _ _ hworld
    (fun _ _ _ h hallowed hstep => h.step hallowed.1 hstep)
    (fun _ _ _ h hallowed hstep => ZmqWorld.recvsLeft_step h hallowed.1 hallowed.2 hstep) hallowed hmore

/-- The server finds one message, and another one arrives while it reads. -/
theorem zmqTransport_receive_bounded_arriving :
    ∃ world later, Transition.run (ZmqWorld.step unlimited)
        (ZmqWorld.start fun _ : Endpoint Unit => false)
        [.send (.client ()) ⟨[65], [1]⟩ (some .server), .deliver (.client ()) .server,
          .startReceive .server] = some world ∧
      Transition.run (ZmqWorld.step unlimited) world
        [.send (.client ()) ⟨[66], [2]⟩ (some .server), .recv .server,
          .deliver (.client ()) .server, .recv .server] = some later ∧
      2 + later.recvsLeft .server ≤ 1 + world.recvsLeft .server ∧
      (later.step unlimited (.recv .server)).isSome := by
  have hsized : ∀ a packet route, ZmqAction.send a packet route ∈ [
      .send (.client ()) ⟨[65], [1]⟩ (some .server), .deliver (.client ()) .server,
        .startReceive .server] ++ [.send (.client ()) ⟨[66], [2]⟩ (some .server), .recv .server,
          .deliver (.client ()) .server, .recv .server] →
      packet.schema.length + packet.data.length + 16 < 2 ^ 64 := by
    intro a packet route hmem
    simp only [List.cons_append, List.nil_append, List.mem_cons, ZmqAction.send.injEq, reduceCtorEq,
      false_or, List.not_mem_nil, or_false] at hmem
    rcases hmem with ⟨-, rfl, -⟩ | ⟨-, rfl, -⟩ <;> decide
  obtain ⟨world, later, hrun, hmore, hdraining⟩ : ∃ world later,
      Transition.run (ZmqWorld.step unlimited) (ZmqWorld.start fun _ : Endpoint Unit => false)
        [.send (.client ()) ⟨[65], [1]⟩ (some .server), .deliver (.client ()) .server,
          .startReceive .server] = some world ∧
      Transition.run (ZmqWorld.step unlimited) world
        [.send (.client ()) ⟨[66], [2]⟩ (some .server), .recv .server,
          .deliver (.client ()) .server, .recv .server] = some later ∧
      ∃ packets, (later.transports .server).activity = .draining packets := ⟨_, _, rfl, rfl, _, rfl⟩
  obtain ⟨hbound, hpossible, -⟩ := zmqTransport_receive_bounded (fun _ : Endpoint Unit => false) _ _
    world later .server hsized hrun hmore (by simp)
  exact ⟨world, later, hrun, hmore, hbound, hpossible.mpr (Or.inl hdraining)⟩

/-- **Nothing accepted is lost.** In any state of any run, deliveries to `b` and `Receive` calls of `b`
can lead to a state in which `b` returned, in order and unchanged, exactly what was routed to it, unless
`b` is in a `Receive` that waits and no message is under way to it. -/
theorem zmqTransport_catches_up_iff (waitForMessages : Endpoint ι → Bool)
    (actions : List (ZmqAction ι)) (world : ZmqWorld ι) (b : Endpoint ι)
    (hsized : ∀ a packet route, ZmqAction.send a packet route ∈ actions →
      packet.schema.length + packet.data.length + 16 < 2 ^ 64)
    (hrun : Transition.run (ZmqWorld.step unlimited) (ZmqWorld.start waitForMessages) actions
      = some world) :
    (∃ more later, (∀ action ∈ more, action.ReceivesAt b) ∧
        Transition.run (ZmqWorld.step unlimited) world more = some later ∧
        (later.transports b).activity = .idle ∧
        ∀ a, ((later.returned b).filter fun r => r.sender = a).map (fun r => (r.ticket, r.packet))
          = (world.network.routed a b).map fun envelope => (envelope.ticket, envelope.body.origin)) ↔
      ((world.transports b).activity = .waiting →
        world.network.inbound b ≠ [] ∨ ∃ a, world.network.inFlight a b ≠ []) := by
  have h := (ZmqWorld.delivering_of_run (ZmqAction.sized_of_forall hsized) hrun).1
  constructor
  · rintro ⟨more, later, hmore, hlater, hidle, -⟩ hwaiting
    by_contra hnothing
    rw [not_or, not_not, not_exists] at hnothing
    obtain rfl := ZmqWorld.eq_nil_of_receivesAt hwaiting hnothing.1
      (fun a => not_not.mp (hnothing.2 a)) hmore hlater
    obtain rfl : world = later := Option.some.inj hlater
    rw [hwaiting] at hidle
    cases hidle
  · intro hunderWay
    -- first everything arrives, then `b` reads it
    obtain ⟨order, network, horder, hdelivered⟩ := h.conserved.exists_run_delivered b
    have hdeliver := ZmqWorld.run_deliver horder
    have hfirst : ∀ action ∈ order.map fun a => ZmqAction.deliver a b, action.ReceivesAt b := by
      rw [List.forall_mem_map]
      exact fun _ _ => rfl
    have harrived := (ZmqWorld.posted_of_receivesAt h hfirst hdeliver).1
    obtain ⟨more, later, hmore, hread, hidle, hempty, hinFlight⟩ := harrived.canEmpty fun hwaiting =>
      ZmqWorld.inbound_ne_nil_of_delivered h.conserved harrived.conserved
        (Network.history_of_run horder) hdelivered (hunderWay hwaiting)
    have hall : ∀ action ∈ (order.map fun a => ZmqAction.deliver a b) ++ more,
        action.ReceivesAt b := by
      refine List.forall_mem_append.mpr ⟨hfirst, fun action hmem => ?_⟩
      rcases hmore action hmem with rfl | rfl
      · rfl
      · rfl
    have hlater : Transition.run (ZmqWorld.step unlimited) world
        ((order.map fun a => .deliver a b) ++ more) = some later := by
      rw [Transition.run_append, hdeliver, Option.bind_some, hread]
    obtain ⟨hdelivering, hposted⟩ := ZmqWorld.posted_of_receivesAt h hall hlater
    refine ⟨_, later, hall, hlater, hidle, fun a => ?_⟩
    rw [ZmqWorld.returned_eq_routed hdelivering hidle hempty (by rw [hinFlight]; exact hdelivered a),
      Network.routed, hposted, ← Network.routed]

/-- A message that is on its way can still be returned. -/
theorem zmqTransport_catches_up_iff_waiting :
    ∃ world, Transition.run (ZmqWorld.step unlimited) (ZmqWorld.start fun _ : Endpoint Unit => true)
        [.send (.client ()) ⟨[65], [1]⟩ (some .server), .startReceive .server] = some world ∧
      ∃ more later, (∀ action ∈ more, action.ReceivesAt .server) ∧
        Transition.run (ZmqWorld.step unlimited) world more = some later ∧
        (later.transports .server).activity = .idle ∧
        ∀ a, ((later.returned .server).filter fun r => r.sender = a).map (fun r => (r.ticket, r.packet))
          = (world.network.routed a .server).map fun envelope =>
            (envelope.ticket, envelope.body.origin) := by
  have hsized : ∀ a packet route, ZmqAction.send a packet route ∈ [
      .send (.client ()) ⟨[65], [1]⟩ (some .server), .startReceive .server] →
      packet.schema.length + packet.data.length + 16 < 2 ^ 64 := by
    intro a packet route hmem
    simp only [List.mem_cons, ZmqAction.send.injEq, reduceCtorEq, List.not_mem_nil,
      or_false] at hmem
    obtain ⟨-, rfl, -⟩ := hmem
    decide
  obtain ⟨world, hrun, hinFlight⟩ : ∃ world, Transition.run (ZmqWorld.step unlimited)
      (ZmqWorld.start fun _ : Endpoint Unit => true)
      [.send (.client ()) ⟨[65], [1]⟩ (some .server), .startReceive .server] = some world ∧
      world.network.inFlight (.client ()) .server = [⟨0, .client (), some .server,
        ⟨(⟨[65], [1]⟩ : Packet).message, ⟨[65], [1]⟩⟩⟩] := ⟨_, rfl, rfl⟩
  refine ⟨world, hrun, ?_⟩
  exact (zmqTransport_catches_up_iff (fun _ : Endpoint Unit => true) _ world .server hsized hrun).mpr
    fun _ => Or.inr ⟨.client (), by rw [hinFlight]; exact List.cons_ne_nil _ _⟩

end Contra
