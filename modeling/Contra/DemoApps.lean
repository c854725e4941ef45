import Contra.Relay

/-! # The demo programs (`demo_sender.cpp`, `demo_receiver.cpp`)

`contra-demo-sender` sends one node five times over shared memory and ends; `contra-demo-receiver` receives
until it gets a node, and prints it. Their calls come in any order, one at a time. Nobody calls `Destroy`, so
that the objects alive share one queue (`Hosts`). `demo_receiver_ends_iff` says what the receiver prints, and
when it can end: it waits for ever exactly if the sender was gone before it came. -/

namespace Contra

/-! ## One queue without `Destroy` -/

section Hosts

variable {ι μ : Type*}

/-- The objects `alive` share a queue with the given messages. -/
structure Hosts (pack : μ → Packet) (world : ShmWorld ι) (alive : Finset ι) (messages : List μ) :
    Prop where
  /-- The queues of the epochs, of which there is one. -/
  queues : ∃ handles queues, EpochQueues.Refines pack handles world queues ∧
    queues.epochs.current = 0 ∧ queues.epochs.live 0 = alive ∧
    (∀ epoch, epoch ≠ 0 → queues.epochs.live epoch = ∅) ∧
    (alive.Nonempty → queues.queue 0 = messages)

namespace Hosts

variable {pack : μ → Packet} {world : ShmWorld ι} {alive : Finset ι} {messages : List μ} {i : ι}

/-- Nobody is alive at the start. -/
theorem start (hunbound : world.memory.segments.bound = none) (hnone : ∀ i, world.transports i = none) :
    Hosts pack world ∅ messages := by
  refine ⟨fun _ => ⟨0, 0, ⟨0, 0⟩, ⟨0, 0⟩⟩, .start, ⟨ShmWorld.generations_start hunbound hnone _, ?_⟩,
    rfl, rfl, fun _ _ => rfl, fun hempty => absurd rfl hempty.ne_empty⟩
  exact fun epoch hlive => absurd rfl hlive.ne_empty

variable [DecidableEq ι]

/-- A new object finds the messages there are, and none if it is the only one. -/
theorem construct (h : Hosts pack world alive messages) (hi : i ∉ alive) : ∃ world',
    world.step (.construct i) = some world' ∧
      Hosts pack world' (insert i alive) (if alive = ∅ then [] else messages) := by
  obtain ⟨handles, queues, hrefines, hcurrent, hlive, hothers, hqueue⟩ := h.queues
  have hdead : world.transports i = none := by
    rw [← Option.isNone_iff_eq_none, ← Option.isSome_eq_false_iff, ← Bool.not_eq_true,
      ← hrefines.alive_iff]
    rintro ⟨epoch, -, hmem⟩
    by_cases hepoch : epoch = 0
    · rw [hepoch, hlive] at hmem
      exact hi hmem
    · rw [hothers epoch hepoch] at hmem
      exact absurd hmem (Finset.notMem_empty i)
  obtain ⟨handles', world', hstep, hrefines'⟩ := hrefines.construct hdead
  refine ⟨world', hstep, handles', _, hrefines', hcurrent, ?_, fun epoch hepoch => ?_, fun _ => ?_⟩
  · have hnext := queues.epochs.live_next_construct_current i
    rwa [hcurrent, hlive] at hnext
  · rw [queues.epochs.live_next_construct_of_ne i (by rw [hcurrent]; exact hepoch)]
    exact hothers epoch hepoch
  · dsimp only
    rw [hcurrent, hlive]
    by_cases halive : alive = ∅
    · rw [if_pos halive, if_pos halive, Function.update_self]
    · rw [if_neg halive, if_neg halive, hqueue (Finset.nonempty_iff_ne_empty.mpr halive)]

/-- An object that goes leaves the messages to the others. -/
theorem destruct (h : Hosts pack world alive messages) (hi : i ∈ alive) : ∃ world',
    world.step (.destruct i) = some world' ∧ Hosts pack world' (alive.erase i) messages := by
  obtain ⟨handles, queues, hrefines, hcurrent, hlive, hothers, hqueue⟩ := h.queues
  have htimely : queues.epochs.Timely (.destruct i) := by
    intro epoch hlt
    rw [hcurrent] at hlt
    exact absurd hlt (Nat.not_lt_zero epoch)
  obtain ⟨world', hstep, hrefines'⟩ := hrefines.destruct (by rw [hlive]; exact hi) htimely
  refine ⟨world', hstep, handles, _, hrefines', hcurrent, ?_, fun epoch hepoch => ?_, fun hrest => ?_⟩
  · rw [queues.epochs.live_next_destruct, hlive]
  · rw [queues.epochs.live_next_destruct, hothers epoch hepoch, Finset.erase_empty]
  · exact hqueue (hrest.mono (Finset.erase_subset ..))

/-- A `Send` adds its message. -/
theorem send (h : Hosts pack world alive messages) (hi : i ∈ alive) (message : μ) : ∃ world',
    world.step (.call (.send i (pack message))) = some world' ∧
      Hosts pack world' alive (messages ++ [message]) := by
  obtain ⟨handles, queues, hrefines, hcurrent, hlive, hothers, hqueue⟩ := h.queues
  have hmem : i ∈ queues.epochs.live 0 := by rwa [hlive]
  have hrel := hrefines.step (show queues.Timely (.send i message) from trivial)
  rw [EpochQueues.step, if_pos ⟨0, Nat.succ_pos _, hmem⟩] at hrel
  obtain ⟨world', hworld, handles', hrefines'⟩ := Transition.exists_of_rel_some hrel
  refine ⟨world', hworld, handles', _, hrefines', hcurrent, hlive, hothers, fun hsome => ?_⟩
  rw [EpochQueues.queue_change_of_mem hmem, hqueue hsome]

/-- A `Receive` takes all of them. -/
theorem receive (h : Hosts pack world alive messages) (hi : i ∈ alive) : ∃ world',
    ShmWorld.transport.receive i world = some (messages.map pack, world') ∧
      Hosts pack world' alive [] := by
  obtain ⟨handles, queues, hrefines, hcurrent, hlive, hothers, hqueue⟩ := h.queues
  have hmem : i ∈ queues.epochs.live 0 := by rwa [hlive]
  have hreceived := hrefines.received_eq hmem
  rw [hqueue ⟨i, hi⟩] at hreceived
  have hrel := hrefines.step (show queues.Timely (.receive i) from trivial)
  rw [EpochQueues.step, if_pos ⟨0, Nat.succ_pos _, hmem⟩] at hrel
  obtain ⟨world', hworld, handles', hrefines'⟩ := Transition.exists_of_rel_some hrel
  refine ⟨world', ?_, handles', _, hrefines', hcurrent, hlive, hothers, fun _ => ?_⟩
  · have hcall : world.step (.call (.receive i)) = some world' := hworld
    simp only [ShmWorld.transport, hreceived, Option.bind_some, hcall, Option.map_some]
  · rw [EpochQueues.queue_change_of_mem hmem]

end Hosts

end Hosts

/-! ## The programs -/

/-- The calls of `contra-demo-sender`. -/
def demoSender {Node : Type*} (node : Node) : List (QueueAction Bool Node) :=
  .construct true :: List.replicate 5 (.send true node) ++ [.destruct true]

/-- Where `contra-demo-receiver` is. -/
inductive DemoReceiver (Node : Type*) where
  /-- Not started. -/
  | start
  /-- In its loop. -/
  | polling
  /-- It has printed the first of these nodes. -/
  | printed (data : List Node)
  /-- Its relay is gone. -/
  | ended (data : List Node)
  /-- `Receive` has thrown. -/
  | failed

/-- Both programs; the relay of the sender is `true` and that of the receiver `false`. -/
structure Demo (Node : Type*) where
  /-- The shared memory. -/
  world : ShmWorld Bool
  /-- How many of its calls the sender has made. -/
  done : ℕ
  /-- The receiver. -/
  receiver : DemoReceiver Node
  /-- History: how many calls the sender had made when the receiver started. -/
  joinedAt : Option ℕ

/-- The program that makes its next call. -/
inductive DemoAction where
  /-- `contra-demo-sender`. -/
  | sender
  /-- `contra-demo-receiver`. -/
  | receiver

namespace Demo

variable {Node Schema : Type*} (conduit : Conduit Node Schema) (node : Node)

/-- Neither program has started. -/
def start (world : ShmWorld Bool) : Demo Node := ⟨world, 0, .start, none⟩

/-- The next call of a program. -/
def step (demo : Demo Node) : DemoAction → Option (Demo Node)
  | .sender => (demoSender node)[demo.done]?.bind fun call =>
      (demo.world.relayStep conduit call).map fun world =>
        { demo with world := world, done := demo.done + 1 }
  | .receiver =>
    match demo.receiver with
    | .start => (demo.world.relayStep conduit (.construct false)).map fun world =>
        { demo with world := world, receiver := .polling, joinedAt := some demo.done }
    | .polling => (Relay.receive conduit ShmWorld.transport false demo.world).map fun (nodes, world) =>
        let receiver := match nodes with
          | none => .failed
          -- the loop goes on while there are no nodes
          | some [] => .polling
          | some data => .printed data
        { demo with world := world, receiver := receiver }
    | .printed data => (demo.world.relayStep conduit (.destruct false)).map fun world =>
        { demo with world := world, receiver := .ended data }
    | .ended _ => none
    | .failed => none

/-! ## The invariant -/

variable {conduit} {node}

/-- Whether a relay is alive. -/
def isAlive (demo : Demo Node) : Bool → Bool
  | true => decide (1 ≤ demo.done ∧ demo.done ≤ 6)
  | false =>
    match demo.receiver with
    | .polling => true
    | .printed _ => true
    | _ => false

/-- The relays that are alive. -/
def alive (demo : Demo Node) : Finset Bool := Finset.univ.filter fun relay => demo.isAlive relay = true

/-- How often the sender has sent after its first calls. -/
def sends (done : ℕ) : ℕ := min 5 (done - 1)

/-- What a place of the receiver says of the `k` nodes that wait: before it starts, all nodes that were
sent wait, and while it polls, if it came in time. -/
def Agrees (received : Node) (done : ℕ) (joinedAt : Option ℕ) (k : ℕ) : DemoReceiver Node → Prop
  | .start => k = sends done ∧ joinedAt = none
  | .polling => ∃ joined, joinedAt = some joined ∧ joined ≤ done ∧
      k = if joined < 7 then sends done else 0
  | .printed data => ∃ j, 1 ≤ j ∧ j ≤ 5 ∧ data = List.replicate j received
  | .ended data => ∃ j, 1 ≤ j ∧ j ≤ 5 ∧ data = List.replicate j received
  | .failed => False

/-- The programs after any calls, for a node of which `received` arrives: `k` nodes wait. -/
structure Reached (conduit : Conduit Node Schema) (node received : Node) (demo : Demo Node) (k : ℕ) :
    Prop where
  /-- They are in the queue. -/
  hosts : Hosts (Relay.createPacket conduit) demo.world demo.alive (List.replicate k node)
  /-- They were sent. -/
  sent : k ≤ sends demo.done
  /-- The sender makes its calls once. -/
  bounded : demo.done ≤ 7
  /-- Where the receiver is. -/
  receiver : Agrees received demo.done demo.joinedAt k demo.receiver

/-- The calls of the sender. -/
theorem getElem?_demoSender (node : Node) (done : ℕ) :
    (demoSender node)[done]? =
      if done = 0 then some (.construct true)
      else if done ≤ 5 then some (.send true node)
      else if done = 6 then some (.destruct true)
      else none := by
  by_cases hdone : done < 7
  · interval_cases done <;> rfl
  · rw [if_neg (by omega), if_neg (by omega), if_neg (by omega)]
    exact List.getElem?_eq_none (by simp [demoSender]; omega)

variable {received : Node} {demo : Demo Node} {k : ℕ}

/-- The sender's relay is alive between its first call and its last one. -/
theorem alive_sender (demo : Demo Node) (world : ShmWorld Bool) (done : ℕ) :
    ({ demo with world := world, done := done } : Demo Node).alive
      = if 1 ≤ done ∧ done ≤ 6 then insert true demo.alive else demo.alive.erase true := by
  split_ifs with hdone
  · ext relay
    cases relay <;> simp [alive, isAlive, hdone]
  · ext relay
    cases relay <;> simp [alive, isAlive, hdone]

/-- The receiver's relay is alive while it polls and prints. -/
theorem alive_receiver (demo : Demo Node) (world : ShmWorld Bool) (receiver : DemoReceiver Node)
    (joinedAt : Option ℕ) :
    ({ demo with world := world, receiver := receiver, joinedAt := joinedAt } : Demo Node).alive
      = if ({ demo with receiver := receiver } : Demo Node).isAlive false then insert false demo.alive
        else demo.alive.erase false := by
  split_ifs with halive
  · ext relay
    cases relay
    · simpa [alive, isAlive] using halive
    · simp [alive, isAlive]
  · ext relay
    cases relay
    · simpa [alive, isAlive] using halive
    · simp [alive, isAlive]

/-- At the start nothing waits. -/
theorem reached_start {world : ShmWorld Bool} (hunbound : world.memory.segments.bound = none)
    (hnone : ∀ i, world.transports i = none) :
    Reached conduit node received (.start world : Demo Node) 0 :=
  ⟨.start hunbound hnone, Nat.zero_le _, Nat.zero_le _, rfl, rfl⟩

namespace Reached

/-- The sender goes on: where all nodes wait, they still do. -/
theorem of_sender (h : Reached conduit node received demo k) (hdone : demo.done < 7)
    {world : ShmWorld Bool} {k' : ℕ}
    (hhosts : Hosts (Relay.createPacket conduit) world
      ({ demo with world := world, done := demo.done + 1 } : Demo Node).alive (List.replicate k' node))
    (hsends : k' + sends demo.done = k + sends (demo.done + 1)) :
    Reached conduit node received { demo with world := world, done := demo.done + 1 } k' := by
  have hsent := h.sent
  have hagrees := h.receiver
  refine ⟨hhosts, by dsimp only; omega, Nat.succ_le_of_lt hdone, ?_⟩
  dsimp only
  cases hplace : demo.receiver with
  | start =>
    rw [hplace] at hagrees
    exact ⟨by have := hagrees.1; omega, hagrees.2⟩
  | polling =>
    rw [hplace] at hagrees
    obtain ⟨joined, hjoined, hle, hk⟩ := hagrees
    refine ⟨joined, hjoined, Nat.le_succ_of_le hle, ?_⟩
    rw [if_pos (by omega)] at hk ⊢
    omega
  | printed data => rwa [hplace] at hagrees
  | ended data => rwa [hplace] at hagrees
  | failed => rwa [hplace] at hagrees

/-- **The sender** can make each of its calls. -/
theorem sender (h : Reached conduit node received demo k) (hdone : demo.done < 7) :
    ∃ demo' k', demo.step conduit node .sender = some demo' ∧
      Reached conduit node received demo' k' := by
  have hsent := h.sent
  rw [step, getElem?_demoSender]
  rcases Nat.eq_zero_or_pos demo.done with hfirst | hpos
  · -- the constructor: there is no node yet
    have hdead : true ∉ demo.alive := by simp [alive, isAlive, hfirst]
    obtain ⟨world, hstep, hhosts⟩ := h.hosts.construct hdead
    have halive := demo.alive_sender world (demo.done + 1)
    have hnone : k = 0 := by
      rw [sends, hfirst] at hsent
      omega
    subst hnone
    rw [List.replicate_zero, ite_self] at hhosts
    rw [if_pos (by omega)] at halive
    refine ⟨_, 0, ?_, h.of_sender hdone (by rw [halive]; exact hhosts) (by simp [sends, hfirst])⟩
    rw [if_pos hfirst, Option.bind_some, ShmWorld.relayStep, hstep, Option.map_some]
  have hlive : true ∈ demo.alive := by
    simp [alive, isAlive]
    omega
  rw [if_neg (by omega)]
  by_cases hlast : demo.done ≤ 5
  · -- a send
    obtain ⟨world, hstep, hhosts⟩ := h.hosts.send hlive node
    have halive := demo.alive_sender world (demo.done + 1)
    rw [if_pos (by omega), Finset.insert_eq_of_mem hlive] at halive
    rw [← List.replicate_succ'] at hhosts
    refine ⟨_, k + 1, ?_, h.of_sender hdone (by rw [halive]; exact hhosts) (by rw [sends, sends]; omega)⟩
    rw [if_pos hlast, Option.bind_some]
    simp only [ShmWorld.relayStep, Relay.send, ShmWorld.transport, hstep, Option.map_some]
  · -- the destructor
    obtain ⟨world, hstep, hhosts⟩ := h.hosts.destruct hlive
    have halive := demo.alive_sender world (demo.done + 1)
    rw [if_neg (by omega)] at halive
    refine ⟨_, k, ?_, h.of_sender hdone (by rw [halive]; exact hhosts) (by rw [sends, sends]; omega)⟩
    rw [if_neg hlast, if_pos (by omega), Option.bind_some, ShmWorld.relayStep, hstep, Option.map_some]

/-- Every copy of the node is the same. -/
theorem mapM_copy_replicate (hcopy : Relay.copy conduit node = some received) (k : ℕ) :
    (List.replicate k node).mapM (Relay.copy conduit) = some (List.replicate k received) := by
  induction k with
  | zero => rfl
  | succ k ih =>
    rw [List.replicate_succ, List.mapM_cons, hcopy, ih]
    rfl

/-- The receiver starts: it finds what was sent, unless the sender is gone. -/
theorem receiver_start (h : Reached conduit node received demo k) (hplace : demo.receiver = .start) :
    ∃ demo' k', demo.step conduit node .receiver = some demo' ∧
      Reached conduit node received demo' k' := by
  have hagrees := h.receiver
  rw [hplace] at hagrees
  obtain ⟨hk, -⟩ := hagrees
  have hdead : false ∉ demo.alive := by simp [alive, isAlive, hplace]
  obtain ⟨world, hstep, hhosts⟩ := h.hosts.construct hdead
  have halive := demo.alive_receiver world .polling (some demo.done)
  rw [if_pos (by simp only [isAlive])] at halive
  refine ⟨{ demo with world := world, receiver := .polling, joinedAt := some demo.done },
    if demo.done < 7 then sends demo.done else 0, ?_,
    ⟨?_, ?_, h.bounded, demo.done, rfl, le_rfl, rfl⟩⟩
  · rw [step, hplace]
    simp only [ShmWorld.relayStep, hstep, Option.map_some]
  · dsimp only at halive ⊢
    rw [halive]
    have hmessages : (if demo.alive = ∅ then [] else List.replicate k node)
        = List.replicate (if demo.done < 7 then sends demo.done else 0) node := by
      by_cases hsender : 1 ≤ demo.done ∧ demo.done ≤ 6
      · have hlive : true ∈ demo.alive := by simpa [alive, isAlive] using hsender
        rw [if_neg (Finset.ne_empty_of_mem hlive), if_pos (by omega), hk]
      · have hempty : demo.alive = ∅ := by
          ext relay
          cases relay <;> simp [alive, isAlive, hplace, hsender]
        have hzero : (if demo.done < 7 then sends demo.done else 0) = 0 := by
          rw [sends]
          split_ifs <;> omega
        rw [if_pos hempty, hzero, List.replicate_zero]
    rw [← hmessages]
    exact hhosts
  · dsimp only
    split_ifs
    · exact le_rfl
    · exact Nat.zero_le _

/-- A `Receive` leaves the receiver's relay alive. -/
theorem of_receive (h : Reached conduit node received demo k) (hplace : demo.receiver = .polling)
    {world : ShmWorld Bool} (hhosts : Hosts (Relay.createPacket conduit) world demo.alive [])
    {receiver : DemoReceiver Node}
    (hlive : ({ demo with receiver := receiver } : Demo Node).isAlive false = true)
    (hagrees : Agrees received demo.done demo.joinedAt 0 receiver) :
    Reached conduit node received { demo with world := world, receiver := receiver } 0 := by
  have hmem : false ∈ demo.alive := by simp [alive, isAlive, hplace]
  have halive := demo.alive_receiver world receiver demo.joinedAt
  rw [if_pos hlive, Finset.insert_eq_of_mem hmem] at halive
  refine ⟨?_, Nat.zero_le _, h.bounded, hagrees⟩
  dsimp only at halive ⊢
  rw [halive]
  exact hhosts

/-- What the receiver makes of the nodes that wait. -/
theorem step_polling (h : Reached conduit node received demo k)
    (hcopy : Relay.copy conduit node = some received) (hplace : demo.receiver = .polling) :
    ∃ world, Hosts (Relay.createPacket conduit) world demo.alive [] ∧
      demo.step conduit node .receiver = some { demo with
        world := world
        receiver := if k = 0 then .polling else .printed (List.replicate k received) } := by
  have hlive : false ∈ demo.alive := by simp [alive, isAlive, hplace]
  obtain ⟨world, hreceive, hhosts⟩ := h.hosts.receive hlive
  have hnodes := Relay.receive_of_transport hreceive
  rw [mapM_copy_replicate hcopy] at hnodes
  refine ⟨world, hhosts, ?_⟩
  rw [step, hplace]
  simp only [hnodes, Option.map_some]
  cases k <;> rfl

/-- The receiver goes on if no node waits. -/
theorem receiver_waits (h : Reached conduit node received demo 0)
    (hcopy : Relay.copy conduit node = some received) (hplace : demo.receiver = .polling) :
    ∃ world, demo.step conduit node .receiver = some { demo with world := world } ∧
      Reached conduit node received { demo with world := world } 0 := by
  obtain ⟨world, hhosts, hstep⟩ := h.step_polling hcopy hplace
  rw [if_pos rfl, ← hplace] at hstep
  exact ⟨world, hstep, h.of_receive hplace hhosts (by simp only [isAlive, hplace]) h.receiver⟩

/-- It prints if some do. -/
theorem receiver_prints (h : Reached conduit node received demo k)
    (hcopy : Relay.copy conduit node = some received) (hplace : demo.receiver = .polling)
    (hk : k ≠ 0) :
    ∃ world, demo.step conduit node .receiver = some { demo with
        world := world
        receiver := .printed (List.replicate k received) } ∧
      Reached conduit node received { demo with
        world := world
        receiver := .printed (List.replicate k received) } 0 := by
  have hsent := h.sent
  rw [sends] at hsent
  obtain ⟨world, hhosts, hstep⟩ := h.step_polling hcopy hplace
  rw [if_neg hk] at hstep
  exact ⟨world, hstep, h.of_receive hplace hhosts (by simp only [isAlive])
    ⟨k, Nat.one_le_iff_ne_zero.mpr hk, by omega, rfl⟩⟩

/-- The receiver ends: its relay leaves the nodes to the sender's. -/
theorem receiver_ends (h : Reached conduit node received demo k) {data : List Node}
    (hplace : demo.receiver = .printed data) :
    ∃ demo', demo.step conduit node .receiver = some demo' ∧
      Reached conduit node received demo' k := by
  have hagrees := h.receiver
  rw [hplace] at hagrees
  have hlive : false ∈ demo.alive := by simp [alive, isAlive, hplace]
  obtain ⟨world, hstep, hhosts⟩ := h.hosts.destruct hlive
  have halive := demo.alive_receiver world (.ended data) demo.joinedAt
  rw [if_neg (by simp [isAlive])] at halive
  refine ⟨{ demo with world := world, receiver := .ended data }, ?_,
    ⟨?_, h.sent, h.bounded, hagrees⟩⟩
  · rw [step, hplace]
    simp only [ShmWorld.relayStep, hstep, Option.map_some]
  · dsimp only at halive ⊢
    rw [halive]
    exact hhosts

/-- **The receiver** can make each of its calls. -/
theorem receiver_step (h : Reached conduit node received demo k)
    (hcopy : Relay.copy conduit node = some received)
    (hended : ∀ data, demo.receiver ≠ .ended data) :
    ∃ demo' k', demo.step conduit node .receiver = some demo' ∧
      Reached conduit node received demo' k' := by
  cases hplace : demo.receiver with
  | start => exact h.receiver_start hplace
  | polling =>
    by_cases hk : k = 0
    · subst hk
      obtain ⟨world, hstep, hreached⟩ := h.receiver_waits hcopy hplace
      exact ⟨_, 0, hstep, hreached⟩
    · obtain ⟨world, hstep, hreached⟩ := h.receiver_prints hcopy hplace hk
      exact ⟨_, 0, hstep, hreached⟩
  | printed data =>
    obtain ⟨demo', hstep, hreached⟩ := h.receiver_ends hplace
    exact ⟨demo', k, hstep, hreached⟩
  | ended data => exact absurd hplace (hended data)
  | failed =>
    have hagrees := h.receiver
    rw [hplace] at hagrees
    exact hagrees.elim

/-- Every step. -/
theorem next (h : Reached conduit node received demo k)
    (hcopy : Relay.copy conduit node = some received) {action : DemoAction} {demo' : Demo Node}
    (hstep : demo.step conduit node action = some demo') :
    ∃ k', Reached conduit node received demo' k' := by
  cases action with
  | sender =>
    have hdone : demo.done < 7 := by
      by_contra hdone
      rw [step, getElem?_demoSender, if_neg (by omega), if_neg (by omega), if_neg (by omega)] at hstep
      cases hstep
    obtain ⟨later, k', hlater, hreached⟩ := h.sender hdone
    obtain rfl := Option.some.inj (hlater.symm.trans hstep)
    exact ⟨k', hreached⟩
  | receiver =>
    have hended : ∀ data, demo.receiver ≠ .ended data := by
      intro data hplace
      rw [step, hplace] at hstep
      cases hstep
    obtain ⟨later, k', hlater, hreached⟩ := h.receiver_step hcopy hended
    obtain rfl := Option.some.inj (hlater.symm.trans hstep)
    exact ⟨k', hreached⟩

/-- When no node waits and the sender is gone, the receiver polls for ever. -/
theorem polls_for_ever (h : Reached conduit node received demo 0)
    (hcopy : Relay.copy conduit node = some received) (hdone : demo.done = 7)
    (hplace : demo.receiver = .polling) {actions : List DemoAction} {later : Demo Node}
    (hrun : Transition.run (Demo.step conduit node) demo actions = some later) :
    later.receiver = .polling := by
  have hinvariant := Transition.invariant
    (fun demo : Demo Node => Reached conduit node received demo 0 ∧ demo.done = 7 ∧
      demo.receiver = .polling) ⟨h, hdone, hplace⟩ ?_ hrun
  · exact hinvariant.2.2
  · rintro demo action demo' ⟨h, hdone, hplace⟩ hstep
    cases action with
    | sender =>
      rw [step, getElem?_demoSender, hdone] at hstep
      cases hstep
    | receiver =>
      obtain ⟨world, hwaits, hreached⟩ := h.receiver_waits hcopy hplace
      obtain rfl := Option.some.inj (hwaits.symm.trans hstep)
      exact ⟨hreached, hdone, hplace⟩

/-- When the sender is gone, a receiver that polls can print exactly if it came in time. -/
theorem prints_iff (h : Reached conduit node received demo k)
    (hcopy : Relay.copy conduit node = some received) (hdone : demo.done = 7)
    (hplace : demo.receiver = .polling) :
    (∃ more later data, Transition.run (Demo.step conduit node) demo more = some later ∧
        later.receiver = .printed data) ↔
      ∃ joined, demo.joinedAt = some joined ∧ joined < 7 := by
  have hagrees := h.receiver
  rw [hplace] at hagrees
  obtain ⟨joined, hjoined, -, hk⟩ := hagrees
  constructor
  · rintro ⟨more, later, data, hrun, hprinted⟩
    by_contra hlate
    rw [if_neg fun hlt => hlate ⟨joined, hjoined, hlt⟩] at hk
    subst hk
    rw [h.polls_for_ever hcopy hdone hplace hrun] at hprinted
    cases hprinted
  · rintro ⟨joined', hjoined', hlt⟩
    obtain rfl := Option.some.inj (hjoined.symm.trans hjoined')
    have hfive : k = 5 := by
      rw [hk, if_pos hlt, hdone]
      rfl
    obtain ⟨world, hstep, -⟩ := h.receiver_prints hcopy hplace (by omega)
    exact ⟨[.receiver], _, _, by rw [Transition.run_cons, hstep]; rfl, rfl⟩

end Reached

end Demo

/-- **What the demo does.** From a start without objects and without a segment, after any calls of the two
programs, for a node of which `received` arrives: each of them can make its next call; what the receiver
prints is the first of one to five copies; and once the sender is gone, a receiver that still waits can print
if and only if it started before the sender's destructor. -/
theorem demo_receiver_ends_iff {Node Schema : Type*} (conduit : Conduit Node Schema)
    (node received : Node) (world : ShmWorld Bool) (actions : List DemoAction) (demo : Demo Node)
    (hcopy : Relay.copy conduit node = some received)
    (hunbound : world.memory.segments.bound = none) (hnone : ∀ i, world.transports i = none)
    (hrun : Transition.run (Demo.step conduit node) (.start world) actions = some demo) :
    (demo.done < 7 → (demo.step conduit node .sender).isSome) ∧
    ((∀ data, demo.receiver ≠ .ended data) → (demo.step conduit node .receiver).isSome) ∧
    (∀ data, demo.receiver = .printed data ∨ demo.receiver = .ended data →
      ∃ copies, 1 ≤ copies ∧ copies ≤ 5 ∧ data = List.replicate copies received) ∧
    (demo.done = 7 → demo.receiver = .polling →
      ((∃ more later data, Transition.run (Demo.step conduit node) demo more = some later ∧
          later.receiver = .printed data) ↔
        ∃ joined, demo.joinedAt = some joined ∧ joined < 7)) := by
  obtain ⟨k, h⟩ : ∃ k, Demo.Reached conduit node received demo k :=
    Transition.invariant (fun demo => ∃ k, Demo.Reached conduit node received demo k)
      ⟨0, Demo.reached_start hunbound hnone⟩
      (fun _ _ _ ⟨_, hreached⟩ hstep => hreached.next hcopy hstep) hrun
  refine ⟨fun hdone => ?_, fun hended => ?_, fun data hdata => ?_,
    fun hdone hplace => h.prints_iff hcopy hdone hplace⟩
  · obtain ⟨demo', -, hstep, -⟩ := h.sender hdone
    rw [hstep, Option.isSome_some]
  · obtain ⟨demo', -, hstep, -⟩ := h.receiver_step hcopy hended
    rw [hstep, Option.isSome_some]
  · have hagrees := h.receiver
    rcases hdata with hdata | hdata
    · rwa [hdata] at hagrees
    · rwa [hdata] at hagrees

/-- The receiver starts after the sender's first call, and finds the nodes when the sender is gone. -/
theorem demo_receiver_ends_iff_in_time :
    ∃ demo : Demo (List UInt8),
      Transition.run (Demo.step Conduit.bytes [1, 2]) (.start ⟨.empty, fun _ => none⟩)
        [.sender, .receiver, .receiver, .sender, .sender, .sender, .sender, .sender, .sender]
          = some demo ∧
      ∃ more later data, Transition.run (Demo.step Conduit.bytes [1, 2]) demo more = some later ∧
        later.receiver = .printed data := by
  obtain ⟨demo, hrun, hdone, hplace, hjoined⟩ : ∃ demo : Demo (List UInt8),
      Transition.run (Demo.step Conduit.bytes [1, 2]) (.start ⟨.empty, fun _ => none⟩)
        [.sender, .receiver, .receiver, .sender, .sender, .sender, .sender, .sender, .sender]
          = some demo ∧ demo.done = 7 ∧ demo.receiver = .polling ∧ demo.joinedAt = some 1 :=
    ⟨_, rfl, rfl, rfl, rfl⟩
  obtain ⟨-, -, -, hiff⟩ := demo_receiver_ends_iff Conduit.bytes [1, 2] [1, 2]
    ⟨.empty, fun _ => none⟩ _ demo rfl rfl (fun _ => rfl) hrun
  exact ⟨demo, hrun, (hiff hdone hplace).mpr ⟨1, hjoined, by decide⟩⟩

end Contra
