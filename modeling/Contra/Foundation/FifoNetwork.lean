import Contra.Foundation.Transition
import Mathlib.Data.List.Nodup
import Mathlib.Logic.Function.Basic
import Mathlib.Tactic.Common

/-! # Message queues between endpoints

A network of endpoints `π` that exchange messages of type `μ`. A message accepted from a sender is
routed to one endpoint and travels there in a queue of that ordered pair; delivery moves the oldest
message of such a queue to the queue of the receiver, and a receiver takes the oldest message
delivered to it. A message the network refuses goes nowhere.

The network keeps the history of all sends (`posted`) and of the messages each endpoint took
(`taken`). `Conserved` ties the two together, and the results for a reader of the history follow
from it alone:

* `Conserved.taken_routed`: what an endpoint took from a sender is a prefix of what was routed to it;
* `Conserved.nodup_tickets_taken`, `Conserved.receiver_unique`: no message is taken twice;
* `Conserved.refused_not_taken`: what was refused is never taken;
* `Conserved.exists_run_delivered`: everything on the way to an endpoint can be delivered. -/

namespace FifoNetwork

/-- One send: what was sent, by whom, and to whom the network routed it. -/
structure Envelope (π μ : Type*) where
  /-- The number of the send, counting from zero. -/
  ticket : ℕ
  /-- The endpoint that sent. -/
  sender : π
  /-- The endpoint the message is routed to; `none` when the network refused it. -/
  receiver : Option π
  /-- The message. -/
  body : μ

/-- The queues of a network, and its history. -/
structure Network (π μ : Type*) where
  /-- Messages on their way, for every sender and receiver, oldest first. -/
  inFlight : π → π → List (Envelope π μ)
  /-- Messages delivered to an endpoint and not taken yet, oldest first. -/
  inbound : π → List (Envelope π μ)
  /-- History: all sends so far, oldest first. -/
  posted : List (Envelope π μ)
  /-- History: the messages an endpoint took, oldest first. -/
  taken : π → List (Envelope π μ)

namespace Network

variable {π μ : Type*}

/-- No message was ever sent. -/
def empty : Network π μ := ⟨fun _ _ => [], fun _ => [], [], fun _ => []⟩

variable [DecidableEq π]

/-- The network accepts a message of `a` and routes it to `b`. -/
def accept (net : Network π μ) (a b : π) (body : μ) : Network π μ :=
  let envelope := ⟨net.posted.length, a, some b, body⟩
  { net with
    inFlight := Function.update net.inFlight a
      (Function.update (net.inFlight a) b (net.inFlight a b ++ [envelope]))
    posted := net.posted ++ [envelope] }

/-- The network refuses a message of `a`. -/
def refuse (net : Network π μ) (a : π) (body : μ) : Network π μ :=
  { net with posted := net.posted ++ [⟨net.posted.length, a, none, body⟩] }

/-- The oldest message on its way from `a` to `b` arrives. -/
def deliver (net : Network π μ) (a b : π) : Option (Network π μ) :=
  match net.inFlight a b with
  | [] => none
  | envelope :: rest => some { net with
      inFlight := Function.update net.inFlight a (Function.update (net.inFlight a) b rest)
      inbound := Function.update net.inbound b (net.inbound b ++ [envelope]) }

/-- `b` takes the oldest message delivered to it. -/
def take (net : Network π μ) (b : π) : Option (Envelope π μ × Network π μ) :=
  match net.inbound b with
  | [] => none
  | envelope :: rest => some (envelope, { net with
      inbound := Function.update net.inbound b rest
      taken := Function.update net.taken b (net.taken b ++ [envelope]) })

/-- The messages of `a` that were routed to `b`, in the order sent. -/
def routed (net : Network π μ) (a b : π) : List (Envelope π μ) :=
  net.posted.filter fun envelope => envelope.sender = a ∧ envelope.receiver = some b

/-- The messages of `a` in a list. -/
def fromSender (a : π) (envelopes : List (Envelope π μ)) : List (Envelope π μ) :=
  envelopes.filter fun envelope => envelope.sender = a

@[simp] theorem fromSender_append (a : π) (front back : List (Envelope π μ)) :
    fromSender a (front ++ back) = fromSender a front ++ fromSender a back :=
  List.filter_append ..

/-! ## What the operations do -/

section Operations

variable {net net' : Network π μ} {a b : π} {body : μ} {envelope : Envelope π μ}

theorem deliver_eq_some (h : net.deliver a b = some net') :
    ∃ envelope rest, net.inFlight a b = envelope :: rest ∧ net' = { net with
      inFlight := Function.update net.inFlight a (Function.update (net.inFlight a) b rest)
      inbound := Function.update net.inbound b (net.inbound b ++ [envelope]) } := by
  unfold deliver at h
  split at h
  · cases h
  · rename_i envelope rest hqueue
    exact ⟨envelope, rest, hqueue, (Option.some.inj h).symm⟩

theorem take_eq_none : net.take b = none ↔ net.inbound b = [] := by
  unfold take
  split <;> simp [*]

theorem take_eq_some (h : net.take b = some (envelope, net')) :
    ∃ rest, net.inbound b = envelope :: rest ∧ net' = { net with
      inbound := Function.update net.inbound b rest
      taken := Function.update net.taken b (net.taken b ++ [envelope]) } := by
  unfold take at h
  split at h
  · cases h
  · rename_i first rest hqueue
    obtain ⟨rfl, rfl⟩ := Prod.mk.inj (Option.some.inj h)
    exact ⟨rest, hqueue, rfl⟩

theorem routed_accept (a b c d : π) :
    (net.accept a b body).routed c d
      = net.routed c d ++ if c = a ∧ d = b then [⟨net.posted.length, a, some b, body⟩] else [] := by
  rw [routed, accept, List.filter_append, ← routed]
  by_cases h : c = a ∧ d = b
  · obtain ⟨rfl, rfl⟩ := h
    simp
  · have hne : ¬ (a = c ∧ b = d) := fun ⟨hac, hbd⟩ => h ⟨hac.symm, hbd.symm⟩
    simp [h, hne]

theorem routed_refuse (a c d : π) : (net.refuse a body).routed c d = net.routed c d := by
  rw [routed, refuse, List.filter_append, ← routed]
  simp

end Operations

/-! ## Conservation -/

/-- Every message is where the history says: what an endpoint took, what waits for it and what is
on the way to it are, sender by sender, the messages routed to it. -/
structure Conserved (net : Network π μ) : Prop where
  /-- For every sender and receiver. -/
  balance : ∀ a b, fromSender a (net.taken b ++ net.inbound b) ++ net.inFlight a b = net.routed a b
  /-- Sends are numbered in order. -/
  tickets : net.posted.map Envelope.ticket = List.range net.posted.length

namespace Conserved

variable {net net' : Network π μ} {a b : π} {body : μ} {envelope : Envelope π μ}

theorem empty : Conserved (Network.empty : Network π μ) := ⟨fun _ _ => rfl, rfl⟩

theorem accept (h : Conserved net) (a b : π) (body : μ) : Conserved (net.accept a b body) := by
  constructor
  · intro c d
    rw [routed_accept, ← h.balance]
    simp only [Network.accept]
    by_cases hc : c = a
    · subst hc
      by_cases hd : d = b
      · subst hd
        simp
      · simp [hd]
    · simp [hc]
  · simp [Network.accept, h.tickets, List.range_succ]

theorem refuse (h : Conserved net) (a : π) (body : μ) : Conserved (net.refuse a body) := by
  constructor
  · intro c d
    rw [routed_refuse]
    exact h.balance c d
  · simp [Network.refuse, h.tickets, List.range_succ]

/-- What is on the way from `a` was sent by `a`. -/
theorem sender_of_mem_inFlight (h : Conserved net) (hmem : envelope ∈ net.inFlight a b) :
    envelope.sender = a := by
  have hrouted : envelope ∈ net.routed a b := by
    rw [← h.balance a b]
    exact List.mem_append_right _ hmem
  rw [routed, List.mem_filter] at hrouted
  exact (of_decide_eq_true hrouted.2).1

theorem deliver (h : Conserved net) (hdeliver : net.deliver a b = some net') : Conserved net' := by
  obtain ⟨envelope, rest, hqueue, rfl⟩ := deliver_eq_some hdeliver
  have hsender : envelope.sender = a :=
    h.sender_of_mem_inFlight (b := b) (by rw [hqueue]; exact List.mem_cons_self)
  refine ⟨fun c d => ?_, h.tickets⟩
  have hbalance := h.balance c d
  by_cases hd : d = b
  · subst hd
    by_cases hc : c = a
    · subst hc
      rw [hqueue] at hbalance
      simpa [fromSender, hsender, routed] using hbalance
    · have hother : ¬ envelope.sender = c := fun heq => hc (heq.symm.trans hsender)
      simpa [fromSender, hother, hc, routed] using hbalance
  · by_cases hc : c = a
    · subst hc
      simpa [hd, routed] using hbalance
    · simpa [hd, hc, routed] using hbalance

theorem take (h : Conserved net) (htake : net.take b = some (envelope, net')) :
    Conserved net' := by
  obtain ⟨rest, hqueue, rfl⟩ := take_eq_some htake
  refine ⟨fun c d => ?_, h.tickets⟩
  have hbalance := h.balance c d
  by_cases hd : d = b
  · subst hd
    rw [hqueue] at hbalance
    simpa [fromSender, List.filter_cons, List.append_assoc, routed] using hbalance
  · simpa [hd, routed] using hbalance

/-! ## Reading the history -/

/-- What `b` took from `a` is a prefix of what was routed from `a` to `b`. -/
theorem taken_routed (h : Conserved net) (a b : π) : fromSender a (net.taken b) <+: net.routed a b := by
  refine ⟨fromSender a (net.inbound b) ++ net.inFlight a b, ?_⟩
  rw [← List.append_assoc, ← fromSender_append, h.balance]

/-- A message that was delivered or taken is a send routed to the endpoint. -/
theorem posted_of_mem (h : Conserved net) (hmem : envelope ∈ net.taken b ++ net.inbound b) :
    envelope ∈ net.posted ∧ envelope.receiver = some b := by
  have hrouted : envelope ∈ net.routed envelope.sender b := by
    rw [← h.balance envelope.sender b]
    refine List.mem_append_left _ (List.mem_filter.mpr ⟨hmem, ?_⟩)
    simp
  rw [routed, List.mem_filter] at hrouted
  exact ⟨hrouted.1, (of_decide_eq_true hrouted.2).2⟩

/-- A ticket belongs to one send. -/
theorem eq_of_ticket_eq (h : Conserved net) {first second : Envelope π μ}
    (hfirst : first ∈ net.posted) (hsecond : second ∈ net.posted)
    (heq : first.ticket = second.ticket) : first = second := by
  have hnodup : (net.posted.map Envelope.ticket).Nodup := by
    rw [h.tickets]
    exact List.nodup_range
  exact List.inj_on_of_nodup_map hnodup hfirst hsecond heq

/-- No endpoint takes a message twice. -/
theorem nodup_tickets_taken (h : Conserved net) (b : π) :
    ((net.taken b).map Envelope.ticket).Nodup := by
  classical
  have hposted : net.posted.Nodup := by
    refine List.Nodup.of_map Envelope.ticket ?_
    rw [h.tickets]
    exact List.nodup_range
  have htaken : (net.taken b).Nodup := by
    rw [List.nodup_iff_count_le_one]
    intro envelope
    -- all copies come from one sender, and what was routed from it has no duplicate
    calc (net.taken b).count envelope
        = (fromSender envelope.sender (net.taken b)).count envelope := by
          rw [fromSender, List.count_filter]
          simp
      _ ≤ (net.routed envelope.sender b).count envelope := (h.taken_routed _ b).sublist.count_le _
      _ ≤ net.posted.count envelope := List.filter_sublist.count_le _
      _ ≤ 1 := List.nodup_iff_count_le_one.mp hposted envelope
  refine htaken.map_on ?_
  intro first hfirst second hsecond
  exact h.eq_of_ticket_eq (h.posted_of_mem (List.mem_append_left _ hfirst)).1
    (h.posted_of_mem (List.mem_append_left _ hsecond)).1

/-- Two endpoints never take the same message. -/
theorem receiver_unique (h : Conserved net) {c : π} {first second : Envelope π μ}
    (hfirst : first ∈ net.taken b) (hsecond : second ∈ net.taken c)
    (heq : first.ticket = second.ticket) : b = c := by
  obtain ⟨hfirstPosted, hb⟩ := h.posted_of_mem (List.mem_append_left _ hfirst)
  obtain ⟨hsecondPosted, hc⟩ := h.posted_of_mem (List.mem_append_left _ hsecond)
  rw [h.eq_of_ticket_eq hfirstPosted hsecondPosted heq, hc] at hb
  exact (Option.some.inj hb).symm

/-- A refused message is never taken. -/
theorem refused_not_taken (h : Conserved net) {refused : Envelope π μ}
    (hrefused : refused ∈ net.posted) (hnone : refused.receiver = none)
    (hmem : envelope ∈ net.taken b) : envelope.ticket ≠ refused.ticket := by
  intro heq
  obtain ⟨hposted, hb⟩ := h.posted_of_mem (List.mem_append_left _ hmem)
  rw [h.eq_of_ticket_eq hposted hrefused heq, hnone] at hb
  cases hb

end Conserved

/-! ## Delivering everything -/

section Deliveries

variable {net net' : Network π μ} {b : π}

/-- Deliveries take place in the queues. -/
theorem history_of_run {order : List π}
    (h : Transition.run (fun net a => net.deliver a b) net order = some net') :
    net'.posted = net.posted ∧ net'.taken = net.taken := by
  apply Transition.invariant (fun later => later.posted = net.posted ∧ later.taken = net.taken)
    ⟨rfl, rfl⟩ _ h
  intro first a second hfirst hdeliver
  obtain ⟨envelope, rest, -, rfl⟩ := deliver_eq_some hdeliver
  exact hfirst

/-- The messages of one sender can be delivered, and those of others stay where they are. -/
theorem exists_run_emptied (net : Network π μ) (a b : π) : ∃ count net',
    Transition.run (fun net a => net.deliver a b) net (List.replicate count a) = some net' ∧
      net'.inFlight a b = [] ∧ ∀ c, c ≠ a → net'.inFlight c b = net.inFlight c b := by
  induction hqueue : net.inFlight a b generalizing net with
  | nil => exact ⟨0, net, rfl, hqueue, fun _ _ => rfl⟩
  | cons envelope rest ih =>
    obtain ⟨count, later, hrun, hempty, hother⟩ := ih { net with
      inFlight := Function.update net.inFlight a (Function.update (net.inFlight a) b rest)
      inbound := Function.update net.inbound b (net.inbound b ++ [envelope]) } (by simp)
    refine ⟨count + 1, later, ?_, hempty, fun c hc => ?_⟩
    · rw [List.replicate_succ, Transition.run_cons, deliver, hqueue]
      exact hrun
    · rw [hother c hc]
      simp [hc]

/-- So can those of several senders, one sender after the other. -/
theorem exists_run_emptied_all (net : Network π μ) (senders : List π) (b : π) : ∃ order net',
    Transition.run (fun net a => net.deliver a b) net order = some net' ∧
      (∀ a ∈ senders, net'.inFlight a b = []) ∧
      ∀ a, net.inFlight a b = [] → net'.inFlight a b = [] := by
  induction senders generalizing net with
  | nil => exact ⟨[], net, rfl, by simp, fun _ h => h⟩
  | cons a senders ih =>
    obtain ⟨count, middle, hfirst, hempty, hother⟩ := exists_run_emptied net a b
    obtain ⟨order, later, hrun, hall, hkept⟩ := ih middle
    refine ⟨List.replicate count a ++ order, later, ?_, ?_, fun c hc => hkept c ?_⟩
    · rw [Transition.run_append, hfirst]
      exact hrun
    · exact List.forall_mem_cons.mpr ⟨hkept a hempty, hall⟩
    · by_cases hca : c = a
      · rw [hca, hempty]
      · rw [hother c hca, hc]

/-- **Everything can be delivered**: the senders are those in the history. -/
theorem Conserved.exists_run_delivered (h : Conserved net) (b : π) : ∃ order net',
    Transition.run (fun net a => net.deliver a b) net order = some net' ∧
      ∀ a, net'.inFlight a b = [] := by
  obtain ⟨order, later, hrun, hall, hkept⟩ :=
    exists_run_emptied_all net (net.posted.map Envelope.sender) b
  refine ⟨order, later, hrun, fun a => ?_⟩
  by_cases hmem : a ∈ net.posted.map Envelope.sender
  · exact hall a hmem
  · -- a sender that is not in the history has nothing on the way
    have hrouted : net.routed a b = [] := by
      rw [routed, List.filter_eq_nil_iff]
      intro envelope henvelope hsender
      exact hmem (List.mem_map.mpr ⟨envelope, henvelope, (of_decide_eq_true hsender).1⟩)
    refine hkept a ?_
    rw [← h.balance a b] at hrouted
    exact (List.append_eq_nil_iff.mp hrouted).2

end Deliveries

end Network

end FifoNetwork
