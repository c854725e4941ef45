import Contra.SharedMemoryAllocation

/-! # Runs in which memory runs out

Any number of `Send` and `Receive` calls on one segment, one after the other, in which any allocations
fail. The ledger `Accounts` compares what the calls that succeeded sent and returned with what is stored,
and the live blocks with their owners: the storage, the callers that hold what they received, and whoever
held the rest before. `exhaustion_loses_nothing` keeps it over whole runs. -/

namespace Contra

open Allocation

namespace ShmContent

section Observations

variable (spare : ℕ → ℕ) (inlineSize : ℕ) (arena : Arena Pool ShmContent)

/-- The packet of a `Send` that succeeds. -/
def observeSent : Attempt → List Packet
  | .send grants packet =>
    match send grants spare packet arena with
    | .ok _ _ => [packet]
    | .error _ _ => []
  | .receive _ => []

/-- The packets of a `Receive` that succeeds. -/
def observeReceived : Attempt → List Packet
  | .send _ _ => []
  | .receive grants =>
    match receive grants spare inlineSize arena with
    | .ok received _ => received.elements.map BufferedPacket.toPacket
    | .error _ _ => []

/-- The blocks that a `Receive` that succeeds leaves to its caller. -/
def observeBlocks : Attempt → List (Multiset (Block Pool))
  | .send _ _ => []
  | .receive grants =>
    match receive grants spare inlineSize arena with
    | .ok received _ => [received.footprint BufferedPacket.buffers]
    | .error _ _ => []

end Observations

/-- The packets stored and the blocks in use, after calls that sent, received and left to their callers
what they did. -/
structure Accounts (initial : List Packet) (frame : Multiset (Block Pool)) (sent received : List Packet)
    (blocks : List (Multiset (Block Pool))) (arena : Arena Pool ShmContent) : Prop where
  /-- The mutex is free. -/
  unlocked : arena.content.locked = false
  /-- What was received and what is stored is what was there and what was sent. -/
  conserved : received ++ arena.content.storage.elements.map BufferedPacket.toPacket = initial ++ sent
  /-- Every live block belongs to somebody. -/
  live : arena.live = arena.content.footprint + blocks.sum + frame

namespace Accounts

variable {spare : ℕ → ℕ} {inlineSize : ℕ} {initial sent received : List Packet}
  {frame : Multiset (Block Pool)} {blocks : List (Multiset (Block Pool))}
  {arena : Arena Pool ShmContent}

/-- The blocks, as the specifications of the operations have them. -/
theorem owns (h : Accounts initial frame sent received blocks arena) :
    Owns (arena.content.storage.footprint BufferedPacket.buffers + (blocks.sum + frame))
      ⟨false, arena.content.storage⟩ arena :=
  owns_of_unlocked h.unlocked (by rw [h.live, add_assoc])

/-- The same the other way round. -/
theorem of_owns {storage : Vec Pool StoredPacket 0}
    (hconserved : received ++ storage.elements.map BufferedPacket.toPacket = initial ++ sent)
    (h : Owns (storage.footprint BufferedPacket.buffers + (blocks.sum + frame)) ⟨false, storage⟩ arena) :
    Accounts initial frame sent received blocks arena := by
  obtain ⟨hlive, hcontent⟩ := h
  refine ⟨by rw [hcontent], by rw [hcontent]; exact hconserved, ?_⟩
  rw [hlive, hcontent, footprint, add_assoc]

/-- **A `Send`** keeps the ledger, whichever of its allocations fail. -/
theorem send (h : Accounts initial frame sent received blocks arena) (grants : ℕ → Bool)
    (packet : Packet) : ∃ after, attempt spare inlineSize arena (.send grants packet) = some after ∧
      Accounts initial frame (sent ++ observeSent spare arena (.send grants packet)) received blocks
        after := by
  rw [attempt, observeSent]
  cases hrun : ShmContent.send grants spare packet arena with
  | ok _ after =>
    obtain ⟨storage, ⟨stored, ⟨hstored, -⟩, hpushed⟩, hafter⟩ := (send_spec packet).of_ok h.owns hrun
    refine ⟨after, rfl, of_owns ?_ hafter⟩
    rw [hpushed.1, List.map_append, List.map_singleton, hstored, ← List.append_assoc, h.conserved,
      List.append_assoc]
  | error failure after =>
    obtain ⟨rfl, -, hafter⟩ := (send_spec packet).of_error h.owns hrun
    exact ⟨after, rfl, of_owns (by rw [List.append_nil]; exact h.conserved) hafter⟩

/-- **A `Receive`** does too. -/
theorem receive (h : Accounts initial frame sent received blocks arena) (grants : ℕ → Bool) :
    ∃ after, attempt spare inlineSize arena (.receive grants) = some after ∧
      Accounts initial frame sent
        (received ++ observeReceived spare inlineSize arena (.receive grants))
        (blocks ++ observeBlocks spare inlineSize arena (.receive grants)) after := by
  rw [attempt, observeReceived, observeBlocks]
  cases hrun : ShmContent.receive grants spare inlineSize arena with
  | ok taken after =>
    obtain ⟨storage, ⟨⟨helements, -⟩, htaken, -⟩, hafter⟩ := receive_spec.of_ok h.owns hrun
    have hconserved : received ++ taken.elements.map BufferedPacket.toPacket
        ++ storage.elements.map BufferedPacket.toPacket = initial ++ sent := by
      rw [helements, htaken, List.map_nil, List.append_nil]
      exact h.conserved
    refine ⟨after, rfl, of_owns hconserved ?_⟩
    -- the blocks of the received packets are the caller's now
    have hblocks : taken.footprint BufferedPacket.buffers
        + (storage.footprint BufferedPacket.buffers + (blocks.sum + frame))
        = storage.footprint BufferedPacket.buffers
          + ((blocks ++ [taken.footprint BufferedPacket.buffers]).sum + frame) := by
      rw [List.sum_append, List.sum_singleton]
      ac_rfl
    rwa [hblocks] at hafter
  | error failure after =>
    obtain ⟨rfl, -, hafter⟩ := receive_spec.of_error h.owns hrun
    refine ⟨after, rfl, ?_⟩
    simp only [List.append_nil]
    exact of_owns h.conserved hafter

/-- An operation keeps the ledger. -/
theorem step (h : Accounts initial frame sent received blocks arena) (action : Attempt) :
    ∃ after, attempt spare inlineSize arena action = some after ∧
      Accounts initial frame (sent ++ observeSent spare arena action)
        (received ++ observeReceived spare inlineSize arena action)
        (blocks ++ observeBlocks spare inlineSize arena action) after := by
  cases action with
  | send grants packet =>
    obtain ⟨after, hattempt, hafter⟩ := h.send grants packet
    refine ⟨after, hattempt, ?_⟩
    rw [observeReceived, observeBlocks, List.append_nil, List.append_nil]
    exact hafter
  | receive grants =>
    obtain ⟨after, hattempt, hafter⟩ := h.receive grants
    refine ⟨after, hattempt, ?_⟩
    rw [observeSent, List.append_nil]
    exact hafter

/-- Every sequence of operations keeps the ledger, and none of them frees what is not live. -/
theorem run {start : Arena Pool ShmContent} (h : Accounts initial frame [] [] [] start)
    (actions : List Attempt) :
    ∃ arena, Transition.run (attempt spare inlineSize) start actions = some arena ∧
      Accounts initial frame
        (Transition.observations (attempt spare inlineSize) (observeSent spare) start actions)
        (Transition.observations (attempt spare inlineSize) (observeReceived spare inlineSize) start
          actions)
        (Transition.observations (attempt spare inlineSize) (observeBlocks spare inlineSize) start
          actions) arena := by
  induction actions using List.reverseRecOn with
  | nil => exact ⟨start, rfl, h⟩
  | append_singleton actions action ih =>
    obtain ⟨middle, hrun, hmiddle⟩ := ih
    obtain ⟨after, hattempt, hafter⟩ := hmiddle.step action
    refine ⟨after, Transition.run_concat_eq_some.mpr ⟨middle, hrun, hattempt⟩, ?_⟩
    rw [Transition.observations_concat _ hrun, Transition.observations_concat _ hrun,
      Transition.observations_concat _ hrun]
    exact hafter

end Accounts

end ShmContent

open ShmContent

/-- **Running out of memory loses nothing.** In every sequence of `Send` and `Receive` calls on one
segment, whichever allocations fail in each of them: no call frees what is not live, and all release the
mutex; what the `Receive` calls that succeeded returned and what is stored is what was there and what the
`Send` calls that succeeded sent, in order; the live blocks are those of the storage, those of the packets
that were returned, and those of others from before; and as soon as memory is available, a `Receive`
returns everything that is stored. -/
theorem exhaustion_loses_nothing (spare : ℕ → ℕ) (inlineSize : ℕ) (start : Arena Pool ShmContent)
    (frame : Multiset (Block Pool)) (actions : List ShmContent.Attempt)
    (hunlocked : start.content.locked = false)
    (hlive : start.live = start.content.footprint + frame) :
    ∃ arena, Transition.run (ShmContent.attempt spare inlineSize) start actions = some arena ∧
      arena.content.locked = false ∧
      Transition.observations (ShmContent.attempt spare inlineSize) (observeReceived spare inlineSize)
            start actions
          ++ arena.content.storage.elements.map BufferedPacket.toPacket
        = start.content.storage.elements.map BufferedPacket.toPacket
          ++ Transition.observations (ShmContent.attempt spare inlineSize) (observeSent spare) start
            actions ∧
      arena.live = arena.content.footprint
        + (Transition.observations (ShmContent.attempt spare inlineSize) (observeBlocks spare inlineSize)
            start actions).sum + frame ∧
      ∀ granted : ℕ → Bool, (∀ request, granted request = true) → ∃ received later,
        receive granted spare inlineSize arena = .ok received later ∧
        received.elements.map BufferedPacket.toPacket
          = arena.content.storage.elements.map BufferedPacket.toPacket := by
  have hstart : Accounts (start.content.storage.elements.map BufferedPacket.toPacket) frame [] [] []
      start := ⟨hunlocked, by simp, by simpa using hlive⟩
  obtain ⟨arena, hrun, h⟩ := hstart.run actions
  refine ⟨arena, hrun, h.unlocked, h.conserved, h.live, fun granted hgranted => ?_⟩
  obtain ⟨received, later, hlater, storage, ⟨-, hreceived, -⟩, -⟩ :=
    receive_spec.exists_ok hgranted h.owns
  exact ⟨received, later, hlater, hreceived⟩

/-- A `Send` that fails between two that succeed. -/
theorem exhaustion_loses_nothing_between :
    ∃ arena, Transition.run (ShmContent.attempt id 15) (.start ⟨false, .empty⟩)
        [.send (fun _ => true) ⟨[65], [1]⟩, .send (fun _ => false) ⟨[66], [2]⟩,
          .send (fun _ => true) ⟨[67], [3]⟩] = some arena ∧
      arena.content.storage.elements.map BufferedPacket.toPacket
        = [⟨[65], [1]⟩, ⟨[67], [3]⟩] := by
  obtain ⟨arena, hrun, -, hstored, -⟩ := exhaustion_loses_nothing id 15 (.start ⟨false, .empty⟩) 0
    [.send (fun _ => true) ⟨[65], [1]⟩, .send (fun _ => false) ⟨[66], [2]⟩,
      .send (fun _ => true) ⟨[67], [3]⟩] rfl rfl
  exact ⟨arena, hrun, hstored⟩

end Contra
