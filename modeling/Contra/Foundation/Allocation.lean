import Mathlib.Data.Multiset.MapFold
import Mathlib.Data.Multiset.Defs
import Mathlib.Tactic.Common

/-! # Programs that allocate

Programs that take blocks of memory from pools and give them back, in an order that an exception may
cut short. Every request for a block has a number, and `grants` says which requests succeed: a
statement for every `grants` is one for every choice of the allocation that fails. A refused request
throws `badAlloc`. Freeing a block that is not live is an `invalidFree`, which no correct program gets
to.

`Triple` is the correctness of a program by what holds before it, after it, and when it throws; it
also says that no free is invalid and that nothing throws unless a request is refused. `Owns` is the
assertion used most: which blocks are live, exactly, and what the content is. -/

namespace Allocation

/-- A block of memory. -/
structure Block (π : Type) where
  /-- The pool it was taken from. -/
  pool : π
  /-- Its address. -/
  address : ℕ
  /-- How many elements it has room for. -/
  size : ℕ
  deriving DecidableEq

/-- The blocks in use and a content that programs work on. -/
structure Arena (π ρ : Type) where
  /-- The blocks taken and not given back. -/
  live : Multiset (Block π)
  /-- How many blocks were requested. -/
  requests : ℕ
  /-- The content. -/
  content : ρ
  /-- Blocks have the number of their request for an address. -/
  older : ∀ block ∈ live, block.address < requests
  /-- No two live blocks have the same address. -/
  distinct : (live.map Block.address).Nodup

/-- All blocks were taken from one pool. -/
def FromPool {π : Type} (pool : π) (blocks : Multiset (Block π)) : Prop :=
  ∀ block ∈ blocks, block.pool = pool

section FromPool

variable {π : Type} {pool : π} {blocks blocks' : Multiset (Block π)}

@[simp] theorem fromPool_zero : FromPool pool (0 : Multiset (Block π)) := by simp [FromPool]

@[simp] theorem fromPool_singleton {block : Block π} :
    FromPool pool {block} ↔ block.pool = pool := by simp [FromPool]

@[simp] theorem fromPool_add :
    FromPool pool (blocks + blocks') ↔ FromPool pool blocks ∧ FromPool pool blocks' := by
  simp [FromPool, or_imp, forall_and]

end FromPool

namespace Arena

variable {π ρ : Type}

/-- Nothing was requested yet. -/
def start (content : ρ) : Arena π ρ where
  live := 0
  requests := 0
  content := content
  older := fun _ hblock => absurd hblock (Multiset.notMem_zero _)
  distinct := Multiset.nodup_zero

/-- The next request is granted. -/
def grant (arena : Arena π ρ) (pool : π) (size : ℕ) : Arena π ρ where
  live := ⟨pool, arena.requests, size⟩ ::ₘ arena.live
  requests := arena.requests + 1
  content := arena.content
  older := by
    intro block hblock
    rcases Multiset.mem_cons.mp hblock with rfl | hold
    · exact Nat.lt_succ_self _
    · exact Nat.lt_succ_of_lt (arena.older block hold)
  distinct := by
    rw [Multiset.map_cons, Multiset.nodup_cons]
    refine ⟨fun hmem => ?_, arena.distinct⟩
    obtain ⟨block, hblock, haddress⟩ := Multiset.mem_map.mp hmem
    exact absurd haddress (Nat.ne_of_lt (arena.older block hblock))

/-- The next request is refused. -/
def refuse (arena : Arena π ρ) : Arena π ρ where
  live := arena.live
  requests := arena.requests + 1
  content := arena.content
  older := fun block hblock => Nat.lt_succ_of_lt (arena.older block hblock)
  distinct := arena.distinct

variable [DecidableEq π]

/-- A block is given back. -/
def free (arena : Arena π ρ) (block : Block π) : Arena π ρ where
  live := arena.live.erase block
  requests := arena.requests
  content := arena.content
  older := fun other hother => arena.older other (Multiset.mem_of_mem_erase hother)
  distinct := Multiset.nodup_of_le (Multiset.map_le_map (Multiset.erase_le ..)) arena.distinct

end Arena

/-- Why a program does not end normally. -/
inductive Failure where
  /-- A request was refused. -/
  | badAlloc
  /-- A block was freed that was not live. -/
  | invalidFree
  deriving DecidableEq, Repr

/-- Programs: a result or a failure, and the arena they leave behind in both cases. -/
abbrev Program (π ρ α : Type) : Type := EStateM Failure (Arena π ρ) α

section Operations

variable {π ρ α : Type}

/-- Take a block from a pool; the result is its address. -/
def allocate (grants : ℕ → Bool) (pool : π) (size : ℕ) : Program π ρ ℕ := fun arena =>
  if grants arena.requests then .ok arena.requests (arena.grant pool size)
  else .error .badAlloc arena.refuse

/-- Give a block back. -/
def deallocate [DecidableEq π] (block : Block π) : Program π ρ Unit := fun arena =>
  if block ∈ arena.live then .ok () (arena.free block) else .error .invalidFree arena

/-- The content. -/
def load : Program π ρ ρ := fun arena => .ok arena.content arena

/-- Change the content. -/
def update (change : ρ → ρ) : Program π ρ Unit := fun arena =>
  .ok () { arena with content := change arena.content }

/-- Run `body`; if it throws, run `undo` and throw on. -/
def onFailure (body : Program π ρ α) (undo : Program π ρ Unit) : Program π ρ α := fun arena =>
  match body arena with
  | .ok result arena => .ok result arena
  | .error failure arena =>
    match undo arena with
    | .ok () arena => .error failure arena
    | .error failure arena => .error failure arena

/-- Run `body` and then `release`, also if `body` throws: a local object and its destructor. -/
def withRelease (body : Program π ρ α) (release : Program π ρ Unit) : Program π ρ α := do
  let result ← onFailure body release
  release
  return result

end Operations

/-! ## Triples -/

section Triples

variable {π ρ α β : Type}

/-- Exactly the given blocks are live and the content is the given one. -/
def Owns (live : Multiset (Block π)) (content : ρ) (arena : Arena π ρ) : Prop :=
  arena.live = live ∧ arena.content = content

/-- A program ended in an arena that satisfies `after`, or a request was refused and it threw in one
that satisfies `thrown`. -/
def Ends (grants : ℕ → Bool) (after : α → Arena π ρ → Prop) (thrown : Arena π ρ → Prop) :
    EStateM.Result Failure (Arena π ρ) α → Prop
  | .ok result arena => after result arena
  | .error .badAlloc arena => (∃ request, grants request = false) ∧ thrown arena
  | .error .invalidFree _ => False

/-- What a program does from every arena that satisfies `before`. -/
def Triple (grants : ℕ → Bool) (before : Arena π ρ → Prop) (program : Program π ρ α)
    (after : α → Arena π ρ → Prop) (thrown : Arena π ρ → Prop) : Prop :=
  ∀ arena, before arena → Ends grants after thrown (program arena)

/-- The assertion of a place that is not reached. -/
def Never (_ : Arena π ρ) : Prop := False

namespace Triple

variable {grants : ℕ → Bool} {before middle : Arena π ρ → Prop} {program : Program π ρ α}
  {after : α → Arena π ρ → Prop} {thrown undone : Arena π ρ → Prop}

/-- What a triple says about a result. -/
theorem of_ok (h : Triple grants before program after thrown) {arena arena' : Arena π ρ} {result : α}
    (hbefore : before arena) (hrun : program arena = .ok result arena') : after result arena' := by
  have := h arena hbefore
  rwa [hrun] at this

/-- What a triple says about a failure. -/
theorem of_error (h : Triple grants before program after thrown) {arena arena' : Arena π ρ}
    {failure : Failure} (hbefore : before arena) (hrun : program arena = .error failure arena') :
    failure = .badAlloc ∧ (∃ request, grants request = false) ∧ thrown arena' := by
  have := h arena hbefore
  rw [hrun] at this
  cases failure with
  | badAlloc => exact ⟨rfl, this⟩
  | invalidFree => exact this.elim

/-- With all requests granted a program ends. -/
theorem exists_ok (h : Triple grants before program after thrown)
    (hgrants : ∀ request, grants request = true) {arena : Arena π ρ} (hbefore : before arena) :
    ∃ result arena', program arena = .ok result arena' ∧ after result arena' := by
  cases hrun : program arena with
  | ok result arena' => exact ⟨result, arena', rfl, h.of_ok hbefore hrun⟩
  | error failure arena' =>
    obtain ⟨-, ⟨request, hrefused⟩, -⟩ := h.of_error hbefore hrun
    rw [hgrants] at hrefused
    cases hrefused

/-- Consequence. -/
theorem mono {before' : Arena π ρ → Prop} {after' : α → Arena π ρ → Prop}
    {thrown' : Arena π ρ → Prop} (h : Triple grants before program after thrown)
    (hbefore : ∀ arena, before' arena → before arena)
    (hafter : ∀ result arena, after result arena → after' result arena)
    (hthrown : ∀ arena, thrown arena → thrown' arena) :
    Triple grants before' program after' thrown' := by
  intro arena harena
  have hprogram := h arena (hbefore arena harena)
  cases hrun : program arena with
  | ok result arena' =>
    rw [hrun] at hprogram
    exact hafter result arena' hprogram
  | error failure arena' =>
    rw [hrun] at hprogram
    cases failure with
    | badAlloc => exact ⟨hprogram.1, hthrown arena' hprogram.2⟩
    | invalidFree => exact hprogram

/-- A fact in front of an assertion is a hypothesis. -/
theorem of_fact {fact : Prop} (h : fact → Triple grants before program after thrown) :
    Triple grants (fun arena => fact ∧ before arena) program after thrown := by
  rintro arena ⟨hfact, hbefore⟩
  exact h hfact arena hbefore

/-- A witness in front of an assertion is a variable. -/
theorem of_exists {β : Type} {before : β → Arena π ρ → Prop}
    (h : ∀ witness, Triple grants (before witness) program after thrown) :
    Triple grants (fun arena => ∃ witness, before witness arena) program after thrown := by
  rintro arena ⟨witness, hbefore⟩
  exact h witness arena hbefore

/-- A program that does nothing. -/
theorem pure {result : α} (h : ∀ arena, before arena → after result arena) :
    Triple grants before (Pure.pure result) after thrown := h

/-- Sequencing. -/
theorem bind {next : α → Program π ρ β} {last : β → Arena π ρ → Prop}
    (hprogram : Triple grants before program after thrown)
    (hnext : ∀ result, Triple grants (after result) (next result) last thrown) :
    Triple grants before (program >>= next) last thrown := by
  intro arena harena
  have hfirst := hprogram arena harena
  show Ends grants last thrown (EStateM.bind program next arena)
  unfold EStateM.bind
  cases hrun : program arena with
  | ok result arena' =>
    rw [hrun] at hfirst
    exact hnext result arena' hfirst
  | error failure arena' =>
    rw [hrun] at hfirst
    cases failure with
    | badAlloc => exact hfirst
    | invalidFree => exact hfirst

/-- Cleaning up behind an exception. -/
theorem onFailure {undo : Program π ρ Unit} (hbody : Triple grants before program after thrown)
    (hundo : Triple grants thrown undo (fun _ => undone) Never) :
    Triple grants before (Allocation.onFailure program undo) after undone := by
  intro arena harena
  have hfirst := hbody arena harena
  unfold Allocation.onFailure
  cases hrun : program arena with
  | ok result arena' =>
    rw [hrun] at hfirst
    exact hfirst
  | error failure arena' =>
    obtain ⟨rfl, hrefused, hthrown⟩ := hbody.of_error harena hrun
    dsimp only
    -- the cleanup cannot fail, and the exception goes on
    cases hclean : undo arena' with
    | ok _ arena'' => exact ⟨hrefused, hundo.of_ok hthrown hclean⟩
    | error failure arena'' => exact (hundo.of_error hthrown hclean).2.2.elim

/-- A cleanup, which cannot fail, in a program that may. -/
theorem of_never (h : Triple grants before program after Never) :
    Triple grants before program after thrown :=
  h.mono (fun _ => id) (fun _ _ => id) (fun _ => False.elim)

/-- A local object: its destructor runs behind the result and behind the exception. -/
theorem withRelease {release : Program π ρ Unit} {last : α → Arena π ρ → Prop}
    (hbody : Triple grants before program after thrown)
    (hrelease : ∀ result, Triple grants (after result) release (fun _ => last result) Never)
    (hundo : Triple grants thrown release (fun _ => undone) Never) :
    Triple grants before (Allocation.withRelease program release) last undone := by
  refine (hbody.onFailure hundo).bind fun result => ?_
  exact (hrelease result).of_never.bind fun _ => Triple.pure fun _ => id

end Triple

/-! ## The operations -/

section Specifications

variable {grants : ℕ → Bool} {live : Multiset (Block π)} {content : ρ}

theorem allocate_spec (pool : π) (size : ℕ) :
    Triple grants (Owns live content) (allocate grants pool size)
      (fun address => Owns (⟨pool, address, size⟩ ::ₘ live) content) (Owns live content) := by
  rintro arena ⟨hlive, hcontent⟩
  unfold allocate
  by_cases hgranted : grants arena.requests = true
  · rw [if_pos hgranted]
    exact ⟨congrArg (_ ::ₘ ·) hlive, hcontent⟩
  · rw [if_neg hgranted]
    exact ⟨⟨arena.requests, by simpa using hgranted⟩, hlive, hcontent⟩

theorem deallocate_spec [DecidableEq π] (block : Block π) :
    Triple grants (Owns (block ::ₘ live) content) (deallocate block) (fun _ => Owns live content)
      Never := by
  rintro arena ⟨hlive, hcontent⟩
  have hmem : block ∈ arena.live := by
    rw [hlive]
    exact Multiset.mem_cons_self ..
  unfold deallocate
  rw [if_pos hmem]
  refine ⟨?_, hcontent⟩
  calc (arena.free block).live = (block ::ₘ live).erase block := congrArg (·.erase block) hlive
    _ = live := Multiset.erase_cons_head ..

theorem load_spec : Triple grants (Owns live content) load
    (fun result arena => result = content ∧ Owns live content arena) Never :=
  fun _ harena => ⟨harena.2, harena⟩

theorem update_spec (change : ρ → ρ) : Triple grants (Owns live content) (update change)
    (fun _ => Owns live (change content)) Never :=
  fun _ harena => ⟨harena.1, congrArg change harena.2⟩

end Specifications

end Triples

end Allocation
