import Contra.Foundation.Allocation
import Mathlib.Algebra.BigOperators.Group.Multiset.Basic
import Mathlib.Algebra.Order.Group.Multiset

/-! # Vectors and strings in allocated memory

`std::vector`, and `std::string`, which keeps short contents inside the object: a sequence of elements
in a block with room for them. A vector grows by taking a larger block, constructing the new element in
it, moving the elements it has, which cannot fail, and giving the old block back.

Each operation has one specification: what it does when it succeeds, and that it changes nothing when
it throws. `owned` says which blocks belong to an element. -/

namespace Allocation

/-- A vector, or a string with room for `inlineSize` elements outside any block. -/
structure Vec (π α : Type) (inlineSize : ℕ) where
  /-- The elements. -/
  elements : List α
  /-- The block they are in, if they are in one. -/
  block : Option (Block π)
  /-- There is room for the elements. -/
  room : elements.length ≤ block.elim inlineSize Block.size

namespace Vec

variable {π ρ α : Type} {inlineSize : ℕ}

/-- `capacity()`. -/
def capacity (vec : Vec π α inlineSize) : ℕ := vec.block.elim inlineSize Block.size

/-- The block of the elements. -/
def buffer (vec : Vec π α inlineSize) : Multiset (Block π) := vec.block.elim 0 fun block => {block}

/-- The block of the elements, and those that belong to the elements. -/
def footprint (owned : α → Multiset (Block π)) (vec : Vec π α inlineSize) : Multiset (Block π) :=
  vec.buffer + (vec.elements.map owned).sum

theorem footprint_of_nil {owned : α → Multiset (Block π)} {vec : Vec π α inlineSize}
    (h : vec.elements = []) : vec.footprint owned = vec.buffer := by
  rw [footprint, h, List.map_nil, List.sum_nil, add_zero]

/-- The blocks of a vector with one more element than another. -/
theorem footprint_of_append {owned : α → Multiset (Block π)} {vec vec' : Vec π α inlineSize}
    {element : α} (h : vec'.elements = vec.elements ++ [element]) (live : Multiset (Block π)) :
    vec'.footprint owned + live
      = vec'.buffer + (owned element + ((vec.elements.map owned).sum + live)) := by
  rw [footprint, h, List.map_append, List.sum_append, List.map_singleton, List.sum_singleton,
    add_assoc, add_assoc, add_left_comm (owned element)]

/-- One vector is another with one more element, in the old block or in a new one from the pool. -/
def Pushed (pool : π) (vec vec' : Vec π α inlineSize) (element : α) : Prop :=
  vec'.elements = vec.elements ++ [element] ∧ (FromPool pool vec.buffer → FromPool pool vec'.buffer)

/-- All blocks of a vector with one more element are from the pool if those of the other and those of the
element are. -/
theorem Pushed.fromPool_footprint {owned : α → Multiset (Block π)} {pool : π}
    {vec vec' : Vec π α inlineSize} {element : α} (h : Pushed pool vec vec' element)
    (hvec : FromPool pool (vec.footprint owned)) (helement : FromPool pool (owned element)) :
    FromPool pool (vec'.footprint owned) := by
  rw [footprint, fromPool_add] at hvec
  rw [← add_zero (vec'.footprint owned), footprint_of_append h.1]
  simp [h.2 hvec.1, helement, hvec.2]

/-- The default constructor. -/
def empty : Vec π α inlineSize := ⟨[], none, Nat.zero_le _⟩

section Operations

variable [DecidableEq π] (grants : ℕ → Bool) (pool : π)

/-- The constructor from a range, and the copy constructor. -/
def copy (elements : List α) : Program π ρ (Vec π α inlineSize) :=
  if h : elements.length ≤ inlineSize then return ⟨elements, none, h⟩
  else do
    let address ← allocate grants pool elements.length
    return ⟨elements, some ⟨pool, address, elements.length⟩, le_rfl⟩

/-- Give the block back. -/
def releaseBuffer (vec : Vec π α inlineSize) : Program π ρ Unit :=
  match vec.block with
  | none => return ()
  | some block => deallocate block

/-- `reserve`. -/
def reserve (count : ℕ) (vec : Vec π α inlineSize) : Program π ρ (Vec π α inlineSize) :=
  if h : count ≤ vec.capacity then return vec
  else do
    let address ← allocate grants pool count
    vec.releaseBuffer
    return ⟨vec.elements, some ⟨pool, address, count⟩, le_trans vec.room (Nat.le_of_not_le h)⟩

/-- `push_back` of an element that `construct` makes in its place; `spare` is how much more than one
element a vector grows by. -/
def pushBack (spare : ℕ → ℕ) (construct : Program π ρ α) (vec : Vec π α inlineSize) :
    Program π ρ (Vec π α inlineSize) :=
  if h : vec.elements.length < vec.capacity then do
    let element ← construct
    return ⟨vec.elements ++ [element], vec.block, by
      rw [List.length_append, List.length_singleton]
      exact h⟩
  else do
    let size := vec.elements.length + 1 + spare vec.elements.length
    let address ← allocate grants pool size
    -- the new element first, while the old block is untouched
    let element ← onFailure construct (deallocate ⟨pool, address, size⟩)
    vec.releaseBuffer
    return ⟨vec.elements ++ [element], some ⟨pool, address, size⟩, by
      rw [List.length_append, List.length_singleton]
      exact Nat.le_add_right ..⟩

/-- `clear`, with the destructor of an element. -/
def clear (destroy : α → Program π ρ Unit) (vec : Vec π α inlineSize) :
    Program π ρ (Vec π α inlineSize) := do
  vec.elements.forM destroy
  return ⟨[], vec.block, Nat.zero_le _⟩

/-- The destructor. -/
def release (destroy : α → Program π ρ Unit) (vec : Vec π α inlineSize) : Program π ρ Unit := do
  vec.elements.forM destroy
  vec.releaseBuffer

end Operations

/-! ## Specifications -/

section Specifications

variable [DecidableEq π] {grants : ℕ → Bool} {pool : π} {live : Multiset (Block π)} {content : ρ}

omit [DecidableEq π] in
theorem copy_spec (elements : List α) :
    Triple grants (Owns live content) (copy grants pool elements)
      (fun (vec : Vec π α inlineSize) arena =>
        (vec.elements = elements ∧ FromPool pool vec.buffer) ∧ Owns (vec.buffer + live) content arena)
      (Owns live content) := by
  unfold copy
  split
  · refine Triple.pure fun arena harena => ⟨⟨rfl, fromPool_zero⟩, ?_⟩
    rw [buffer, Option.elim_none, zero_add]
    exact harena
  · refine (allocate_spec pool elements.length).bind fun address => ?_
    refine Triple.pure fun arena harena => ⟨⟨rfl, fromPool_singleton.mpr rfl⟩, ?_⟩
    rw [buffer, Option.elim_some, Multiset.singleton_add]
    exact harena

theorem releaseBuffer_spec (vec : Vec π α inlineSize) :
    Triple grants (Owns (vec.buffer + live) content) vec.releaseBuffer
      (fun _ => Owns live content) Never := by
  unfold releaseBuffer buffer
  cases vec.block with
  | none =>
    rw [Option.elim_none, zero_add]
    exact Triple.pure fun _ => id
  | some block =>
    rw [Option.elim_some, Multiset.singleton_add]
    exact deallocate_spec block

/-- The old block goes when there is a new one. -/
theorem releaseBuffer_cons_spec (vec : Vec π α inlineSize) (block : Block π) :
    Triple grants (Owns (block ::ₘ (vec.buffer + live)) content) vec.releaseBuffer
      (fun _ => Owns (block ::ₘ live) content) Never := by
  rw [← Multiset.add_cons]
  exact vec.releaseBuffer_spec

theorem reserve_spec (count : ℕ) (vec : Vec π α inlineSize) :
    Triple grants (Owns (vec.buffer + live) content) (vec.reserve grants pool count)
      (fun vec' arena => (vec'.elements = vec.elements ∧ count ≤ vec'.capacity ∧
          (FromPool pool vec.buffer → FromPool pool vec'.buffer)) ∧
        Owns (vec'.buffer + live) content arena)
      (Owns (vec.buffer + live) content) := by
  unfold reserve
  split
  · rename_i hroom
    exact Triple.pure fun arena harena => ⟨⟨rfl, hroom, id⟩, harena⟩
  · refine (allocate_spec pool count).bind fun address => ?_
    refine (vec.releaseBuffer_cons_spec _).of_never.bind fun _ => ?_
    refine Triple.pure fun arena harena =>
      ⟨⟨rfl, le_rfl, fun _ => fromPool_singleton.mpr rfl⟩, ?_⟩
    rw [buffer, Option.elim_some, Multiset.singleton_add]
    exact harena

/-- **Appending** one element, all or nothing, when the constructor of the element is so. -/
theorem pushBack_spec {spare : ℕ → ℕ} {construct : Program π ρ α} {owned : α → Multiset (Block π)}
    {made : α → Prop} (vec : Vec π α inlineSize)
    (hconstruct : ∀ live, Triple grants (Owns live content) construct
      (fun element arena => made element ∧ Owns (owned element + live) content arena)
      (Owns live content)) :
    Triple grants (Owns (vec.buffer + live) content) (vec.pushBack grants pool spare construct)
      (fun vec' arena => ∃ element, (made element ∧ Pushed pool vec vec' element) ∧
        Owns (vec'.buffer + (owned element + live)) content arena)
      (Owns (vec.buffer + live) content) := by
  unfold pushBack
  split
  · -- in place
    refine (hconstruct _).bind fun element => Triple.pure fun arena harena => ?_
    rw [add_left_comm] at harena
    exact ⟨element, ⟨harena.1, rfl, id⟩, harena.2⟩
  · refine (allocate_spec pool _).bind fun address => ?_
    -- the new block is given back when the element cannot be constructed
    refine ((hconstruct _).onFailure (deallocate_spec _)).bind fun element => ?_
    refine Triple.of_fact fun hmade => ?_
    rw [Multiset.add_cons, add_left_comm (owned element) vec.buffer live]
    refine (vec.releaseBuffer_cons_spec _).of_never.bind fun _ => ?_
    refine Triple.pure fun arena harena =>
      ⟨element, ⟨hmade, rfl, fun _ => fromPool_singleton.mpr rfl⟩, ?_⟩
    rw [buffer, Option.elim_some, Multiset.singleton_add]
    exact harena

/-- Appending an element that is moved into its place. -/
theorem pushBack_pure_spec {spare : ℕ → ℕ} (vec : Vec π α inlineSize) (element : α) :
    Triple grants (Owns (vec.buffer + live) content)
      (vec.pushBack grants pool spare (return element))
      (fun vec' arena => Pushed pool vec vec' element ∧ Owns (vec'.buffer + live) content arena)
      (Owns (vec.buffer + live) content) := by
  have hmoved : ∀ live, Triple grants (Owns live content) (return element : Program π ρ α)
      (fun moved arena => moved = element ∧ Owns (0 + live) content arena) (Owns live content) := by
    intro live
    rw [zero_add]
    exact Triple.pure fun arena harena => ⟨rfl, harena⟩
  refine (vec.pushBack_spec hmoved).mono (fun _ => id) (fun vec' arena => ?_) fun _ => id
  rintro ⟨moved, ⟨rfl, hpushed⟩, harena⟩
  rw [zero_add] at harena
  exact ⟨hpushed, harena⟩

omit [DecidableEq π] in
/-- Destroying elements gives back what belongs to them. -/
theorem destroy_spec {destroy : α → Program π ρ Unit} {owned : α → Multiset (Block π)}
    (hdestroy : ∀ element live, Triple grants (Owns (owned element + live) content)
      (destroy element) (fun _ => Owns live content) Never) (elements : List α) :
    Triple grants (Owns ((elements.map owned).sum + live) content) (elements.forM destroy)
      (fun _ => Owns live content) Never := by
  induction elements with
  | nil =>
    rw [List.map_nil, List.sum_nil, zero_add]
    exact Triple.pure fun _ => id
  | cons element elements ih =>
    rw [List.map_cons, List.sum_cons, add_assoc]
    exact (hdestroy element _).bind fun _ => ih

omit [DecidableEq π] in
theorem clear_spec {destroy : α → Program π ρ Unit} {owned : α → Multiset (Block π)}
    (hdestroy : ∀ element live, Triple grants (Owns (owned element + live) content)
      (destroy element) (fun _ => Owns live content) Never) (vec : Vec π α inlineSize) :
    Triple grants (Owns (vec.footprint owned + live) content) (vec.clear destroy)
      (fun vec' arena => vec'.elements = [] ∧ vec'.block = vec.block ∧
        Owns (vec'.footprint owned + live) content arena) Never := by
  have hlive : vec.footprint owned + live = (vec.elements.map owned).sum + (vec.buffer + live) := by
    rw [footprint, add_assoc, add_left_comm]
  rw [hlive]
  refine (destroy_spec hdestroy vec.elements).bind fun _ => ?_
  refine Triple.pure fun arena harena => ⟨rfl, rfl, ?_⟩
  rw [footprint_of_nil (by rfl)]
  exact harena

theorem release_spec {destroy : α → Program π ρ Unit} {owned : α → Multiset (Block π)}
    (hdestroy : ∀ element live, Triple grants (Owns (owned element + live) content)
      (destroy element) (fun _ => Owns live content) Never) (vec : Vec π α inlineSize) :
    Triple grants (Owns (vec.footprint owned + live) content) (vec.release destroy)
      (fun _ => Owns live content) Never := by
  have hlive : vec.footprint owned + live = (vec.elements.map owned).sum + (vec.buffer + live) := by
    rw [footprint, add_assoc, add_left_comm]
  rw [hlive]
  exact (destroy_spec hdestroy vec.elements).bind fun _ => vec.releaseBuffer_spec

end Specifications

end Vec

end Allocation
