import Mathlib.Logic.Function.Basic
import Mathlib.Order.Basic
import Mathlib.Tactic.Common

/-! # Objects under a name

What an operating system keeps under one name over time. Opening the name gives the object it is bound
to, or creates one and binds the name to it. Removing the name unbinds it; the object stays usable for
whoever opened it, and the next one to open the name creates another object. Objects are numbered in
the order they are created. -/

namespace NamedObjects

/-- The objects created under one name, and the one the name is bound to. -/
structure Name (ω : Type*) where
  /-- The objects, by number. -/
  object : ℕ → ω
  /-- How many were created. -/
  created : ℕ
  /-- The object that is opened under the name now. -/
  bound : Option ℕ

namespace Name

variable {ω : Type*}

/-- Open the object the name is bound to, or create it. -/
def openOrCreate (fresh : ω) (name : Name ω) : ℕ × Name ω :=
  match name.bound with
  | some id => (id, name)
  -- the new object gets the next number and the name
  | none => (name.created,
      ⟨Function.update name.object name.created fresh, name.created + 1, some name.created⟩)

/-- Unbind the name. -/
def remove (name : Name ω) : Name ω := { name with bound := none }

/-- Change an object. -/
def set (name : Name ω) (id : ℕ) (value : ω) : Name ω :=
  { name with object := Function.update name.object id value }

/-- A name is bound to an object that was created. -/
def WellFormed (name : Name ω) : Prop := ∀ id, name.bound = some id → id < name.created

/-! ## What the operations do -/

variable {name : Name ω} {fresh value : ω} {id : ℕ}

theorem openOrCreate_of_bound (h : name.bound = some id) : name.openOrCreate fresh = (id, name) := by
  rw [openOrCreate, h]

theorem openOrCreate_of_unbound (h : name.bound = none) : name.openOrCreate fresh = (name.created,
    ⟨Function.update name.object name.created fresh, name.created + 1, some name.created⟩) := by
  rw [openOrCreate, h]

/-- The object opened is the one the name is bound to from then on. -/
theorem bound_openOrCreate : (name.openOrCreate fresh).2.bound = some (name.openOrCreate fresh).1 := by
  cases h : name.bound with
  | none => rw [openOrCreate_of_unbound h]
  | some id => rw [openOrCreate_of_bound h, h]

/-- The object opened was bound before, or is new. -/
theorem openOrCreate_cases :
    name.bound = some (name.openOrCreate fresh).1 ∨
      (name.bound = none ∧ (name.openOrCreate fresh).1 = name.created) := by
  cases h : name.bound with
  | none => exact Or.inr ⟨rfl, by rw [openOrCreate_of_unbound h]⟩
  | some id => exact Or.inl (by rw [openOrCreate_of_bound h])

/-- The object under the name is the one opened. -/
theorem openOrCreate_eq (h : name.bound = some id) : (name.openOrCreate fresh).1 = id := by
  rw [openOrCreate_of_bound h]

/-- Opening creates at most one object. -/
theorem created_le_openOrCreate : name.created ≤ (name.openOrCreate fresh).2.created := by
  cases h : name.bound with
  | none => simp [openOrCreate_of_unbound h]
  | some id => simp [openOrCreate_of_bound h]

/-- Objects that exist are not changed by opening. -/
theorem object_openOrCreate (h : id < name.created) :
    (name.openOrCreate fresh).2.object id = name.object id := by
  cases hbound : name.bound with
  | none =>
    rw [openOrCreate_of_unbound hbound]
    exact Function.update_of_ne (Nat.ne_of_lt h) _ _
  | some bound => rw [openOrCreate_of_bound hbound]

/-- The object opened exists. -/
theorem openOrCreate_lt (h : name.WellFormed) :
    (name.openOrCreate fresh).1 < (name.openOrCreate fresh).2.created := by
  cases hbound : name.bound with
  | none => rw [openOrCreate_of_unbound hbound]; exact Nat.lt_succ_self _
  | some bound => rw [openOrCreate_of_bound hbound]; exact h bound hbound

theorem WellFormed.openOrCreate (h : name.WellFormed) :
    (name.openOrCreate fresh).2.WellFormed := by
  intro id hid
  rw [bound_openOrCreate] at hid
  obtain rfl := Option.some.inj hid
  exact openOrCreate_lt h

theorem WellFormed.remove : name.remove.WellFormed := fun _ h => by cases h

@[simp] theorem object_set_self : (name.set id value).object id = value := Function.update_self ..

theorem object_set_of_ne {other : ℕ} (h : other ≠ id) :
    (name.set id value).object other = name.object other := Function.update_of_ne h ..

@[simp] theorem set_set {first second : ω} : (name.set id first).set id second = name.set id second := by
  rw [set, set, set, Name.mk.injEq]
  exact ⟨Function.update_idem .., rfl, rfl⟩

@[simp] theorem set_eq_self : name.set id (name.object id) = name := by
  rw [set, Function.update_eq_self]

end Name

end NamedObjects
