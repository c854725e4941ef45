import Mathlib.Logic.Function.Basic
import Mathlib.Tactic.Common

/-! # Check, then create

Any number of processes want one object to exist. Each looks for it first and creates it if it found
none; creating an object that exists fails. Between the look and the creation others may do the same.

`Lone` says that the race is off: at most one process is between a look that missed and its creation,
and the object does not exist then. Whether it stays off is decided at the misses alone. -/

namespace CheckThenCreate

/-- Whether the object exists, and which processes found none and have not created it yet. -/
structure State (ι : Type*) where
  /-- The object exists. -/
  present : Bool
  /-- The process is about to create it. -/
  missed : ι → Bool

namespace State

variable {ι : Type*} [DecidableEq ι] (s : State ι) (i : ι)

/-- Process `i` finds nothing. -/
def miss : State ι := { s with missed := Function.update s.missed i true }

/-- Process `i` creates the object. -/
def create : State ι := ⟨true, Function.update s.missed i false⟩

omit [DecidableEq ι] in
/-- Whoever is about to create the object is alone and the object does not exist. -/
def Lone : Prop := ∀ i, s.missed i = true → s.present = false ∧ ∀ j, s.missed j = true → j = i

variable {s i}

theorem missed_miss_of_ne {j : ι} (h : j ≠ i) : (s.miss i).missed j = s.missed j :=
  Function.update_of_ne h ..

theorem missed_create_of_ne {j : ι} (h : j ≠ i) : (s.create i).missed j = s.missed j :=
  Function.update_of_ne h ..

omit [DecidableEq ι] in
theorem lone_of_forall_not_missed (h : ∀ i, s.missed i = false) : s.Lone := by
  intro i hi
  rw [h i] at hi
  cases hi

omit [DecidableEq ι] in
/-- A creation that fails was not alone. -/
theorem not_lone (hmissed : s.missed i = true) (hpresent : s.present = true) : ¬ s.Lone := by
  intro hlone
  rw [(hlone i hmissed).1] at hpresent
  cases hpresent

/-- A miss keeps the race off exactly if no other miss is pending. -/
theorem lone_miss_iff (hpresent : s.present = false) (hmissed : s.missed i = false) :
    (s.miss i).Lone ↔ ∀ j, s.missed j = false := by
  have hself : (s.miss i).missed i = true := Function.update_self ..
  constructor
  · intro hlone j
    by_contra hj
    have hne : j ≠ i := by
      rintro rfl
      exact hj hmissed
    have hother : (s.miss i).missed j = true := by
      rw [missed_miss_of_ne hne]
      simpa using hj
    exact hne ((hlone i hself).2 j hother)
  · intro hnone j hj
    have honly : ∀ k, (s.miss i).missed k = true → k = i := by
      intro k hk
      by_contra hne
      rw [missed_miss_of_ne hne, hnone k] at hk
      cases hk
    refine ⟨hpresent, fun k hk => ?_⟩
    rw [honly j hj, honly k hk]

/-- A creation that succeeds changes nothing about the race. -/
theorem lone_create_iff (hpresent : s.present = false) (hmissed : s.missed i = true) :
    (s.create i).Lone ↔ s.Lone := by
  constructor
  · intro hlone
    -- nobody is left who missed, since the object exists now
    have honly : ∀ k, s.missed k = true → k = i := by
      intro k hk
      by_contra hne
      have hk' : (s.create i).missed k = true := by rw [missed_create_of_ne hne, hk]
      exact not_lone hk' rfl hlone
    intro j hj
    refine ⟨hpresent, fun k hk => ?_⟩
    rw [honly j hj, honly k hk]
  · intro hlone
    refine lone_of_forall_not_missed fun j => ?_
    by_cases hj : j = i
    · subst hj
      exact Function.update_self ..
    · rw [missed_create_of_ne hj]
      by_contra hother
      exact hj ((hlone i hmissed).2 j (by simpa using hother))

/-! ### Processes in phases -/

section Phases

variable {φ : Type*} {present : Bool} {misses : φ → Bool} {phase : ι → φ} {next : φ}

/-- The race of processes that are in phases, some of which come behind a miss. -/
def ofPhases (present : Bool) (misses : φ → Bool) (phase : ι → φ) : State ι :=
  ⟨present, fun i => misses (phase i)⟩

/-- Who misses after a step: the stepping process has changed, the others have not. -/
theorem misses_update : (fun j => misses (Function.update phase i next j))
    = Function.update (fun j => misses (phase j)) i (misses next) := by
  funext j
  by_cases hj : j = i
  · subst hj
    rw [Function.update_self, Function.update_self]
  · rw [Function.update_of_ne hj, Function.update_of_ne hj]

/-- A step that misses nothing and creates nothing. -/
theorem ofPhases_update (h : misses next = misses (phase i)) :
    ofPhases present misses (Function.update phase i next) = ofPhases present misses phase := by
  rw [ofPhases, misses_update, h, Function.update_eq_self]
  rfl

/-- A step that misses. -/
theorem ofPhases_miss (h : misses next = true) :
    ofPhases present misses (Function.update phase i next)
      = (ofPhases present misses phase).miss i := by
  rw [ofPhases, misses_update, h]
  rfl

/-- A step that creates. -/
theorem ofPhases_create (h : misses next = false) :
    ofPhases true misses (Function.update phase i next)
      = (ofPhases present misses phase).create i := by
  rw [ofPhases, misses_update, h]
  rfl

end Phases

end State

end CheckThenCreate
