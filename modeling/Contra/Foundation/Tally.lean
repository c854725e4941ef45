import Mathlib.Algebra.BigOperators.Group.Finset.Piecewise
import Mathlib.Data.Fintype.Card

/-! # How many have a value

Of finitely many parties, each with a feature or without, `count` is how many have a given one.
`count_update` says what becomes of the number when one party changes. -/

namespace Tally

variable {ι β : Type*} [Fintype ι] [DecidableEq β]

/-- How many of `features` have the given value. -/
def count (features : ι → Option β) (value : β) : ℕ :=
  (Finset.univ.filter fun i => features i = some value).card

omit [Fintype ι] in
/-- One for the value, zero for everything else. -/
def one (feature : Option β) (value : β) : ℕ := if feature = some value then 1 else 0

theorem count_eq_zero_iff {features : ι → Option β} {value : β} :
    count features value = 0 ↔ ∀ i, features i ≠ some value := by
  rw [count, Finset.card_eq_zero, Finset.filter_eq_empty_iff]
  simp

/-- When one feature changes, its old value counts one less and its new one more. -/
theorem count_update [DecidableEq ι] (features : ι → Option β) (i : ι) (feature : Option β)
    (value : β) : count (Function.update features i feature) value + one (features i) value
      = count features value + one feature value := by
  have hsum : ∀ f : ι → Option β, count f value
      = one (f i) value + ∑ j ∈ Finset.univ.erase i, one (f j) value := by
    intro f
    rw [count, Finset.card_filter]
    exact (Finset.add_sum_erase Finset.univ (fun j => one (f j) value) (Finset.mem_univ i)).symm
  have hrest : ∑ j ∈ Finset.univ.erase i, one (Function.update features i feature j) value
      = ∑ j ∈ Finset.univ.erase i, one (features j) value := by
    refine Finset.sum_congr rfl fun j hj => ?_
    rw [Function.update_of_ne (Finset.ne_of_mem_erase hj)]
  rw [hsum, hsum features, hrest, Function.update_self]
  omega

end Tally
