import Mathlib.Data.Fintype.Pi
import Mathlib.Data.List.Basic
import Mathlib.Logic.Function.Basic

/-! # Sequences that are written piece by piece

Any number of writers put records into one sequence, each in as many pieces as it likes. `Whole` says of the
sequence that it is some list of whole records, but for the rest of at most one, whose writer is in the middle
of it. The writers keep this as long as nobody writes while another is in the middle:

* `Whole.update`: a writer that starts or ends without a write;
* `Whole.put`: a piece, at the end of the sequence;
* `Whole.replaced`: a record that takes the place of all others. -/

namespace PiecewiseWrites

/-- A record on its way. -/
structure Writing (τ α : Type*) where
  /-- Whose record it is, and where it goes. -/
  tag : τ
  /-- Its place in the sequence is taken. -/
  begun : Bool
  /-- What is not in the sequence yet. -/
  left : List α

variable {ι τ α : Type*}

/-- The writer is in the middle of its record. -/
def Writing.torn (writing : Writing τ α) : Bool := writing.begun && !writing.left.isEmpty

theorem Writing.torn_eq_false {writing : Writing τ α} (h : writing.torn = false) :
    writing.begun = false ∨ writing.left = [] := by
  cases hbegun : writing.begun with
  | false => exact .inl rfl
  | true =>
    refine .inr (List.isEmpty_iff.mp ?_)
    simpa [torn, hbegun] using h

/-- Nobody but the writer is in the middle of a record. -/
def Undisturbed (writings : ι → Option (Writing τ α)) (i : ι) : Prop :=
  ∀ j, j ≠ i → (writings j).any Writing.torn = false

instance [Fintype ι] [DecidableEq ι] (writings : ι → Option (Writing τ α)) (i : ι) :
    Decidable (Undisturbed writings i) :=
  inferInstanceAs (Decidable (∀ j, j ≠ i → (writings j).any Writing.torn = false))

/-- The sequence is `whole`, but for the rest of at most one record. -/
structure Whole (whole content : List α) (writings : ι → Option (Writing τ α)) : Prop where
  /-- It is, where nobody is in the middle. -/
  untorn : (∀ i, (writings i).any Writing.torn = false) → content = whole
  /-- The rest is that of the one who is. -/
  torn : ∀ i writing, writings i = some writing → writing.torn = true →
    content ++ writing.left = whole ∧ Undisturbed writings i

namespace Whole

variable {whole content : List α} {writings : ι → Option (Writing τ α)} {i : ι}

/-- What is there is a prefix. -/
theorem content_prefix (h : Whole whole content writings) : content <+: whole := by
  by_cases hnone : ∀ i, (writings i).any Writing.torn = false
  · rw [h.untorn hnone]
  · obtain ⟨i, hi⟩ := not_forall.mp hnone
    rw [Bool.not_eq_false, Option.any_eq_true] at hi
    obtain ⟨writing, hwriting, htorn⟩ := hi
    exact ⟨writing.left, (h.torn i writing hwriting htorn).1⟩

/-- What follows when the writer has the sequence for itself. -/
theorem content_append (h : Whole whole content writings) (hi : Undisturbed writings i)
    {writing : Writing τ α} (hwriting : writings i = some writing) (hleft : writing.left ≠ []) :
    content ++ writing.left = if writing.begun then whole else whole ++ writing.left := by
  cases hbegun : writing.begun with
  | true =>
    have htorn : writing.torn = true := by simp [Writing.torn, hbegun, hleft]
    exact (h.torn i writing hwriting htorn).1
  | false =>
    have hcontent : content = whole := by
      refine h.untorn fun j => ?_
      by_cases hji : j = i
      · rw [hji, hwriting, Option.any_some, Writing.torn, hbegun, Bool.false_and]
      · exact hi j hji
    rw [hcontent]
    rfl

variable [DecidableEq ι]

/-- Whoever alone may be in the middle decides what is missing. -/
theorem of_undisturbed {next : Option (Writing τ α)} (hi : Undisturbed writings i)
    (hfalse : next.any Writing.torn = false → content = whole)
    (htrue : ∀ writing, next = some writing → writing.torn = true → content ++ writing.left = whole) :
    Whole whole content (Function.update writings i next) := by
  refine ⟨fun hnone => hfalse ?_, fun j writing hj htorn => ?_⟩
  · have := hnone i
    rwa [Function.update_self] at this
  · have hji : j = i := by
      by_contra hji
      rw [Function.update_of_ne hji] at hj
      have := hi j hji
      rw [hj, Option.any_some, htorn] at this
      cases this
    subst hji
    rw [Function.update_self] at hj
    refine ⟨htrue writing hj htorn, fun k hk => ?_⟩
    rw [Function.update_of_ne hk]
    exact hi k hk

/-- A writer that is not in the middle of a record, neither before nor after. -/
theorem update (h : Whole whole content writings) {next : Option (Writing τ α)}
    (hold : (writings i).any Writing.torn = false) (hnext : next.any Writing.torn = false) :
    Whole whole content (Function.update writings i next) := by
  have hsame : ∀ j, (Function.update writings i next j).any Writing.torn
      = (writings j).any Writing.torn := by
    intro j
    by_cases hji : j = i
    · rw [hji, Function.update_self, hold, hnext]
    · rw [Function.update_of_ne hji]
  refine ⟨fun hnone => h.untorn fun j => ?_, fun j writing hj htorn => ?_⟩
  · rw [← hsame]
    exact hnone j
  · have hji : j ≠ i := by
      rintro rfl
      rw [Function.update_self] at hj
      rw [hj, Option.any_some, htorn] at hnext
      cases hnext
    rw [Function.update_of_ne hji] at hj
    obtain ⟨hleft, hothers⟩ := h.torn j writing hj htorn
    refine ⟨hleft, fun k hk => ?_⟩
    rw [hsame]
    exact hothers k hk

/-- **A piece of a record**: with the first one, the record gets its place. -/
theorem put (h : Whole whole content writings) (hi : Undisturbed writings i)
    {writing : Writing τ α} (hwriting : writings i = some writing) (hleft : writing.left ≠ [])
    (tag : τ) (count : ℕ) :
    Whole (if writing.begun then whole else whole ++ writing.left) (content ++ writing.left.take count)
      (Function.update writings i (some ⟨tag, true, writing.left.drop count⟩)) := by
  have happend := h.content_append hi hwriting hleft
  refine of_undisturbed hi (fun huntorn => ?_) fun other hother _ => ?_
  · have hdrop : writing.left.drop count = [] := by
      rcases Writing.torn_eq_false huntorn with hbegun | hdrop
      · cases hbegun
      · exact hdrop
    rw [← happend]
    conv_rhs => rw [← List.take_append_drop count writing.left, hdrop, List.append_nil]
  · obtain rfl := Option.some.inj hother
    rw [← happend, List.append_assoc, List.take_append_drop]

/-- **A record instead of all others.** -/
theorem replaced (hi : Undisturbed writings i) (tag : τ) {record : List α}
    (hrecord : record ≠ []) :
    Whole record [] (Function.update writings i (some ⟨tag, true, record⟩)) := by
  refine of_undisturbed hi (fun huntorn => ?_) fun other hother _ => ?_
  · rcases Writing.torn_eq_false huntorn with hbegun | hleft
    · cases hbegun
    · exact absurd hleft hrecord
  · obtain rfl := Option.some.inj hother
    exact List.nil_append _

end Whole

end PiecewiseWrites
