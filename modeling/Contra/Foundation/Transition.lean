import Mathlib.Data.List.Induction
import Mathlib.Tactic.Common

/-! # Runs of a partial step function

A system is a function `step : σ → α → Option σ`: the state after an action, or `none` where the
action is not possible. `run` takes a list of actions in order. The rules below package the
inductions over runs, so that a development proves what one step does and cites a rule for the
rest:

* `invariant` and `run_induction`: properties of the states reached, the second with the actions
  taken so far, and `run_induction_of_forall` for runs of allowed actions;
* `observations`: what an observer writes down along a run;
* `Meets`: every step of a run is taken in a state that meets a condition. `invariant_of_meets` says
  what such runs preserve, and `good_iff_meets`, `always_good_iff_meets` and `meets_iff_meets` when the
  condition is exact;
* `run_potential`: what the steps of a run cost is paid by what they gain and by the potential used up;
* `run_simulated`, `run_matched` and `run_lockstep`: a simulation of single steps is one of runs;
* `withHistory`: a record of the actions beside the state, for conditions that speak of the past. -/

namespace Transition

variable {σ α β : Type*} (step : σ → α → Option σ)

/-- The state after a list of actions. -/
def run (s : σ) : List α → Option σ
  | [] => some s
  | a :: as => (step s a).bind fun s' => run s' as

@[simp] theorem run_nil (s : σ) : run step s [] = some s := rfl

theorem run_cons (s : σ) (a : α) (as : List α) :
    run step s (a :: as) = (step s a).bind fun s' => run step s' as := rfl

variable {step} {s s' s'' : σ} {a : α} {as bs : List α}

theorem run_append (s : σ) (as bs : List α) :
    run step s (as ++ bs) = (run step s as).bind fun s' => run step s' bs := by
  induction as generalizing s with
  | nil => rfl
  | cons a as ih =>
    rw [List.cons_append, run_cons, run_cons]
    cases step s a with
    | none => rfl
    | some s' => exact ih s'

/-- A run of renamed actions. -/
theorem run_map (rename : β → α) (s : σ) (bs : List β) :
    run step s (bs.map rename) = run (fun s b => step s (rename b)) s bs := by
  induction bs generalizing s with
  | nil => rfl
  | cons b bs ih =>
    rw [List.map_cons, run_cons, run_cons]
    cases step s (rename b) with
    | none => rfl
    | some s' => exact ih s'

/-- The last step of a run. -/
theorem run_concat_eq_some :
    run step s (as ++ [a]) = some s'' ↔ ∃ s', run step s as = some s' ∧ step s' a = some s'' := by
  rw [run_append, Option.bind_eq_some_iff]
  simp [run_cons]

/-- The first step of a run. -/
theorem run_cons_eq_some :
    run step s (a :: as) = some s'' ↔ ∃ s', step s a = some s' ∧ run step s' as = some s'' :=
  Option.bind_eq_some_iff

/-- **Run induction.** A property of the actions taken and the state reached holds after every run
when it holds at the start and every step extends it. -/
theorem run_induction (property : List α → σ → Prop) (start : property [] s)
    (extend : ∀ as a s' s'', run step s as = some s' → property as s' → step s' a = some s'' →
      property (as ++ [a]) s'') (h : run step s as = some s') : property as s' := by
  induction as using List.reverseRecOn generalizing s' with
  | nil =>
    obtain rfl : s = s' := Option.some.inj h
    exact start
  | append_singleton as a ih =>
    obtain ⟨middle, hrun, hstep⟩ := run_concat_eq_some.mp h
    exact extend as a middle s' hrun (ih hrun) hstep

/-- The same for runs in which every action is allowed. -/
theorem run_induction_of_forall {allowed : α → Prop} (property : List α → σ → Prop)
    (start : property [] s)
    (extend : ∀ as a s' s'', run step s as = some s' → property as s' → allowed a →
      step s' a = some s'' → property (as ++ [a]) s'')
    (hallowed : ∀ a ∈ as, allowed a) (h : run step s as = some s') : property as s' := by
  apply run_induction (fun as s' => (∀ a ∈ as, allowed a) → property as s') _ _ h hallowed
  · intro _
    exact start
  · intro as a s' s'' hrun ih hstep hallowed
    have hfront : ∀ b ∈ as, allowed b := fun b hb => hallowed b (List.mem_append_left _ hb)
    exact extend as a s' s'' hrun (ih hfront) (hallowed a (by simp)) hstep

/-- **Invariants.** What every step preserves holds in every state reached. -/
theorem invariant (property : σ → Prop) (start : property s)
    (preserve : ∀ s a s', property s → step s a = some s' → property s')
    (h : run step s as = some s') : property s' :=
  run_induction (fun _ s => property s) start
    (fun _ a s' s'' _ hs hstep => preserve s' a s'' hs hstep) h

/-! ## Observations -/

variable (step) in
/-- What `observe` notes at each action of a run, in order. -/
def observations (observe : σ → α → List β) (s : σ) : List α → List β
  | [] => []
  | a :: as => observe s a ++ ((step s a).elim [] fun s' => observations observe s' as)

theorem observations_concat (observe : σ → α → List β) (h : run step s as = some s') :
    observations step observe s (as ++ [a]) = observations step observe s as ++ observe s' a := by
  induction as generalizing s with
  | nil =>
    obtain rfl : s = s' := Option.some.inj h
    rw [List.nil_append, observations, observations, List.nil_append]
    cases step s a <;> simp [observations]
  | cons b as ih =>
    obtain ⟨middle, hstep, hrun⟩ := run_cons_eq_some.mp h
    rw [List.cons_append, observations, observations, hstep, Option.elim_some, Option.elim_some,
      ih hrun, List.append_assoc]

/-- An observer of the actions alone. -/
theorem observations_of_actions (observe : α → List β) (h : run step s as = some s') :
    observations step (fun _ => observe) s as = as.flatMap observe := by
  induction as generalizing s with
  | nil => rfl
  | cons a as ih =>
    obtain ⟨middle, hstep, hrun⟩ := run_cons_eq_some.mp h
    rw [observations, hstep, Option.elim_some, ih hrun, List.flatMap_cons]

/-! ## Runs under a condition -/

variable (step) in
/-- Every action of the run is taken in a state that meets `condition`. -/
def Meets (condition : σ → α → Prop) (s : σ) : List α → Prop
  | [] => True
  | a :: as => condition s a ∧ ∀ s', step s a = some s' → Meets condition s' as

/-- Whether a run meets a decidable condition is decided by running it. -/
instance decidableMeets {condition : σ → α → Prop} [∀ s a, Decidable (condition s a)] :
    (s : σ) → (as : List α) → Decidable (Meets step condition s as)
  | _, [] => isTrue trivial
  | s, a :: as =>
    match h : step s a with
    | none => decidable_of_iff (condition s a) (by simp [Meets, h])
    | some s' =>
      have : Decidable (Meets step condition s' as) := decidableMeets s' as
      decidable_of_iff (condition s a ∧ Meets step condition s' as) (by simp [Meets, h])

/-- Actions that meet the condition in every state. -/
theorem meets_of_forall {condition : σ → α → Prop} (h : ∀ a ∈ as, ∀ s, condition s a) (s : σ) :
    Meets step condition s as := by
  induction as generalizing s with
  | nil => trivial
  | cons a as ih =>
    exact ⟨h a List.mem_cons_self s,
      fun s' _ => ih (fun b hb => h b (List.mem_cons_of_mem _ hb)) s'⟩

/-- Actions that are allowed meet the condition as allowed actions. -/
theorem Meets.allowed {condition : σ → α → Prop} {allowed : α → Prop}
    (h : Meets step condition s as) (hallowed : ∀ a ∈ as, allowed a) :
    Meets step (fun s a => condition s a ∧ allowed a) s as := by
  induction as generalizing s with
  | nil => trivial
  | cons a as ih =>
    obtain ⟨ha, has⟩ := List.forall_mem_cons.mp hallowed
    exact ⟨⟨h.1, ha⟩, fun s' hstep => ih (h.2 s' hstep) has⟩

theorem meets_concat {condition : σ → α → Prop} (h : run step s as = some s') :
    Meets step condition s (as ++ [a]) ↔ Meets step condition s as ∧ condition s' a := by
  induction as generalizing s with
  | nil =>
    obtain rfl : s = s' := Option.some.inj h
    simp [Meets]
  | cons b as ih =>
    obtain ⟨middle, hstep, hrun⟩ := run_cons_eq_some.mp h
    simp only [List.cons_append, Meets, hstep, Option.some.injEq, forall_eq', ih hrun, and_assoc]

/-- **Exact conditions.** When the condition on a step decides whether it leads from good states to a
good state, and bad states never get good, the condition on a run decides whether it ends in a good
state. -/
theorem good_iff_meets {condition : σ → α → Prop} {property good : σ → Prop}
    (preserve : ∀ s a s', property s → step s a = some s' → property s')
    (decides : ∀ s a s', property s → step s a = some s' → (good s' ↔ good s ∧ condition s a))
    (start : property s) (h : run step s as = some s') :
    good s' ↔ good s ∧ Meets step condition s as := by
  induction as generalizing s with
  | nil =>
    obtain rfl : s = s' := Option.some.inj h
    simp [Meets]
  | cons a as ih =>
    obtain ⟨middle, hstep, hrun⟩ := run_cons_eq_some.mp h
    rw [ih (preserve s a middle start hstep) hrun, decides s a middle start hstep, Meets, hstep]
    simp [and_assoc]

/-- **Good throughout.** When the condition on a step decides whether it leads from a good state to a
good state, the condition on a run decides whether all its states are good. -/
theorem always_good_iff_meets {condition : σ → α → Prop} {property good : σ → Prop}
    (preserve : ∀ s a s', property s → step s a = some s' → property s')
    (decides : ∀ s a s', property s → good s → step s a = some s' → (good s' ↔ condition s a))
    (start : property s) (hgood : good s) (h : run step s as = some s') :
    (∀ front, front <+: as → ∀ s'', run step s front = some s'' → good s'') ↔
      Meets step condition s as := by
  induction as generalizing s with
  | nil =>
    refine ⟨fun _ => trivial, fun _ front hfront s'' hrun => ?_⟩
    rw [List.prefix_nil.mp hfront] at hrun
    rwa [← Option.some.inj hrun]
  | cons a as ih =>
    obtain ⟨middle, hstep, hrun⟩ := run_cons_eq_some.mp h
    have hdecides := decides s a middle start hgood hstep
    have hmiddle := preserve s a middle start hstep
    rw [Meets, hstep]
    constructor
    · intro hall
      have hgood' : good middle :=
        hall [a] (List.prefix_append [a] as) middle (by rw [run_cons, hstep]; rfl)
      refine ⟨hdecides.mp hgood', fun s'' hs'' => ?_⟩
      obtain rfl := Option.some.inj hs''
      refine (ih hmiddle hgood' hrun).mp fun front hfront s'' hfrontRun => ?_
      refine hall (a :: front) (List.cons_prefix_cons.mpr ⟨rfl, hfront⟩) s'' ?_
      exact run_cons_eq_some.mpr ⟨middle, hstep, hfrontRun⟩
    · rintro ⟨hcondition, hrest⟩ front hfront s'' hfrontRun
      have hgood' : good middle := hdecides.mpr hcondition
      cases front with
      | nil => rwa [← Option.some.inj hfrontRun]
      | cons b front =>
        obtain ⟨rfl, hrestFront⟩ := List.cons_prefix_cons.mp hfront
        obtain ⟨_, hstep', hrestRun⟩ := run_cons_eq_some.mp hfrontRun
        obtain rfl := Option.some.inj (hstep.symm.trans hstep')
        exact (ih hmiddle hgood' hrun).mpr (hrest middle rfl) front hrestFront s'' hrestRun

/-- **Equivalent conditions.** Two conditions that say the same wherever an invariant holds are met by
the same runs, when the steps taken under the second keep the invariant. -/
theorem meets_iff_meets {first second : σ → α → Prop} (property : σ → Prop)
    (agree : ∀ s a, property s → (first s a ↔ second s a))
    (preserve : ∀ s a s', property s → second s a → step s a = some s' → property s')
    (start : property s) : Meets step first s as ↔ Meets step second s as := by
  induction as generalizing s with
  | nil => exact Iff.rfl
  | cons a as ih =>
    rw [Meets, Meets, agree s a start]
    refine and_congr_right fun hsecond => forall_congr' fun s' => ?_
    exact imp_congr_right fun hstep => ih (preserve s a s' start hsecond hstep)

/-- **Invariants under a condition.** What every step taken under the condition preserves holds
after every run that meets it. -/
theorem invariant_of_meets {condition : σ → α → Prop} {property : σ → Prop} (start : property s)
    (preserve : ∀ s a s', property s → condition s a → step s a = some s' → property s')
    (hmeets : Meets step condition s as) (h : run step s as = some s') : property s' := by
  have key : Meets step condition s as → property s' := by
    refine run_induction (fun as s' => Meets step condition s as → property s') (fun _ => start) ?_ h
    intro as a s' s'' hrun ih hstep hmeets
    obtain ⟨hfront, hlast⟩ := (meets_concat hrun).mp hmeets
    exact preserve s' a s'' (ih hfront) hlast hstep
  exact key hmeets

/-! ## Costs -/

/-- **Potential.** When every step that costs is paid by a gain or by potential, so are the steps of a
run. -/
theorem run_potential {property : σ → Prop} {allowed : α → Prop} (potential : σ → ℕ)
    (costs gains : α → Bool) (start : property s)
    (preserve : ∀ s a s', property s → allowed a → step s a = some s' → property s')
    (pay : ∀ s a s', property s → allowed a → step s a = some s' →
      (costs a).toNat + potential s' ≤ (gains a).toNat + potential s)
    (hallowed : ∀ a ∈ as, allowed a) (h : run step s as = some s') :
    as.countP costs + potential s' ≤ as.countP gains + potential s := by
  induction as generalizing s with
  | nil =>
    obtain rfl : s = s' := Option.some.inj h
    exact Nat.le_refl _
  | cons a as ih =>
    obtain ⟨middle, hstep, hrun⟩ := run_cons_eq_some.mp h
    obtain ⟨ha, has⟩ := List.forall_mem_cons.mp hallowed
    have hrest := ih (preserve s a middle start ha hstep) has hrun
    have hfirst := pay s a middle start ha hstep
    have hcount : ∀ predicate : α → Bool,
        (a :: as).countP predicate = (predicate a).toNat + as.countP predicate := by
      intro predicate
      rw [List.countP_cons, Nat.add_comm]
      cases predicate a <;> rfl
    rw [hcount, hcount]
    omega

/-! ## Simulations -/

/-- **Simulation.** When the abstract system takes the actions `matched` for every step that is taken
under the condition, and keeps the relation, it takes all of them, one after the other, for a run that
meets it. -/
theorem run_simulated {τ : Type*} {abstractStep : τ → β → Option τ} {condition : σ → α → Prop}
    {related : σ → τ → Prop} {t : τ} (matched : σ → α → List β) (start : related s t)
    (simulate : ∀ s t a s', related s t → condition s a → step s a = some s' →
      ∃ t', run abstractStep t (matched s a) = some t' ∧ related s' t')
    (hmeets : Meets step condition s as) (h : run step s as = some s') :
    ∃ t', run abstractStep t (observations step matched s as) = some t' ∧ related s' t' := by
  induction as generalizing s t with
  | nil =>
    obtain rfl : s = s' := Option.some.inj h
    exact ⟨t, rfl, start⟩
  | cons a as ih =>
    obtain ⟨middle, hstep, hrun⟩ := run_cons_eq_some.mp h
    obtain ⟨t', hmatched, hmiddle⟩ := simulate s t a middle start hmeets.1 hstep
    obtain ⟨t'', hrest, hlast⟩ := ih hmiddle (hmeets.2 middle hstep) hrun
    refine ⟨t'', ?_, hlast⟩
    rw [observations, hstep, Option.elim_some, run_append, hmatched, Option.bind_some, hrest]

/-- The same where a state of the abstract system is read off each state. -/
theorem run_matched {τ : Type*} {abstractStep : τ → β → Option τ} {condition : σ → α → Prop}
    {property : σ → Prop} (view : σ → τ) (matched : σ → α → List β) (start : property s)
    (preserve : ∀ s a s', property s → condition s a → step s a = some s' → property s')
    (simulate : ∀ s a s', property s → condition s a → step s a = some s' →
      run abstractStep (view s) (matched s a) = some (view s'))
    (hmeets : Meets step condition s as) (h : run step s as = some s') :
    run abstractStep (view s) (observations step matched s as) = some (view s') := by
  have hsimulate : ∀ s t a s', (property s ∧ t = view s) → condition s a → step s a = some s' →
      ∃ t', run abstractStep t (matched s a) = some t' ∧ property s' ∧ t' = view s' := by
    rintro s t a s' ⟨hs, rfl⟩ hcondition hstep
    exact ⟨_, simulate s a s' hs hcondition hstep, preserve s a s' hs hcondition hstep, rfl⟩
  obtain ⟨t', hrun, -, rfl⟩ := run_simulated matched ⟨start, rfl⟩ hsimulate hmeets h
  exact hrun

theorem rel_imp {τ : Type*} {related weaker : σ → τ → Prop} {s : Option σ} {t : Option τ}
    (himp : ∀ s t, related s t → weaker s t) (h : Option.Rel related s t) :
    Option.Rel weaker s t := by
  cases h with
  | some h => exact .some (himp _ _ h)
  | none => exact .none

theorem exists_of_rel_some {τ : Type*} {related : σ → τ → Prop} {s : Option σ} {t : τ}
    (h : Option.Rel related s (some t)) : ∃ s', s = some s' ∧ related s' t := by
  cases h with
  | some h => exact ⟨_, rfl, h⟩

/-- **Lockstep.** When a relation between two systems is kept by every action taken under a condition on
the second one, and both can do it or neither can, then both can do a run that meets the condition or
neither can, and the relation holds at its end. -/
theorem run_lockstep {τ : Type*} {other : τ → α → Option τ} {related : σ → τ → Prop}
    {condition : τ → α → Prop} {t : τ}
    (keep : ∀ s t a, related s t → condition t a → Option.Rel related (step s a) (other t a))
    (start : related s t) (hmeets : Meets other condition t as) :
    Option.Rel related (run step s as) (run other t as) := by
  induction as generalizing s t with
  | nil => exact .some start
  | cons a as ih =>
    rw [run_cons, run_cons]
    have hkeep := keep s t a start hmeets.1
    generalize step s a = s', hother : other t a = t' at hkeep ⊢
    cases hkeep with
    | none => exact .none
    | some hrelated => exact ih hrelated (hmeets.2 _ hother)

/-! ## History variables -/

/-- A system beside a record of the actions it took. -/
def withHistory {η : Type*} (step : σ → α → Option σ) (record : η → α → η) (s : σ × η) (a : α) :
    Option (σ × η) := (step s.1 a).map fun s' => (s', record s.2 a)

theorem withHistory_eq_some {η : Type*} {record : η → α → η} {s s' : σ × η} :
    withHistory step record s a = some s' ↔ step s.1 a = some s'.1 ∧ record s.2 a = s'.2 := by
  obtain ⟨next, history⟩ := s'
  simp only [withHistory, Option.map_eq_some_iff, Prod.mk.injEq]
  constructor
  · rintro ⟨_, hstep, rfl, hrecord⟩
    exact ⟨hstep, hrecord⟩
  · rintro ⟨hstep, hrecord⟩
    exact ⟨next, hstep, rfl, hrecord⟩

end Transition
