import Contra.SharedMemoryLifecycle
import Mathlib.Data.Finset.Basic

/-! # Segments after a `Destroy`

The static `Destroy` unbinds the name while objects are attached, so that several segments of one
name can be in use: the objects constructed before it keep theirs, and the next constructor makes
another. The count is kept in the segment, but a destructor that finds it at zero removes the name,
whatever the name is bound to by then.

`Epochs` is the bookkeeping of a run in terms of its actions alone: the live objects by the number of
`Destroy` calls in front of their construction. The invariant `Generations` ties each epoch to one
segment, whose count is the number of its live objects, and the last epoch to the name.
`destructors_remove_own_iff` says which runs keep the removals to the segment of the destroyed
object. -/

namespace Contra

/-! ## Epochs -/

/-- The live objects of a run by epoch, the time between two calls of `Destroy`. -/
structure Epochs (ι : Type*) where
  /-- How often `Destroy` was called. -/
  current : ℕ
  /-- The live objects constructed in each epoch. -/
  live : ℕ → Finset ι

namespace Epochs

variable {ι : Type*}

/-- Nothing has happened. -/
def start : Epochs ι := ⟨0, fun _ => ∅⟩

variable [DecidableEq ι]

/-- The epochs after an action. -/
def next (epochs : Epochs ι) : ShmAction ι → Epochs ι
  | .construct i => ⟨epochs.current,
      Function.update epochs.live epochs.current (insert i (epochs.live epochs.current))⟩
  | .destruct i => ⟨epochs.current, fun epoch => (epochs.live epoch).erase i⟩
  | .call _ => epochs
  | .destroy => ⟨epochs.current + 1, epochs.live⟩

/-- No destructor ends the last object of an earlier epoch while one of the current epoch is alive. -/
def Timely (epochs : Epochs ι) : ShmAction ι → Prop
  | .destruct i => ∀ epoch < epochs.current, epochs.live epoch = {i} →
      epochs.live epochs.current = ∅
  | _ => True

instance (epochs : Epochs ι) (action : ShmAction ι) : Decidable (epochs.Timely action) :=
  match action with
  | .construct _ => isTrue trivial
  | .destruct i => inferInstanceAs (Decidable (∀ epoch < epochs.current, epochs.live epoch = {i} →
      epochs.live epochs.current = ∅))
  | .call _ => isTrue trivial
  | .destroy => isTrue trivial

@[simp] theorem current_next_construct (epochs : Epochs ι) (i : ι) :
    (epochs.next (.construct i)).current = epochs.current := rfl

@[simp] theorem current_next_destruct (epochs : Epochs ι) (i : ι) :
    (epochs.next (.destruct i)).current = epochs.current := rfl

@[simp] theorem live_next_destruct (epochs : Epochs ι) (i : ι) (epoch : ℕ) :
    (epochs.next (.destruct i)).live epoch = (epochs.live epoch).erase i := rfl

theorem live_next_construct_current (epochs : Epochs ι) (i : ι) :
    (epochs.next (.construct i)).live epochs.current = insert i (epochs.live epochs.current) :=
  Function.update_self ..

theorem live_next_construct_of_ne (epochs : Epochs ι) (i : ι) {epoch : ℕ}
    (h : epoch ≠ epochs.current) : (epochs.next (.construct i)).live epoch = epochs.live epoch :=
  Function.update_of_ne h ..

end Epochs

/-! ## What a destructor and a constructor promise -/

namespace ShmWorld

variable {ι : Type*} [DecidableEq ι]

/-- A destructor that unbinds the name was attached to its segment, and leaves nobody attached to
it. -/
def RemovesOwn (world : ShmWorld ι) (action : ShmAction ι) : Prop :=
  ∀ i, action = .destruct i → ∀ world', world.step action = some world' →
    ∀ segment, world.memory.segments.bound = some segment →
      world'.memory.segments.bound ≠ some segment →
      world.attachedTo i segment = true ∧ ∀ j, world'.attachedTo j segment = false

/-- A constructor attaches to the segment of every live object of the current epoch. -/
def JoinsEpoch (world : ShmWorld ι) (epochs : Epochs ι) (action : ShmAction ι) : Prop :=
  ∀ i, action = .construct i → ∀ world', world.step action = some world' →
    ∀ j ∈ epochs.live epochs.current, ∃ segment,
      world.attachedTo j segment = true ∧ world'.attachedTo i segment = true

/-! ## The invariant -/

/-- Each epoch with live objects has a segment of its own, which counts them; the name is bound to the
one of the current epoch while it has live objects. -/
structure Generations (handles : ℕ → SharedMemoryTransport) (epochs : Epochs ι)
    (world : ShmWorld ι) : Prop where
  /-- No epoch lies behind the current one. -/
  later : ∀ epoch, epochs.current < epoch → epochs.live epoch = ∅
  /-- Live objects are in an epoch. -/
  alive : ∀ i, (world.transports i).isSome = true → ∃ epoch, i ∈ epochs.live epoch
  /-- All live objects of an epoch have the same handles. -/
  handle : ∀ epoch, ∀ i ∈ epochs.live epoch, world.transports i = some (handles epoch)
  /-- The segment of an epoch counts its live objects. -/
  stores : ∀ epoch, (epochs.live epoch).Nonempty → ∃ storage,
    world.memory.Stores (handles epoch) storage (epochs.live epoch).card
  /-- The segments in use exist. -/
  created : ∀ epoch, (epochs.live epoch).Nonempty →
    (handles epoch).segment < world.memory.segments.created
  /-- Different epochs use different segments. -/
  apart : ∀ epoch other, (epochs.live epoch).Nonempty → (epochs.live other).Nonempty →
    (handles epoch).segment = (handles other).segment → epoch = other
  /-- Without a live object of the current epoch the name is unbound. -/
  unbound : epochs.live epochs.current = ∅ → world.memory.segments.bound = none
  /-- The name is bound to the segment of the current epoch. -/
  bound : (epochs.live epochs.current).Nonempty →
    world.memory.segments.bound = some (handles epochs.current).segment ∧
      world.memory.mutexes.bound = some (handles epochs.current).mutex

namespace Generations

variable {handles : ℕ → SharedMemoryTransport} {epochs : Epochs ι} {world world' : ShmWorld ι}
  {i : ι}

omit [DecidableEq ι] in
/-- An object is in one epoch only. -/
theorem epoch_unique (h : Generations handles epochs world) {epoch other : ℕ}
    (hepoch : i ∈ epochs.live epoch) (hother : i ∈ epochs.live other) : epoch = other := by
  have hhandles : handles epoch = handles other :=
    Option.some.inj ((h.handle epoch i hepoch).symm.trans (h.handle other i hother))
  exact h.apart epoch other ⟨i, hepoch⟩ ⟨i, hother⟩ (by rw [hhandles])

omit [DecidableEq ι] in
/-- The epoch of a live object. -/
theorem exists_epoch (h : Generations handles epochs world) {transport : SharedMemoryTransport}
    (hi : world.transports i = some transport) :
    ∃ epoch, i ∈ epochs.live epoch ∧ handles epoch = transport := by
  obtain ⟨epoch, hmem⟩ := h.alive i (by rw [hi]; rfl)
  exact ⟨epoch, hmem, Option.some.inj ((h.handle epoch i hmem).symm.trans hi)⟩

omit [DecidableEq ι] in
/-- An object that can be constructed is in no epoch. -/
theorem notMem_of_free (h : Generations handles epochs world) (hi : world.transports i = none)
    (epoch : ℕ) : i ∉ epochs.live epoch := by
  intro hmem
  rw [h.handle epoch i hmem] at hi
  cases hi

omit [DecidableEq ι] in
/-- A change inside the segment of one epoch leaves those of the others. -/
theorem stores_other (h : Generations handles epochs world) {epoch other : ℕ}
    {memory : SharedMemory ι} (hne : other ≠ epoch) (hepoch : (epochs.live epoch).Nonempty)
    (hother : (epochs.live other).Nonempty)
    (hframe : ∀ segment, segment ≠ (handles epoch).segment →
      memory.segments.object segment = world.memory.segments.object segment) :
    ∃ storage, memory.Stores (handles other) storage (epochs.live other).card := by
  obtain ⟨storage, hstores⟩ := h.stores other hother
  have hsegment : (handles other).segment ≠ (handles epoch).segment :=
    fun heq => hne (h.apart other epoch hother hepoch heq)
  exact ⟨storage, hstores.of_object_eq (hframe _ hsegment)⟩

omit [DecidableEq ι] in
/-- The segment of the current epoch serves its live objects. -/
theorem serves (h : Generations handles epochs world)
    (hlive : (epochs.live epochs.current).Nonempty) : ∃ storage,
    world.memory.Serves (handles epochs.current) storage (epochs.live epochs.current).card := by
  obtain ⟨storage, hstores⟩ := h.stores epochs.current hlive
  obtain ⟨hsegment, hmutex⟩ := h.bound hlive
  exact ⟨storage, hstores, hsegment, hmutex⟩

/-- A constructor that counts itself in a segment of no other epoch keeps the invariant: the epoch
uses that segment from then on, and used it before if it had live objects. -/
theorem construct_of (h : Generations handles epochs world) (hi : world.transports i = none)
    {transport : SharedMemoryTransport} {memory : SharedMemory ι} {storage : List InternalPacket}
    (hserves : memory.Serves transport storage ((epochs.live epochs.current).card + 1))
    (hsame : (epochs.live epochs.current).Nonempty → transport = handles epochs.current)
    (hother : ∀ epoch, epoch ≠ epochs.current → (epochs.live epoch).Nonempty →
      (handles epoch).segment ≠ transport.segment)
    (hframe : ∀ segment, segment ≠ transport.segment →
      memory.segments.object segment = world.memory.segments.object segment)
    (hcreated : world.memory.segments.created ≤ memory.segments.created)
    (hlt : transport.segment < memory.segments.created) :
    Generations (Function.update handles epochs.current transport) (epochs.next (.construct i))
      ⟨memory, Function.update world.transports i (some transport)⟩ := by
  have hnew : Function.update handles epochs.current transport epochs.current = transport :=
    Function.update_self ..
  have hold : ∀ epoch, epoch ≠ epochs.current →
      Function.update handles epochs.current transport epoch = handles epoch :=
    fun epoch hne => Function.update_of_ne hne ..
  have hlive := epochs.live_next_construct_current i
  have hlive' : ∀ epoch, epoch ≠ epochs.current →
      (epochs.next (.construct i)).live epoch = epochs.live epoch :=
    fun epoch hne => epochs.live_next_construct_of_ne i hne
  refine ⟨?later, ?alive, ?handle, ?stores, ?created, ?apart, ?unbound, ?bound⟩
  case later =>
    intro epoch hepoch
    rw [hlive' epoch (Nat.ne_of_gt hepoch)]
    exact h.later epoch hepoch
  case alive =>
    intro j hj
    by_cases hji : j = i
    · exact ⟨epochs.current, by rw [hlive, hji]; exact Finset.mem_insert_self ..⟩
    · have hj' : (world.transports j).isSome = true := by
        simpa [Function.update_of_ne hji] using hj
      obtain ⟨epoch, hmem⟩ := h.alive j hj'
      by_cases hne : epoch = epochs.current
      · exact ⟨epochs.current, by rw [hlive]; exact Finset.mem_insert_of_mem (hne ▸ hmem)⟩
      · exact ⟨epoch, by rwa [hlive' epoch hne]⟩
  case handle =>
    intro epoch j hj
    by_cases hne : epoch = epochs.current
    · rw [hne, hlive] at hj
      rw [hne, hnew]
      rcases Finset.mem_insert.mp hj with rfl | hmem
      · exact Function.update_self ..
      · have hji : j ≠ i := fun heq => h.notMem_of_free hi _ (heq ▸ hmem)
        rw [hsame ⟨j, hmem⟩]
        exact (Function.update_of_ne hji _ _).trans (h.handle _ j hmem)
    · rw [hlive' epoch hne] at hj
      have hji : j ≠ i := fun heq => h.notMem_of_free hi epoch (heq ▸ hj)
      rw [hold epoch hne]
      exact (Function.update_of_ne hji _ _).trans (h.handle epoch j hj)
  case stores =>
    intro epoch hsome
    by_cases hne : epoch = epochs.current
    · rw [hne, hlive, hnew, Finset.card_insert_of_notMem (h.notMem_of_free hi _)]
      exact ⟨storage, by simpa using hserves.stores⟩
    · rw [hlive' epoch hne] at hsome ⊢
      obtain ⟨packets, hstores⟩ := h.stores epoch hsome
      rw [hold epoch hne]
      exact ⟨packets, hstores.of_object_eq (hframe _ (hother epoch hne hsome))⟩
  case created =>
    intro epoch hsome
    by_cases hne : epoch = epochs.current
    · rw [hne, hnew]
      exact hlt
    · rw [hlive' epoch hne] at hsome
      rw [hold epoch hne]
      exact lt_of_lt_of_le (h.created epoch hsome) hcreated
  case apart =>
    intro epoch other hsome hsome' heq
    by_cases hepoch : epoch = epochs.current
    · by_cases hne : other = epochs.current
      · rw [hepoch, hne]
      · rw [hlive' other hne] at hsome'
        rw [hepoch, hnew, hold other hne] at heq
        exact absurd heq.symm (hother other hne hsome')
    · rw [hlive' epoch hepoch] at hsome
      by_cases hne : other = epochs.current
      · rw [hne, hnew, hold epoch hepoch] at heq
        exact absurd heq (hother epoch hepoch hsome)
      · rw [hlive' other hne] at hsome'
        rw [hold epoch hepoch, hold other hne] at heq
        exact h.apart epoch other hsome hsome' heq
  case unbound =>
    intro hnone
    rw [Epochs.current_next_construct, hlive] at hnone
    exact absurd hnone (Finset.insert_ne_empty _ _)
  case bound =>
    intro _
    rw [Epochs.current_next_construct, hnew]
    exact ⟨hserves.segment, hserves.mutex⟩

/-- **A constructor** creates the segment of the current epoch or attaches to it. -/
theorem construct (h : Generations handles epochs world) (hi : world.transports i = none) :
    ∃ transport memory, world.step (.construct i)
        = some ⟨memory, Function.update world.transports i (some transport)⟩ ∧
      ((epochs.live epochs.current).Nonempty → transport = handles epochs.current) ∧
      Generations (Function.update handles epochs.current transport) (epochs.next (.construct i))
        ⟨memory, Function.update world.transports i (some transport)⟩ := by
  rcases (epochs.live epochs.current).eq_empty_or_nonempty with hempty | hlive
  · obtain ⟨transport, memory, hconstruct, hserves, hsegment, hcreated, hframe⟩ :=
      SharedMemory.construct_of_unbound (h.unbound hempty)
    have hsame : (epochs.live epochs.current).Nonempty → transport = handles epochs.current :=
      fun hsome => absurd hempty hsome.ne_empty
    refine ⟨transport, memory, by rw [step_construct world hi, hconstruct]; rfl, hsame, ?_⟩
    refine h.construct_of hi (by simpa [hempty] using hserves) hsame ?_ hframe (by omega) (by omega)
    -- the segments in use are older than the new one
    intro epoch _ hsome
    have := h.created epoch hsome
    omega
  · obtain ⟨storage, hserves⟩ := h.serves hlive
    refine ⟨handles epochs.current, _, by rw [step_construct world hi, hserves.construct]; rfl,
      fun _ => rfl, ?_⟩
    refine h.construct_of hi (hserves.storeReferenceCount _) (fun _ => rfl) ?_ ?_ le_rfl
      (h.created _ hlive)
    · exact fun epoch hne hsome heq => hne (h.apart epoch _ hsome hlive heq)
    · exact fun segment => hserves.stores.object_storeReferenceCount _

omit [DecidableEq ι] in
/-- Live objects are in an epoch up to the current one. -/
theorem le_current (h : Generations handles epochs world) {epoch : ℕ}
    (hlive : (epochs.live epoch).Nonempty) : epoch ≤ epochs.current := by
  by_contra hlt
  exact absurd (h.later epoch (Nat.not_le.mp hlt)) hlive.ne_empty

/-- What a destructor does: the last object of an epoch removes the names. -/
theorem step_destruct (h : Generations handles epochs world) {epoch : ℕ}
    (hi : i ∈ epochs.live epoch) : ∃ storage,
      world.memory.Stores (handles epoch) storage (epochs.live epoch).card ∧
      world.step (.destruct i) = some ⟨if epochs.live epoch = {i}
        then (world.memory.storeReferenceCount (handles epoch).referenceCount
          ((epochs.live epoch).card + -1)).destroy
        else world.memory.storeReferenceCount (handles epoch).referenceCount
          ((epochs.live epoch).card + -1), Function.update world.transports i none⟩ := by
  obtain ⟨storage, hstores⟩ := h.stores epoch ⟨i, hi⟩
  have hlast : ((epochs.live epoch).card : ℤ) + -1 = 0 ↔ epochs.live epoch = {i} := by
    constructor
    · intro hzero
      obtain ⟨j, hj⟩ := Finset.card_eq_one.mp (show (epochs.live epoch).card = 1 by omega)
      rw [hj] at hi ⊢
      rw [Finset.mem_singleton.mp hi]
    · intro hsingle
      rw [hsingle, Finset.card_singleton]
      rfl
  refine ⟨storage, hstores, ?_⟩
  rw [ShmWorld.step, h.handle epoch i hi, Option.bind_some, hstores.destruct, Option.map_some]
  simp only [hlast]

/-- The last object of an epoch leaves the name unbound. -/
theorem bound_destruct_last (h : Generations handles epochs world) {epoch : ℕ}
    (hi : i ∈ epochs.live epoch) (hlast : epochs.live epoch = {i})
    (hstep : world.step (.destruct i) = some world') :
    world'.memory.segments.bound = none := by
  obtain ⟨storage, -, hdestruct⟩ := h.step_destruct hi
  rw [if_pos hlast] at hdestruct
  obtain rfl := Option.some.inj (hdestruct.symm.trans hstep)
  rfl

/-- Any other object leaves the names alone. -/
theorem names_destruct (h : Generations handles epochs world) {epoch : ℕ}
    (hi : i ∈ epochs.live epoch) (hlast : epochs.live epoch ≠ {i})
    (hstep : world.step (.destruct i) = some world') :
    world'.memory.segments.bound = world.memory.segments.bound ∧
      world'.memory.mutexes.bound = world.memory.mutexes.bound := by
  obtain ⟨storage, -, hdestruct⟩ := h.step_destruct hi
  rw [if_neg hlast] at hdestruct
  obtain rfl := Option.some.inj (hdestruct.symm.trans hstep)
  exact ⟨rfl, rfl⟩

/-- **A timely destructor** keeps the invariant. -/
theorem destruct (h : Generations handles epochs world) {epoch : ℕ} (hi : i ∈ epochs.live epoch)
    (htimely : epochs.Timely (.destruct i)) (hstep : world.step (.destruct i) = some world') :
    Generations handles (epochs.next (.destruct i)) world' := by
  obtain ⟨storage, hstores, hdestruct⟩ := h.step_destruct hi
  have hlast := fun hlast => h.bound_destruct_last hi hlast hstep
  have hnames := fun hlast => h.names_destruct hi hlast hstep
  obtain rfl := Option.some.inj (hdestruct.symm.trans hstep)
  -- the other epochs do not have the object
  have hother : ∀ other, other ≠ epoch → (epochs.live other).erase i = epochs.live other := by
    intro other hne
    exact Finset.erase_eq_of_notMem fun hmem => hne (h.epoch_unique hmem hi)
  have hempty : (epochs.live epoch).erase i = ∅ → epochs.live epoch = {i} := by
    intro herase
    rw [← Finset.insert_erase hi, herase]
    rfl
  have hsome : ∀ other, ((epochs.live other).erase i).Nonempty → (epochs.live other).Nonempty :=
    fun other hother => hother.mono (Finset.erase_subset ..)
  refine ⟨?later, ?alive, ?handle, ?stores, ?created, ?apart, ?unbound, ?bound⟩
  case later =>
    intro other hother
    rw [Epochs.live_next_destruct, h.later other hother]
    rfl
  case alive =>
    intro j hj
    have hji : j ≠ i := by
      rintro rfl
      simp at hj
    have hj' : (world.transports j).isSome = true := by
      simpa [Function.update_of_ne hji] using hj
    obtain ⟨other, hmem⟩ := h.alive j hj'
    exact ⟨other, Finset.mem_erase.mpr ⟨hji, hmem⟩⟩
  case handle =>
    intro other j hj
    obtain ⟨hji, hmem⟩ := Finset.mem_erase.mp hj
    exact (Function.update_of_ne hji _ _).trans (h.handle other j hmem)
  case stores =>
    intro other hlive
    rw [Epochs.live_next_destruct] at hlive ⊢
    by_cases hne : other = epoch
    · -- the count of the epoch goes down with its live objects
      subst hne
      have hmore : epochs.live other ≠ {i} := by
        intro hsingle
        simp [hsingle] at hlive
      have hcard : (((epochs.live other).erase i).card : ℤ) = (epochs.live other).card + -1 := by
        have := Finset.card_erase_add_one hi
        omega
      rw [hcard, if_neg hmore]
      exact ⟨storage, hstores.storeReferenceCount _⟩
    · rw [hother other hne] at hlive ⊢
      refine h.stores_other hne ⟨i, hi⟩ hlive fun segment hsegment => ?_
      split
      · exact hstores.object_storeReferenceCount _ hsegment
      · exact hstores.object_storeReferenceCount _ hsegment
  case created =>
    intro other hlive
    have := h.created other (hsome other hlive)
    split
    · exact this
    · exact this
  case apart =>
    exact fun other other' hlive hlive' => h.apart other other' (hsome _ hlive) (hsome _ hlive')
  case unbound =>
    intro hnone
    rw [Epochs.current_next_destruct, Epochs.live_next_destruct] at hnone
    by_cases hsingle : epochs.live epoch = {i}
    · exact hlast hsingle
    · rw [(hnames hsingle).1]
      by_cases hne : epochs.current = epoch
      · exact absurd (hempty (hne ▸ hnone)) hsingle
      · exact h.unbound (by rwa [hother _ hne] at hnone)
  case bound =>
    intro hlive
    rw [Epochs.current_next_destruct] at hlive ⊢
    have hlive' := hsome _ hlive
    by_cases hsingle : epochs.live epoch = {i}
    · -- the object was the last of an earlier epoch, which the condition excludes
      rw [Epochs.live_next_destruct] at hlive
      rcases Nat.lt_or_eq_of_le (h.le_current ⟨i, hi⟩) with hlt | heq
      · exact absurd (htimely epoch hlt hsingle) hlive'.ne_empty
      · rw [← heq, hsingle] at hlive
        simp at hlive
    · obtain ⟨hsegment, hmutex⟩ := hnames hsingle
      rw [hsegment, hmutex]
      exact h.bound hlive'

omit [DecidableEq ι] in
/-- New packets in the storage of an epoch. -/
theorem store (h : Generations handles epochs world) {epoch : ℕ} (hi : i ∈ epochs.live epoch)
    (value : List InternalPacket) : Generations handles epochs
      ⟨world.memory.storePacketStorage (handles epoch).packetStorage value, world.transports⟩ := by
  obtain ⟨storage, hstores⟩ := h.stores epoch ⟨i, hi⟩
  refine ⟨h.later, h.alive, h.handle, fun other hlive => ?_, h.created, h.apart, h.unbound, h.bound⟩
  by_cases hne : other = epoch
  · subst hne
    exact ⟨value, hstores.storePacketStorage value⟩
  · exact h.stores_other hne ⟨i, hi⟩ hlive fun segment =>
      hstores.object_storePacketStorage value

/-- `Send` and `Receive` of a live object. -/
theorem call (h : Generations handles epochs world) {call : Call ι}
    (hstep : world.step (.call call) = some world') : Generations handles epochs world' := by
  cases call with
  | send i packet =>
    cases hi : world.transports i with
    | none => simp [ShmWorld.step, hi] at hstep
    | some transport =>
      obtain ⟨epoch, hmem, rfl⟩ := h.exists_epoch hi
      obtain ⟨storage, hstores⟩ := h.stores epoch ⟨i, hmem⟩
      rw [ShmWorld.step, hi, Option.bind_some, hstores.send] at hstep
      obtain rfl := Option.some.inj hstep
      exact h.store hmem _
  | receive i =>
    cases hi : world.transports i with
    | none => simp [ShmWorld.step, hi] at hstep
    | some transport =>
      obtain ⟨epoch, hmem, rfl⟩ := h.exists_epoch hi
      obtain ⟨storage, hstores⟩ := h.stores epoch ⟨i, hmem⟩
      rw [ShmWorld.step, hi, Option.bind_some, hstores.receive] at hstep
      obtain rfl := Option.some.inj hstep
      exact h.store hmem _

/-- `Destroy` starts an epoch without objects and leaves the segments in use alone. -/
theorem destroy (h : Generations handles epochs world) :
    Generations handles (epochs.next .destroy) ⟨world.memory.destroy, world.transports⟩ := by
  have hempty : epochs.live (epochs.current + 1) = ∅ := h.later _ (Nat.lt_succ_self _)
  refine ⟨fun epoch hlt => h.later epoch (Nat.lt_of_succ_lt hlt), h.alive, h.handle,
    fun epoch hlive => ?_, h.created, h.apart, fun _ => rfl, fun hlive => ?_⟩
  · obtain ⟨storage, hstores⟩ := h.stores epoch hlive
    exact ⟨storage, hstores.of_object_eq rfl⟩
  · exact absurd hempty hlive.ne_empty

/-- Every operation keeps the invariant, a destructor when it is timely. -/
theorem step (h : Generations handles epochs world) {action : ShmAction ι}
    (htimely : epochs.Timely action) (hstep : world.step action = some world') :
    ∃ handles', Generations handles' (epochs.next action) world' := by
  cases action with
  | construct i =>
    cases hi : world.transports i with
    | some transport => simp [ShmWorld.step, hi] at hstep
    | none =>
      obtain ⟨transport, memory, hconstruct, -, hgenerations⟩ := h.construct hi
      obtain rfl := Option.some.inj (hconstruct.symm.trans hstep)
      exact ⟨_, hgenerations⟩
  | destruct i =>
    cases hi : world.transports i with
    | none => simp [ShmWorld.step, hi] at hstep
    | some transport =>
      obtain ⟨epoch, hmem, -⟩ := h.exists_epoch hi
      exact ⟨handles, h.destruct hmem htimely hstep⟩
  | call call => exact ⟨handles, h.call hstep⟩
  | destroy =>
    obtain rfl := Option.some.inj hstep
    exact ⟨handles, h.destroy⟩

omit [DecidableEq ι] in
/-- An object is attached to the segment of its epoch. -/
theorem attachedTo_iff (h : Generations handles epochs world) {epoch : ℕ}
    (hi : i ∈ epochs.live epoch) {segment : ℕ} :
    world.attachedTo i segment = true ↔ (handles epoch).segment = segment := by
  rw [Lifecycle.attachedTo_eq (h.handle epoch i hi), decide_eq_true_iff]

omit [DecidableEq ι] in
/-- Whoever is attached to a segment is in the epoch that uses it. -/
theorem exists_epoch_of_attachedTo (h : Generations handles epochs world) {segment : ℕ}
    (hattached : world.attachedTo i segment = true) :
    ∃ epoch, i ∈ epochs.live epoch ∧ (handles epoch).segment = segment := by
  obtain ⟨transport, hi, -⟩ := (Option.any_eq_true ..).mp hattached
  obtain ⟨epoch, hmem, -⟩ := h.exists_epoch hi
  exact ⟨epoch, hmem, (h.attachedTo_iff hmem).mp hattached⟩

/-- A destructor removes the segment of its own object, and only when nobody else is attached to it,
exactly if it is timely. -/
theorem removesOwn_iff (h : Generations handles epochs world) (action : ShmAction ι) :
    world.RemovesOwn action ↔ epochs.Timely action := by
  constructor
  · intro hown
    cases action with
    | destruct i =>
      intro epoch hlt hlast
      by_contra hcurrent
      have hi : i ∈ epochs.live epoch := by rw [hlast]; exact Finset.mem_singleton_self i
      have hlive := Finset.nonempty_iff_ne_empty.mpr hcurrent
      obtain ⟨storage, -, hstep⟩ := h.step_destruct hi
      -- the name is taken from the segment of the current epoch
      have hnone := h.bound_destruct_last hi hlast hstep
      obtain ⟨hattached, -⟩ := hown i rfl _ hstep _ (h.bound hlive).1 (by rw [hnone]; simp)
      have hsegment := (h.attachedTo_iff hi).mp hattached
      exact absurd (h.apart epoch _ ⟨i, hi⟩ hlive hsegment) (Nat.ne_of_lt hlt)
    | construct i => trivial
    | call call => trivial
    | destroy => trivial
  · rintro htimely i rfl world' hstep segment hbound hremoved
    cases hi : world.transports i with
    | none => simp [ShmWorld.step, hi] at hstep
    | some transport =>
      obtain ⟨epoch, hmem, -⟩ := h.exists_epoch hi
      have hlast : epochs.live epoch = {i} := by
        by_contra hmore
        exact hremoved ((h.names_destruct hmem hmore hstep).1.trans hbound)
      have hlive : (epochs.live epochs.current).Nonempty := by
        by_contra hempty
        rw [h.unbound (Finset.not_nonempty_iff_eq_empty.mp hempty)] at hbound
        cases hbound
      have hcurrent : epoch = epochs.current := by
        rcases Nat.lt_or_eq_of_le (h.le_current ⟨i, hmem⟩) with hlt | heq
        · exact absurd (htimely epoch hlt hlast) hlive.ne_empty
        · exact heq
      have hsegment : (handles epoch).segment = segment := by
        rw [hcurrent]
        exact Option.some.inj ((h.bound hlive).1.symm.trans hbound)
      refine ⟨(h.attachedTo_iff hmem).mpr hsegment, fun j => ?_⟩
      -- whoever is attached to the segment afterwards is a live object of the same epoch
      have h' := h.destruct hmem htimely hstep
      by_contra hj
      obtain ⟨other, hother, hsame⟩ := h'.exists_epoch_of_attachedTo (by simpa using hj)
      have hold : j ∈ (epochs.live other).erase i := hother
      have heq : other = epoch := h.apart other epoch ⟨j, Finset.mem_of_mem_erase hold⟩ ⟨i, hmem⟩
        (hsame.trans hsegment.symm)
      rw [heq, hlast] at hold
      simp at hold

/-- A constructor attaches to the segment of the current epoch. -/
theorem joinsEpoch (h : Generations handles epochs world) (action : ShmAction ι) :
    world.JoinsEpoch epochs action := by
  rintro i rfl world' hstep j hj
  cases hi : world.transports i with
  | some transport => simp [ShmWorld.step, hi] at hstep
  | none =>
    obtain ⟨transport, memory, hconstruct, hsame, -⟩ := h.construct hi
    obtain rfl := Option.some.inj (hconstruct.symm.trans hstep)
    refine ⟨(handles epochs.current).segment, (h.attachedTo_iff hj).mpr rfl, ?_⟩
    rw [attachedTo, hsame ⟨j, hj⟩]
    simp

end Generations

omit [DecidableEq ι] in
/-- Without objects and without a segment nothing is in use. -/
theorem generations_start {world : ShmWorld ι} (hunbound : world.memory.segments.bound = none)
    (hnone : ∀ i, world.transports i = none) (handles : ℕ → SharedMemoryTransport) :
    Generations handles .start world := by
  have hempty : ∀ epoch, ¬ ((Epochs.start : Epochs ι).live epoch).Nonempty := fun epoch => by
    simp [Epochs.start]
  refine ⟨fun _ _ => rfl, fun i hi => ?_, fun epoch i hi => ?_, fun epoch hlive => ?_,
    fun epoch hlive => ?_, fun epoch _ hlive => ?_, fun _ => hunbound, fun hlive => ?_⟩
  · rw [hnone] at hi
    cases hi
  · exact absurd ⟨i, hi⟩ (hempty epoch)
  · exact absurd hlive (hempty epoch)
  · exact absurd hlive (hempty epoch)
  · exact absurd hlive (hempty epoch)
  · exact absurd hlive (hempty _)

/-- The `release-shared-memory` tool: it calls `Destroy` while it is attached itself. -/
def releaseSharedMemory (i : ι) : List (ShmAction ι) := [.construct i, .destroy, .destruct i]

/-- The tool removes nobody's segment when it goes; only the objects it leaves behind may. -/
theorem timely_releaseSharedMemory {handles : ℕ → SharedMemoryTransport} {epochs : Epochs ι}
    {world : ShmWorld ι} (h : Generations handles epochs world) (i : ι) :
    Transition.Meets (Transition.withHistory step Epochs.next)
      (fun state action => state.2.Timely action) (world, epochs) (releaseSharedMemory i) := by
  refine ⟨trivial, ?_⟩
  rintro ⟨constructed, epochs'⟩ hconstruct
  refine ⟨trivial, ?_⟩
  rintro ⟨destroyed, epochs''⟩ hdestroy
  obtain ⟨-, rfl⟩ := Transition.withHistory_eq_some.mp hconstruct
  obtain ⟨-, rfl⟩ := Transition.withHistory_eq_some.mp hdestroy
  refine ⟨fun epoch _ _ => ?_, fun _ _ => trivial⟩
  -- the epoch that its `Destroy` starts is still empty
  have hnew : epochs.live (epochs.current + 1) = ∅ := h.later _ (Nat.lt_succ_self _)
  have hne : epochs.current + 1 ≠ epochs.current := Nat.succ_ne_self _
  exact (epochs.live_next_construct_of_ne i hne).trans hnew

end ShmWorld

/-- **Removals after a `Destroy`.** From a start without objects and without a segment, in every run
of constructions, destructions, sends, receives and calls of `Destroy`: every destructor removes only
the segment of its own object when nobody is attached to it any more, and every constructor attaches
to the segment of the live objects constructed since the last `Destroy`, exactly if no destructor ends
the last live object constructed between two earlier calls of `Destroy`, or before the first, while an
object constructed since the last one is alive. -/
theorem destructors_remove_own_iff {ι : Type*} [DecidableEq ι] (start : ShmWorld ι)
    (actions : List (ShmAction ι)) (hunbound : start.memory.segments.bound = none)
    (hnone : ∀ i, start.transports i = none) :
    Transition.Meets (Transition.withHistory ShmWorld.step Epochs.next)
        (fun state action => state.1.RemovesOwn action ∧ state.1.JoinsEpoch state.2 action)
        (start, .start) actions ↔
      Transition.Meets (Transition.withHistory ShmWorld.step Epochs.next)
        (fun state action => state.2.Timely action) (start, .start) actions := by
  apply Transition.meets_iff_meets
    (fun state => ∃ handles, ShmWorld.Generations handles state.2 state.1)
  · rintro ⟨world, epochs⟩ action ⟨handles, h⟩
    exact ⟨fun hkept => (h.removesOwn_iff action).mp hkept.1,
      fun htimely => ⟨(h.removesOwn_iff action).mpr htimely, h.joinsEpoch action⟩⟩
  · rintro ⟨world, epochs⟩ action ⟨world', epochs'⟩ ⟨handles, h⟩ htimely hstep
    obtain ⟨hstep, rfl⟩ := Transition.withHistory_eq_some.mp hstep
    exact h.step htimely hstep
  · exact ⟨fun _ => ⟨0, 0, ⟨0, 0⟩, ⟨0, 0⟩⟩, ShmWorld.generations_start hunbound hnone _⟩

/-- The tool runs while the first object is attached; the object constructed next is gone when the
first one goes. -/
theorem destructors_remove_own_iff_nested :
    Transition.Meets (Transition.withHistory ShmWorld.step Epochs.next)
      (fun state action => state.1.RemovesOwn action ∧ state.1.JoinsEpoch state.2 action)
      ((⟨.empty, fun _ => none⟩ : ShmWorld ℕ), .start)
      (.construct 0 :: ShmWorld.releaseSharedMemory 1
        ++ [.construct 2, .destruct 2, .destruct 0]) :=
  (destructors_remove_own_iff ⟨.empty, fun _ => none⟩ _ rfl (fun _ => rfl)).mpr (by decide)

/-- The first object outlives the tool and goes while the next segment is in use: it removes the name
from that segment, and the object constructed then gets a third one. -/
theorem destructor_removes_segment_in_use :
    ∃ world world' world'', Transition.run ShmWorld.step (⟨.empty, fun _ => none⟩ : ShmWorld ℕ)
        (.construct 0 :: ShmWorld.releaseSharedMemory 1 ++ [.construct 2]) = some world ∧
      world.step (.destruct 0) = some world' ∧ ¬ world.RemovesOwn (.destruct 0) ∧
      world'.step (.construct 3) = some world'' ∧
      ¬ world'.JoinsEpoch (List.foldl Epochs.next .start
        (.construct 0 :: ShmWorld.releaseSharedMemory 1 ++ [.construct 2, .destruct 0]))
        (.construct 3) := by
  refine ⟨_, _, _, rfl, rfl, fun hown => ?_, rfl, fun hjoins => ?_⟩
  · -- object 0 is attached to segment 0, and the name is bound to segment 1
    obtain ⟨hattached, -⟩ := hown 0 rfl _ rfl 1 rfl (by decide)
    exact absurd hattached (by decide)
  · obtain ⟨segment, hfirst, hsecond⟩ := hjoins 3 rfl _ rfl 2 (by decide)
    -- object 2 is attached to segment 1, and object 3 to segment 2
    have hone : 1 = segment := of_decide_eq_true hfirst
    subst hone
    exact absurd hsecond (by decide)

end Contra
