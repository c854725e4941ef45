import Contra.Foundation.CheckThenCreate
import Contra.SharedMemorySteps
import Mathlib.Data.Fintype.Card

/-! # Concurrent first attachment

Constructors that run at the same time, on a name without a segment. Each of the two
`FindOrConstruct` functions looks for its object and constructs it if there is none, without the
mutex; `construct` throws if another constructor was faster.

`concurrent_first_attachment` says when this goes well: a run ends with all objects attached to the
same storage and the same count, which is their number, exactly if every `find` that missed was taken
while no other constructor was between its own miss and its `construct`. -/

namespace Contra

open NamedObjects CheckThenCreate

/-! ## The objects under their names -/

namespace SharedMemory

variable {ι : Type*} {memory memory' : SharedMemory ι} {segment : ℕ} {pointer : Pointer}

/-- The storage of the segment under the name. -/
def namedStorage (memory : SharedMemory ι) : Option Pointer :=
  memory.segments.bound.bind memory.findPacketStorage

/-- The count of the segment under the name. -/
def namedCount (memory : SharedMemory ι) : Option Pointer :=
  memory.segments.bound.bind memory.findReferenceCount

/-- The named objects depend on the segments only. -/
theorem named_congr (h : memory'.segments = memory.segments) :
    memory'.namedStorage = memory.namedStorage ∧ memory'.namedCount = memory.namedCount ∧
      memory'.loadReferenceCount = memory.loadReferenceCount := by
  obtain ⟨segments, mutexes⟩ := memory
  obtain ⟨segments', mutexes'⟩ := memory'
  obtain rfl : segments' = segments := h
  exact ⟨rfl, rfl, rfl⟩

/-- Opening the segment opens the one under the name, and constructs nothing in it. -/
theorem openSegment_spec (memory : SharedMemory ι) :
    memory.openSegment.2.segments.bound = some memory.openSegment.1 ∧
      memory.openSegment.2.namedStorage = memory.namedStorage ∧
      memory.openSegment.2.namedCount = memory.namedCount ∧
      (∀ g, memory.segments.bound = some g → memory.openSegment = (g, memory)) := by
  refine ⟨Name.bound_openOrCreate, ?_, ?_, fun g hg => ?_⟩
  · cases hbound : memory.segments.bound with
    | none =>
      rw [openSegment, Name.openOrCreate_of_unbound hbound]
      simp [namedStorage, hbound, findPacketStorage, Segment.fresh, NamedObject.find]
    | some g => rw [openSegment, Name.openOrCreate_of_bound hbound]
  · cases hbound : memory.segments.bound with
    | none =>
      rw [openSegment, Name.openOrCreate_of_unbound hbound]
      simp [namedCount, hbound, findReferenceCount, Segment.fresh, NamedObject.find]
    | some g => rw [openSegment, Name.openOrCreate_of_bound hbound]
  · rw [openSegment, Name.openOrCreate_of_bound hg]

/-- What is under a name, in terms of the segment. -/
theorem namedStorage_of_bound (hbound : memory.segments.bound = some segment) :
    memory.namedStorage = memory.findPacketStorage segment := by
  rw [namedStorage, hbound, Option.bind_some]

theorem namedCount_of_bound (hbound : memory.segments.bound = some segment) :
    memory.namedCount = memory.findReferenceCount segment := by
  rw [namedCount, hbound, Option.bind_some]

/-- Constructing the storage fails if it exists. -/
theorem constructPacketStorage_eq_none (hbound : memory.segments.bound = some segment)
    (h : memory.constructPacketStorage segment = none) : memory.namedStorage.isSome = true := by
  rw [namedStorage_of_bound hbound, findPacketStorage]
  simp only [constructPacketStorage, Option.map_eq_none_iff, NamedObject.construct] at h
  cases hentry : (memory.segments.object segment).packetStorage with
  | none => simp [hentry] at h
  | some object => rfl

/-- Otherwise it adds the storage and nothing else. -/
theorem constructPacketStorage_eq_some (hbound : memory.segments.bound = some segment)
    (h : memory.constructPacketStorage segment = some (pointer, memory')) :
    memory.namedStorage = none ∧ memory'.segments.bound = some segment ∧
      memory'.namedStorage = some pointer ∧ memory'.namedCount = memory.namedCount ∧
      memory'.loadReferenceCount = memory.loadReferenceCount := by
  obtain ⟨object, hobject, hresult⟩ := Option.map_eq_some_iff.mp h
  obtain ⟨rfl, rfl⟩ := Prod.mk.inj hresult
  have hnone : (memory.segments.object segment).packetStorage = none := by
    unfold NamedObject.construct at hobject
    split at hobject
    · cases hobject
    · assumption
  refine ⟨?_, hbound, ?_, ?_, ?_⟩
  · rw [namedStorage_of_bound hbound, findPacketStorage, hnone]
    rfl
  · rw [namedStorage_of_bound (by exact hbound), findPacketStorage, object_setSegment]
    rfl
  · rw [namedCount_of_bound (by exact hbound), namedCount_of_bound hbound, findReferenceCount,
      object_setSegment, findReferenceCount]
  · funext other
    by_cases hsegment : other.segment = segment
    · subst hsegment
      rw [loadReferenceCount, object_setSegment, loadReferenceCount]
    · rw [loadReferenceCount, setSegment, Name.object_set_of_ne hsegment, loadReferenceCount]

/-- Constructing the count fails if it exists. -/
theorem constructReferenceCount_eq_none (hbound : memory.segments.bound = some segment)
    (h : memory.constructReferenceCount segment = none) : memory.namedCount.isSome = true := by
  rw [namedCount_of_bound hbound, findReferenceCount]
  simp only [constructReferenceCount, Option.map_eq_none_iff, NamedObject.construct] at h
  cases hentry : (memory.segments.object segment).referenceCount with
  | none => simp [hentry] at h
  | some object => rfl

/-- Otherwise it adds the count, with value zero, and nothing else. -/
theorem constructReferenceCount_eq_some (hbound : memory.segments.bound = some segment)
    (h : memory.constructReferenceCount segment = some (pointer, memory')) :
    memory.namedCount = none ∧ memory'.segments.bound = some segment ∧
      memory'.namedCount = some pointer ∧ memory'.namedStorage = memory.namedStorage ∧
      memory'.loadReferenceCount pointer = some 0 := by
  obtain ⟨object, hobject, hresult⟩ := Option.map_eq_some_iff.mp h
  obtain ⟨rfl, rfl⟩ := Prod.mk.inj hresult
  have hnone : (memory.segments.object segment).referenceCount = none ∧ object.value = 0 := by
    unfold NamedObject.construct at hobject
    split at hobject
    · cases hobject
    · exact ⟨by assumption, by rw [← Option.some.inj hobject]⟩
  refine ⟨?_, hbound, ?_, ?_, ?_⟩
  · rw [namedCount_of_bound hbound, findReferenceCount, hnone.1]
    rfl
  · rw [namedCount_of_bound (by exact hbound), findReferenceCount, object_setSegment]
    rfl
  · rw [namedStorage_of_bound (by exact hbound), namedStorage_of_bound hbound, findPacketStorage,
      object_setSegment, findPacketStorage]
  · rw [loadReferenceCount, object_setSegment, NamedObject.load_eq_some, ← hnone.2]

/-- Incrementing the count changes its value only. -/
theorem addReferenceCount_spec {change : ℤ} (hnamed : memory.namedCount = some pointer)
    (h : memory.addReferenceCount pointer change = some memory') :
    memory'.segments.bound = memory.segments.bound ∧ memory'.namedStorage = memory.namedStorage ∧
      memory'.namedCount = some pointer ∧
      ∃ count, memory.loadReferenceCount pointer = some count ∧
        memory'.loadReferenceCount pointer = some (count + change) := by
  obtain ⟨segment, hbound, hfind⟩ := Option.bind_eq_some_iff.mp hnamed
  obtain ⟨address, -, rfl⟩ := Option.map_eq_some_iff.mp hfind
  obtain ⟨count, hcount, rfl⟩ := Option.map_eq_some_iff.mp h
  refine ⟨rfl, ?_, ?_, count, hcount, ?_⟩
  · rw [namedStorage_of_bound (by exact hbound), namedStorage_of_bound hbound, findPacketStorage,
      storeReferenceCount, object_setSegment, findPacketStorage]
  · rw [namedCount_of_bound (by exact hbound), findReferenceCount, storeReferenceCount,
      object_setSegment]
    rfl
  · rw [loadReferenceCount, storeReferenceCount, object_setSegment, NamedObject.load_eq_some]

end SharedMemory

/-! ## Where a constructor stands -/

namespace Phase

/-- The segment an object has opened. -/
def segment? : Phase → Option ℕ
  | .openedSegment segment => some segment
  | .openedMutex segment _ => some segment
  | .missedStorage segment _ => some segment
  | .hasStorage segment _ _ => some segment
  | .missedCount segment _ _ => some segment
  | .hasCount transport => some transport.segment
  | .live transport => some transport.segment
  | _ => none

/-- The storage an object points to. -/
def storage? : Phase → Option Pointer
  | .hasStorage _ _ packetStorage => some packetStorage
  | .missedCount _ _ packetStorage => some packetStorage
  | .hasCount transport => some transport.packetStorage
  | .live transport => some transport.packetStorage
  | _ => none

/-- The count an object points to. -/
def count? : Phase → Option Pointer
  | .hasCount transport => some transport.referenceCount
  | .live transport => some transport.referenceCount
  | _ => none

/-- The constructor is done. -/
def isLive : Phase → Bool
  | .live _ => true
  | _ => false

/-- The constructor found no storage and has not constructed it yet. -/
def missesStorage : Phase → Bool
  | .missedStorage _ _ => true
  | _ => false

/-- The constructor found no count and has not constructed it yet. -/
def missesCount : Phase → Bool
  | .missedCount _ _ _ => true
  | _ => false

end Phase

namespace SharedMemory

variable {ι : Type*} (memory : SharedMemory ι)

/-- A constructor looks for the storage in vain. -/
def lacksStorage : Phase → Bool
  | .openedMutex segment _ => (memory.findPacketStorage segment).isNone
  | _ => false

/-- A constructor looks for the count in vain. -/
def lacksCount : Phase → Bool
  | .hasStorage segment _ _ => (memory.findReferenceCount segment).isNone
  | _ => false

end SharedMemory

namespace ShmProcesses

variable {ι : Type*} [DecidableEq ι]

/-- One step of one constructor. -/
def constructorStep (world : ShmProcesses ι) (action : ι × ConstructorStep) :
    Option (ShmProcesses ι) := world.step (action.1, .constructor action.2)

theorem constructorStep_eq_some {world world' : ShmProcesses ι} {i : ι} {action : ConstructorStep}
    (h : world.constructorStep (i, action) = some world') : ∃ phase memory,
      SharedMemory.Constructs world.memory action (world.phase i) phase memory ∧
        world' = ⟨memory, Function.update world.phase i phase⟩ := by
  obtain ⟨phase, memory, hperform, rfl⟩ := step_eq_some.mp h
  exact ⟨phase, memory, SharedMemory.constructs_of_construction hperform, rfl⟩

/-! ## What holds in every run of constructors -/

section Attaching

variable [Fintype ι]

/-- How many objects are constructed. -/
def liveCount (world : ShmProcesses ι) : ℕ :=
  (Finset.univ.filter fun i => (world.phase i).isLive = true).card

/-- All objects are on the segment under the name and point to its named objects, and the count counts
those that are constructed. -/
structure Attaching (world : ShmProcesses ι) : Prop where
  /-- The segment. -/
  segment : ∀ i segment, (world.phase i).segment? = some segment →
    world.memory.segments.bound = some segment
  /-- The storage. -/
  storage : ∀ i pointer, (world.phase i).storage? = some pointer →
    world.memory.namedStorage = some pointer
  /-- The count. -/
  count : ∀ i pointer, (world.phase i).count? = some pointer →
    world.memory.namedCount = some pointer
  /-- The value of the count. -/
  counted : ∀ pointer, world.memory.namedCount = some pointer →
    world.memory.loadReferenceCount pointer = some (world.liveCount : ℤ)

/-- A step of an object that does not become live leaves the number of live objects. -/
theorem liveCount_update {world : ShmProcesses ι} (memory : SharedMemory ι) {i : ι}
    {before phase : Phase} (hi : world.phase i = before) (h : phase.isLive = before.isLive) :
    liveCount ⟨memory, Function.update world.phase i phase⟩ = world.liveCount := by
  rw [liveCount, liveCount]
  congr 1
  ext j
  by_cases hj : j = i
  · subst hj
    simp [h, hi]
  · simp [hj]

/-- An object that becomes live is one more. -/
theorem liveCount_update_live {world : ShmProcesses ι} (memory : SharedMemory ι) {i : ι}
    {before phase : Phase} (hi : world.phase i = before) (hbefore : before.isLive = false)
    (h : phase.isLive = true) :
    liveCount ⟨memory, Function.update world.phase i phase⟩ = world.liveCount + 1 := by
  have hinsert : (Finset.univ.filter fun j => (Function.update world.phase i phase j).isLive = true)
      = insert i (Finset.univ.filter fun j => (world.phase j).isLive = true) := by
    ext j
    by_cases hj : j = i
    · subst hj
      simp [h]
    · simp [hj]
  rw [liveCount, liveCount, hinsert, Finset.card_insert_of_notMem (by simp [hi, hbefore])]

namespace Attaching

variable {world world' : ShmProcesses ι} {i : ι}

/-- A step that keeps the named objects and gives the stepping object only pointers to them. -/
theorem of_step (h : Attaching world) {memory : SharedMemory ι} {phase : Phase}
    (hbound : ∀ segment, world.memory.segments.bound = some segment →
      memory.segments.bound = some segment)
    (hstorage : ∀ pointer, world.memory.namedStorage = some pointer →
      memory.namedStorage = some pointer)
    (hcount : ∀ pointer, world.memory.namedCount = some pointer →
      memory.namedCount = some pointer)
    (hsegmentNew : ∀ segment, phase.segment? = some segment → memory.segments.bound = some segment)
    (hstorageNew : ∀ pointer, phase.storage? = some pointer → memory.namedStorage = some pointer)
    (hcountNew : ∀ pointer, phase.count? = some pointer → memory.namedCount = some pointer)
    (hcounted : ∀ pointer, memory.namedCount = some pointer → memory.loadReferenceCount pointer
      = some (liveCount ⟨memory, Function.update world.phase i phase⟩ : ℤ)) :
    Attaching ⟨memory, Function.update world.phase i phase⟩ := by
  refine ⟨fun j segment hj => ?_, fun j pointer hj => ?_, fun j pointer hj => ?_, hcounted⟩
  · rcases feature_cases hj with ⟨-, hnew⟩ | ⟨-, hold⟩
    · exact hsegmentNew segment hnew
    · exact hbound segment (h.segment j segment hold)
  · rcases feature_cases hj with ⟨-, hnew⟩ | ⟨-, hold⟩
    · exact hstorageNew pointer hnew
    · exact hstorage pointer (h.storage j pointer hold)
  · rcases feature_cases hj with ⟨-, hnew⟩ | ⟨-, hold⟩
    · exact hcountNew pointer hnew
    · exact hcount pointer (h.count j pointer hold)

/-- A step that changes nothing in the segment and makes no object live. -/
theorem of_quiet (h : Attaching world) {memory : SharedMemory ι} {before phase : Phase}
    (hi : world.phase i = before) (hsegments : memory.segments = world.memory.segments)
    (hsegmentNew : ∀ segment, phase.segment? = some segment →
      world.memory.segments.bound = some segment)
    (hstorageNew : ∀ pointer, phase.storage? = some pointer →
      world.memory.namedStorage = some pointer)
    (hcountNew : ∀ pointer, phase.count? = some pointer → world.memory.namedCount = some pointer)
    (hlive : phase.isLive = before.isLive) :
    Attaching ⟨memory, Function.update world.phase i phase⟩ := by
  obtain ⟨hstorage, hcount, hload⟩ := SharedMemory.named_congr hsegments
  apply h.of_step
  · intro segment hbound
    rwa [hsegments]
  · intro pointer hnamed
    rwa [hstorage]
  · intro pointer hnamed
    rwa [hcount]
  · intro segment hnew
    rw [hsegments]
    exact hsegmentNew segment hnew
  · intro pointer hnew
    rw [hstorage]
    exact hstorageNew pointer hnew
  · intro pointer hnew
    rw [hcount]
    exact hcountNew pointer hnew
  · intro pointer hpointer
    rw [hcount] at hpointer
    rw [liveCount_update memory hi hlive, hload]
    exact h.counted pointer hpointer

omit [DecidableEq ι] in
/-- Without a count no object is live. -/
theorem liveCount_eq_zero (h : Attaching world) (hnone : world.memory.namedCount = none) :
    world.liveCount = 0 := by
  rw [liveCount, Finset.card_eq_zero, Finset.filter_eq_empty_iff]
  intro j _ hlive
  have hcount : ∃ pointer, (world.phase j).count? = some pointer := by
    cases hphase : world.phase j with
    | live transport => exact ⟨transport.referenceCount, rfl⟩
    | _ => simp [hphase, Phase.isLive] at hlive
  obtain ⟨pointer, hpointer⟩ := hcount
  rw [h.count j pointer hpointer] at hnone
  cases hnone

/-- Every step of a constructor keeps the invariant. -/
theorem step (h : Attaching world) {action : ι × ConstructorStep}
    (hstep : world.constructorStep action = some world') : Attaching world' := by
  obtain ⟨i, action⟩ := action
  obtain ⟨phase', memory', hconstructs, rfl⟩ := constructorStep_eq_some hstep
  obtain ⟨phase, hi⟩ : ∃ phase, world.phase i = phase := ⟨_, rfl⟩
  rw [hi] at hconstructs
  -- what the object has already
  have hsegment : ∀ g, phase.segment? = some g → world.memory.segments.bound = some g := by
    intro g hg
    exact h.segment i g (by rw [hi, hg])
  have hstorage : ∀ p, phase.storage? = some p → world.memory.namedStorage = some p := by
    intro p hp
    exact h.storage i p (by rw [hi, hp])
  have hcount : ∀ p, phase.count? = some p → world.memory.namedCount = some p := by
    intro p hp
    exact h.count i p (by rw [hi, hp])
  cases hconstructs with
  | openSegment =>
    -- a new segment has no objects, so the named ones are the same in both cases
    obtain ⟨hbound, hstorageSame, hcountSame, hopened⟩ :=
      SharedMemory.openSegment_spec world.memory
    apply h.of_step
    · intro g hg
      rw [hopened g hg]
      exact hg
    · intro p hp
      rw [hstorageSame, hp]
    · intro p hp
      rw [hcountSame, hp]
    · intro g hg
      rw [hbound]
      exact hg
    · intro p hp
      cases hp
    · intro p hp
      cases hp
    · intro p hp
      rw [hcountSame] at hp
      rw [liveCount_update _ hi (by rfl), ← h.counted p hp]
      obtain ⟨g, hg, -⟩ := Option.bind_eq_some_iff.mp hp
      rw [hopened g hg]
  | openMutex g => exact h.of_quiet hi rfl hsegment hstorage hcount rfl
  | foundStorage mutex hfind =>
    refine h.of_quiet hi rfl hsegment ?_ hcount rfl
    intro p hp
    rw [SharedMemory.namedStorage_of_bound (hsegment _ rfl), hfind]
    exact hp
  | missedStorage mutex hfind => exact h.of_quiet hi rfl hsegment hstorage hcount rfl
  | constructedStorage mutex hconstruct =>
    obtain ⟨hnone, hbound, hnew, hsame, hload⟩ :=
      SharedMemory.constructPacketStorage_eq_some (hsegment _ rfl) hconstruct
    apply h.of_step
    · intro g hg
      rw [hbound, ← hsegment _ rfl, hg]
    · intro p hp
      rw [hnone] at hp
      cases hp
    · intro p hp
      rw [hsame, hp]
    · intro g hg
      rw [hbound]
      exact hg
    · intro p hp
      rw [hnew]
      exact hp
    · intro p hp
      cases hp
    · intro p hp
      rw [hsame] at hp
      rw [liveCount_update _ hi (by rfl), hload]
      exact h.counted p hp
  | takenStorage mutex hconstruct =>
    refine h.of_quiet hi rfl ?_ ?_ ?_ rfl
    · intro g hg
      cases hg
    · intro p hp
      cases hp
    · intro p hp
      cases hp
  | foundCount mutex storage hfind =>
    refine h.of_quiet hi rfl hsegment hstorage ?_ rfl
    intro p hp
    rw [SharedMemory.namedCount_of_bound (hsegment _ rfl), hfind]
    exact hp
  | missedCount mutex storage hfind =>
    exact h.of_quiet hi rfl hsegment hstorage hcount rfl
  | constructedCount mutex storage hconstruct =>
    obtain ⟨hnone, hbound, hnew, hsame, hload⟩ :=
      SharedMemory.constructReferenceCount_eq_some (hsegment _ rfl) hconstruct
    apply h.of_step
    · intro g hg
      rw [hbound, ← hsegment _ rfl, hg]
    · intro p hp
      rw [hsame, hp]
    · intro p hp
      rw [hnone] at hp
      cases hp
    · intro g hg
      rw [hbound]
      exact hg
    · intro p hp
      rw [hsame]
      exact hstorage p hp
    · intro p hp
      rw [hnew]
      exact hp
    · intro p hp
      -- nobody was counted while there was no count
      obtain rfl := Option.some.inj (hnew.symm.trans hp)
      rw [liveCount_update _ hi (by rfl), h.liveCount_eq_zero hnone, hload]
      rfl
  | takenCount mutex storage hconstruct =>
    refine h.of_quiet hi rfl ?_ ?_ ?_ rfl
    · intro g hg
      cases hg
    · intro p hp
      cases hp
    · intro p hp
      cases hp
  | increment transport hincrement =>
    have hnamed := hcount transport.referenceCount rfl
    obtain ⟨hbound, hstorageSame, hcountSame, count, hload, hloadNew⟩ :=
      SharedMemory.addReferenceCount_spec hnamed hincrement
    apply h.of_step
    · intro g hg
      rw [hbound, hg]
    · intro p hp
      rw [hstorageSame, hp]
    · intro p hp
      rw [hcountSame, ← hnamed, hp]
    · intro g hg
      rw [hbound]
      exact hsegment g hg
    · intro p hp
      rw [hstorageSame]
      exact hstorage p hp
    · intro p hp
      rw [hcountSame]
      exact hp
    · intro p hp
      -- one more is counted and one more is live
      obtain rfl := Option.some.inj (hcountSame.symm.trans hp)
      rw [h.counted _ hnamed] at hload
      rw [liveCount_update_live _ hi rfl (by rfl), hloadNew, ← Option.some.inj hload]
      rfl

end Attaching

end Attaching

/-! ## The two races -/

/-- The race for a named object, of constructors some of which come behind a miss of it. -/
def race (named : SharedMemory ι → Option Pointer) (misses : Phase → Bool) (world : ShmProcesses ι) :
    State ι := .ofPhases (named world.memory).isSome misses world.phase

/-- The race for the storage. -/
abbrev storageRace (world : ShmProcesses ι) : State ι :=
  world.race SharedMemory.namedStorage Phase.missesStorage

/-- The race for the count. -/
abbrev countRace (world : ShmProcesses ι) : State ι :=
  world.race SharedMemory.namedCount Phase.missesCount

/-- A `find` that misses is taken while no other constructor is between its own miss of the same object
and its `construct`. -/
def LoneMiss (world : ShmProcesses ι) (action : ι × ConstructorStep) : Prop :=
  (action.2 = .findPacketStorage → world.memory.lacksStorage (world.phase action.1) = true →
      ∀ j, (world.phase j).missesStorage = false) ∧
    (action.2 = .findReferenceCount → world.memory.lacksCount (world.phase action.1) = true →
      ∀ j, (world.phase j).missesCount = false)

instance [Fintype ι] (world : ShmProcesses ι) (action : ι × ConstructorStep) :
    Decidable (LoneMiss world action) :=
  inferInstanceAs (Decidable ((_ → _ → ∀ _, _) ∧ (_ → _ → ∀ _, _)))

/-- Both races are off and no constructor has failed. -/
structure Orderly (world : ShmProcesses ι) : Prop where
  /-- The storage. -/
  storage : (storageRace world).Lone
  /-- The count. -/
  count : (countRace world).Lone
  /-- No exception. -/
  sound : ∀ i, world.phase i ≠ .failed

section Races

variable {world world' : ShmProcesses ι} {memory : SharedMemory ι} {i : ι} {before phase : Phase}

section Race

variable {named : SharedMemory ι → Option Pointer} {misses : Phase → Bool}

omit [DecidableEq ι] in
@[simp] theorem present_race : (world.race named misses).present = (named world.memory).isSome := rfl

omit [DecidableEq ι] in
@[simp] theorem missed_race : (world.race named misses).missed i = misses (world.phase i) := rfl

/-- A step outside the race. -/
theorem race_update (hi : world.phase i = before) (h : named memory = named world.memory)
    (hphase : misses phase = misses before) :
    race named misses ⟨memory, Function.update world.phase i phase⟩ = world.race named misses := by
  rw [race, h]
  exact State.ofPhases_update (by rw [hi, hphase])

/-- A miss of the object. -/
theorem race_miss (h : named memory = named world.memory) (hphase : misses phase = true) :
    race named misses ⟨memory, Function.update world.phase i phase⟩
      = (world.race named misses).miss i := by
  rw [race, h]
  exact State.ofPhases_miss hphase

/-- A construction of the object. -/
theorem race_create (h : (named memory).isSome = true) (hphase : misses phase = false) :
    race named misses ⟨memory, Function.update world.phase i phase⟩
      = (world.race named misses).create i := by
  rw [race, h]
  exact State.ofPhases_create hphase

end Race

omit [DecidableEq ι] in
theorem orderly_iff : Orderly world ↔
    (storageRace world).Lone ∧ (countRace world).Lone ∧ ∀ j, world.phase j ≠ .failed := by
  constructor
  · rintro ⟨hstorage, hcount, hsound⟩
    exact ⟨hstorage, hcount, hsound⟩
  · rintro ⟨hstorage, hcount, hsound⟩
    exact ⟨hstorage, hcount, hsound⟩

/-- A step that throws no exception is orderly if both races are off after it. -/
theorem orderly_update_iff {storage count : State ι}
    (hstorage : storageRace ⟨memory, Function.update world.phase i phase⟩ = storage)
    (hcount : countRace ⟨memory, Function.update world.phase i phase⟩ = count)
    (hi : world.phase i ≠ .failed) (hphase : phase ≠ .failed) :
    Orderly ⟨memory, Function.update world.phase i phase⟩ ↔
      storage.Lone ∧ count.Lone ∧ ∀ j, world.phase j ≠ .failed := by
  have hsound : (∀ j, Function.update world.phase i phase j ≠ .failed) ↔
      ∀ j, world.phase j ≠ .failed := by
    apply forall_congr'
    intro j
    by_cases hj : j = i
    · subst hj
      rw [Function.update_self]
      exact iff_of_true hphase hi
    · rw [Function.update_of_ne hj]
  rw [orderly_iff, hstorage, hcount, hsound]

/-- A constructor that throws ends an orderly run. -/
theorem not_orderly_of_failed : ¬ Orderly ⟨memory, Function.update world.phase i .failed⟩ :=
  fun h => h.sound i (by simp)

/-- **One step.** An orderly world stays orderly exactly if the step meets the condition, and never
becomes orderly again. -/
theorem orderly_step_iff [Fintype ι] (h : Attaching world) {action : ι × ConstructorStep}
    (hstep : world.constructorStep action = some world') :
    Orderly world' ↔ Orderly world ∧ LoneMiss world action := by
  obtain ⟨i, action⟩ := action
  obtain ⟨phase', memory', hconstructs, rfl⟩ := constructorStep_eq_some hstep
  obtain ⟨phase, hi⟩ : ∃ phase, world.phase i = phase := ⟨_, rfl⟩
  rw [hi] at hconstructs
  have hsegment : ∀ g, phase.segment? = some g → world.memory.segments.bound = some g := by
    intro g hg
    exact h.segment i g (by rw [hi, hg])
  cases hconstructs with
  | openSegment =>
    obtain ⟨-, hstorage, hcount, -⟩ := SharedMemory.openSegment_spec world.memory
    rw [orderly_update_iff (race_update hi hstorage (by rfl))
      (race_update hi hcount (by rfl)) (by simp [hi]) (by simp), ← orderly_iff]
    simp [LoneMiss]
  | openMutex g =>
    obtain ⟨hstorage, hcount, -⟩ := SharedMemory.named_congr
      (show world.memory.openMutex.2.segments = world.memory.segments from rfl)
    rw [orderly_update_iff (race_update hi hstorage (by rfl))
      (race_update hi hcount (by rfl)) (by simp [hi]) (by simp), ← orderly_iff]
    simp [LoneMiss]
  | foundStorage mutex hfind =>
    rw [orderly_update_iff (race_update hi rfl (by rfl))
      (race_update hi rfl (by rfl)) (by simp [hi]) (by simp), ← orderly_iff]
    simp [LoneMiss, hi, SharedMemory.lacksStorage, hfind]
  | missedStorage mutex hfind =>
    -- the condition is about this step: nobody else may have missed the storage
    have hcondition : LoneMiss world (i, .findPacketStorage) ↔
        ∀ j, (storageRace world).missed j = false := by
      simp [LoneMiss, hi, SharedMemory.lacksStorage, hfind]
    have hpresent : (storageRace world).present = false := by
      rw [present_race, SharedMemory.namedStorage_of_bound (hsegment _ rfl), hfind]
      rfl
    have hmissed : (storageRace world).missed i = false := by
      simp [hi, Phase.missesStorage]
    have hlone : (∀ j, (storageRace world).missed j = false) → (storageRace world).Lone :=
      State.lone_of_forall_not_missed
    rw [orderly_update_iff (race_miss rfl (by rfl)) (race_update hi rfl (by rfl))
      (by simp [hi]) (by simp), State.lone_miss_iff hpresent hmissed, orderly_iff, hcondition]
    tauto
  | constructedStorage mutex hconstruct =>
    obtain ⟨hnone, -, hnew, hsame, -⟩ :=
      SharedMemory.constructPacketStorage_eq_some (hsegment _ rfl) hconstruct
    have hpresent : (storageRace world).present = false := by
      rw [present_race, hnone]
      rfl
    have hmissed : (storageRace world).missed i = true := by
      simp [hi, Phase.missesStorage]
    rw [orderly_update_iff (race_create (by rw [hnew]; rfl) rfl)
      (race_update hi hsame (by rfl)) (by simp [hi]) (by simp),
      State.lone_create_iff hpresent hmissed, ← orderly_iff]
    simp [LoneMiss]
  | takenStorage mutex hconstruct =>
    -- who finds the name taken was not the only one to miss
    have hpresent := SharedMemory.constructPacketStorage_eq_none (hsegment _ rfl) hconstruct
    have hmissed : (storageRace world).missed i = true := by
      simp [hi, Phase.missesStorage]
    apply iff_of_false not_orderly_of_failed
    rintro ⟨horderly, -⟩
    exact State.not_lone hmissed hpresent horderly.storage
  | foundCount mutex storage hfind =>
    rw [orderly_update_iff (race_update hi rfl (by rfl))
      (race_update hi rfl (by rfl)) (by simp [hi]) (by simp), ← orderly_iff]
    simp [LoneMiss, hi, SharedMemory.lacksCount, hfind]
  | missedCount mutex storage hfind =>
    have hcondition : LoneMiss world (i, .findReferenceCount) ↔
        ∀ j, (countRace world).missed j = false := by
      simp [LoneMiss, hi, SharedMemory.lacksCount, hfind]
    have hpresent : (countRace world).present = false := by
      rw [present_race, SharedMemory.namedCount_of_bound (hsegment _ rfl), hfind]
      rfl
    have hmissed : (countRace world).missed i = false := by
      simp [hi, Phase.missesCount]
    have hlone : (∀ j, (countRace world).missed j = false) → (countRace world).Lone :=
      State.lone_of_forall_not_missed
    rw [orderly_update_iff (race_update hi rfl (by rfl)) (race_miss rfl (by rfl))
      (by simp [hi]) (by simp), State.lone_miss_iff hpresent hmissed, orderly_iff, hcondition]
    tauto
  | constructedCount mutex storage hconstruct =>
    obtain ⟨hnone, -, hnew, hsame, -⟩ :=
      SharedMemory.constructReferenceCount_eq_some (hsegment _ rfl) hconstruct
    have hpresent : (countRace world).present = false := by
      rw [present_race, hnone]
      rfl
    have hmissed : (countRace world).missed i = true := by
      simp [hi, Phase.missesCount]
    rw [orderly_update_iff (race_update hi hsame (by rfl))
      (race_create (by rw [hnew]; rfl) rfl) (by simp [hi]) (by simp),
      State.lone_create_iff hpresent hmissed, ← orderly_iff]
    simp [LoneMiss]
  | takenCount mutex storage hconstruct =>
    have hpresent := SharedMemory.constructReferenceCount_eq_none (hsegment _ rfl) hconstruct
    have hmissed : (countRace world).missed i = true := by
      simp [hi, Phase.missesCount]
    apply iff_of_false not_orderly_of_failed
    rintro ⟨horderly, -⟩
    exact State.not_lone hmissed hpresent horderly.count
  | increment transport hincrement =>
    have hnamed := h.count i transport.referenceCount (by rw [hi]; rfl)
    obtain ⟨-, hstorage, hcount, -⟩ := SharedMemory.addReferenceCount_spec hnamed hincrement
    rw [orderly_update_iff (race_update hi hstorage (by rfl))
      (race_update hi (by rw [hcount, hnamed]) (by rfl)) (by simp [hi]) (by simp),
      ← orderly_iff]
    simp [LoneMiss]

end Races

/-! ## Whole runs -/

section Runs

variable [Fintype ι] {start world : ShmProcesses ι} {actions : List (ι × ConstructorStep)}

omit [DecidableEq ι] in
/-- Before the first constructor there is nothing to be attached to. -/
theorem attaching_of_absent (habsent : ∀ i, start.phase i = .absent)
    (hunbound : start.memory.segments.bound = none) : Attaching start := by
  refine ⟨?_, ?_, ?_, fun pointer hpointer => ?_⟩
  · simp [habsent, Phase.segment?]
  · simp [habsent, Phase.storage?]
  · simp [habsent, Phase.count?]
  · rw [SharedMemory.namedCount, hunbound] at hpointer
    cases hpointer

omit [DecidableEq ι] [Fintype ι] in
/-- In a world where nobody is between a miss and its `construct`, only a failure is not orderly. -/
theorem orderly_iff_of_ended (hended : ∀ i, world.phase i = .absent ∨
      (∃ transport, world.phase i = .live transport) ∨ world.phase i = .failed) :
    Orderly world ↔ ∀ i, world.phase i ≠ .failed := by
  constructor
  · exact Orderly.sound
  · intro hsound
    have hquiet : ∀ i, (world.phase i).missesStorage = false ∧
        (world.phase i).missesCount = false := by
      intro i
      rcases hended i with h | ⟨transport, h⟩ | h <;> rw [h] <;> exact ⟨rfl, rfl⟩
    exact ⟨State.lone_of_forall_not_missed fun i => (hquiet i).1,
      State.lone_of_forall_not_missed fun i => (hquiet i).2, hsound⟩

/-- **Runs.** The world reached is orderly exactly if every miss of the run was alone. -/
theorem orderly_iff_meets (habsent : ∀ i, start.phase i = .absent)
    (hunbound : start.memory.segments.bound = none)
    (hrun : Transition.run constructorStep start actions = some world) :
    Orderly world ↔ Transition.Meets constructorStep LoneMiss start actions := by
  have hstart : Orderly start := by
    apply (orderly_iff_of_ended fun i => Or.inl (habsent i)).mpr
    intro i
    simp [habsent i]
  rw [Transition.good_iff_meets (fun s action s' h hstep => Attaching.step h hstep)
    (fun s action s' h hstep => orderly_step_iff h hstep) (attaching_of_absent habsent hunbound) hrun]
  exact and_iff_right hstart

/-- What a first attachment is to end in: no constructor throws, and when all are done, all objects
point to the same storage and the same count, and the count is the number of objects. -/
def Attached (world : ShmProcesses ι) : Prop :=
  (∀ i, world.phase i ≠ .failed) ∧
    ((∀ i, ∃ transport, world.phase i = .live transport) → ∀ i j first second,
      world.phase i = .live first → world.phase j = .live second →
        first.packetStorage = second.packetStorage ∧ first.referenceCount = second.referenceCount ∧
          world.memory.loadReferenceCount first.referenceCount = some (Fintype.card ι : ℤ))

omit [DecidableEq ι] in
/-- Only an exception can go wrong: objects that are done share the storage and a right count. -/
theorem attached_iff (h : Attaching world) : Attached world ↔ ∀ i, world.phase i ≠ .failed := by
  refine ⟨And.left, fun hsound => ⟨hsound, fun hlive i j first second hi hj => ?_⟩⟩
  have hstorage := h.storage i first.packetStorage (by rw [hi]; rfl)
  have hstorage' := h.storage j second.packetStorage (by rw [hj]; rfl)
  have hcount := h.count i first.referenceCount (by rw [hi]; rfl)
  have hcount' := h.count j second.referenceCount (by rw [hj]; rfl)
  -- all are live, so the count counts them all
  have hall : world.liveCount = Fintype.card ι := by
    rw [liveCount, ← Finset.card_univ, Finset.filter_true_of_mem]
    intro k _
    obtain ⟨transport, hk⟩ := hlive k
    rw [hk]
    rfl
  refine ⟨?_, ?_, ?_⟩
  · exact Option.some.inj (hstorage.symm.trans hstorage')
  · exact Option.some.inj (hcount.symm.trans hcount')
  · rw [h.counted first.referenceCount hcount, hall]

end Runs

end ShmProcesses

/-- **Concurrent first attachment.** Any number of constructors with one name, starting without a
segment, in any order of their steps. If every `find` that misses is taken while no other constructor
is between its own miss of the same object and its `construct`, no constructor throws and all end up
with the same storage and a count of their number; and a run in which all constructors have ended ends
so only then. -/
theorem concurrent_first_attachment {ι : Type*} [Fintype ι] [DecidableEq ι]
    (start world : ShmProcesses ι) (actions : List (ι × ConstructorStep))
    (habsent : ∀ i, start.phase i = .absent) (hunbound : start.memory.segments.bound = none)
    (hrun : Transition.run ShmProcesses.constructorStep start actions = some world) :
    (Transition.Meets ShmProcesses.constructorStep ShmProcesses.LoneMiss start actions →
        world.Attached) ∧
      ((∀ i, (∃ transport, world.phase i = .live transport) ∨ world.phase i = .failed) →
        world.Attached →
          Transition.Meets ShmProcesses.constructorStep ShmProcesses.LoneMiss start actions) := by
  have hattaching : world.Attaching :=
    Transition.invariant ShmProcesses.Attaching (ShmProcesses.attaching_of_absent habsent hunbound)
      (fun s action s' h hstep => h.step hstep) hrun
  have hmeets := ShmProcesses.orderly_iff_meets habsent hunbound hrun
  constructor
  · intro h
    exact (ShmProcesses.attached_iff hattaching).mpr (hmeets.mpr h).sound
  · intro hended hattached
    apply hmeets.mp
    exact (ShmProcesses.orderly_iff_of_ended fun i => Or.inr (hended i)).mpr hattached.1

/-- The steps of two constructors on an empty memory: the second is done with the storage before the
first looks for it, and looks for the count before the first does. -/
def staggered : List (Bool × ConstructorStep) :=
  [(false, .openSegment), (true, .openSegment), (true, .openMutex), (true, .findPacketStorage),
    (true, .constructPacketStorage), (false, .openMutex), (false, .findPacketStorage),
    (true, .findReferenceCount), (true, .constructReferenceCount), (false, .findReferenceCount),
    (false, .increment), (true, .increment)]

/-- Two constructors at the same time whose misses do not overlap. -/
theorem concurrent_first_attachment_staggered :
    ∃ world, Transition.run ShmProcesses.constructorStep
        (⟨.empty, fun _ => .absent⟩ : ShmProcesses Bool) staggered = some world ∧
      (∀ i, ∃ transport, world.phase i = .live transport) ∧ world.Attached ∧
      Transition.Meets ShmProcesses.constructorStep ShmProcesses.LoneMiss
        (⟨.empty, fun _ => .absent⟩ : ShmProcesses Bool) staggered := by
  have hmeets : Transition.Meets ShmProcesses.constructorStep ShmProcesses.LoneMiss
      (⟨.empty, fun _ => .absent⟩ : ShmProcesses Bool) staggered := by decide
  refine ⟨_, rfl, ?_, ?_, hmeets⟩
  · intro i
    cases i <;> exact ⟨_, rfl⟩
  · exact (concurrent_first_attachment (⟨.empty, fun _ => .absent⟩ : ShmProcesses Bool) _ staggered
      (fun _ => rfl) rfl rfl).1 hmeets

/-- Both constructors look for the storage before either constructs it: the slower one throws. -/
theorem concurrent_first_attachment_throws :
    ∃ world, Transition.run ShmProcesses.constructorStep
        (⟨.empty, fun _ => .absent⟩ : ShmProcesses Bool)
        [(false, .openSegment), (true, .openSegment), (false, .openMutex), (true, .openMutex),
          (false, .findPacketStorage), (true, .findPacketStorage), (false, .constructPacketStorage),
          (true, .constructPacketStorage)] = some world ∧ world.phase true = .failed :=
  ⟨_, rfl, rfl⟩

end Contra
