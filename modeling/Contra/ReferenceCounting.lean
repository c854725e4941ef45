import Contra.MutualExclusion
import Contra.Foundation.Tally

/-! # The reference count

`++(*reference_count_)` and `--(*reference_count_)` on a plain integer in shared memory: a load and a
store, with the steps of other objects in between. Nothing protects them, not even the mutex, so a store
may overwrite a count that has changed since it was loaded.

`reference_count_accurate_iff` says when the count counts: it is the number of the objects that are
counted, in every state of a run, exactly if every store finds the value that was loaded for it. Such runs
are those of the system in which counting is one step. -/

namespace Contra

open NamedObjects

/-! ## The system -/

namespace Phase

/-- The `++` or `--` an object is at: the count, what is added to it, and where the object is
afterwards. -/
def counting? : Phase → Option (Pointer × ℤ × Phase)
  | .hasCount transport => some (transport.referenceCount, 1, .live transport)
  | .live transport => some (transport.referenceCount, -1, .decremented transport)
  | _ => none

/-- The count that an object is counted in. -/
def counted? : Phase → Option Pointer
  | .live transport => some transport.referenceCount
  | .locked transport _ => some transport.referenceCount
  | _ => none

/-- The count that an object points to. -/
def referenceCount? : Phase → Option Pointer
  | .hasCount transport => some transport.referenceCount
  | .live transport => some transport.referenceCount
  | .locked transport _ => some transport.referenceCount
  | .decremented transport => some transport.referenceCount
  | _ => none

end Phase

/-- A step of an object. -/
inductive CountStep where
  /-- A step that does not change a count. -/
  | process (action : ProcessStep)
  /-- The count is loaded, to be changed. -/
  | load
  /-- The changed count is stored. -/
  | store
  deriving DecidableEq

/-- The objects, and the counts they have loaded. -/
structure ShmCounting (ι : Type*) where
  /-- The memory and where every object is. -/
  processes : ShmProcesses ι
  /-- The count that an object has loaded and is to change. -/
  loaded : ι → Option ℤ

namespace ShmCounting

variable {ι : Type*} [DecidableEq ι]

/-- One step of one object. -/
def step (world : ShmCounting ι) : ι × CountStep → Option (ShmCounting ι)
  | (i, .process action) =>
    -- the two steps that change a count are a load and a store here
    if world.loaded i = none ∧ action ≠ .constructor .increment ∧ action ≠ .decrement then
      (world.processes.step (i, action)).map fun processes => { world with processes := processes }
    else none
  | (i, .load) =>
    if world.loaded i = none then
      (world.processes.phase i).counting?.bind fun (pointer, _, _) =>
        (world.processes.memory.loadReferenceCount pointer).map fun count =>
          { world with loaded := Function.update world.loaded i (some count) }
    else none
  | (i, .store) =>
    (world.processes.phase i).counting?.bind fun (pointer, change, phase) =>
      (world.loaded i).map fun count =>
        ⟨⟨world.processes.memory.storeReferenceCount pointer (count + change),
            Function.update world.processes.phase i phase⟩,
          Function.update world.loaded i none⟩

omit [DecidableEq ι] in
/-- Nobody is attached. -/
def start (memory : SharedMemory ι) : ShmCounting ι := ⟨⟨memory, fun _ => .absent⟩, fun _ => none⟩

omit [DecidableEq ι] in
/-- A store finds the count that was loaded for it. -/
def Fresh (world : ShmCounting ι) (action : ι × CountStep) : Prop :=
  action.2 = .store → ∀ next ∈ (world.processes.phase action.1).counting?,
    ∀ count ∈ world.loaded action.1,
      world.processes.memory.loadReferenceCount next.1 = some count

instance (world : ShmCounting ι) (action : ι × CountStep) : Decidable (world.Fresh action) :=
  inferInstanceAs (Decidable (_ → ∀ next ∈ _, ∀ count ∈ _, _))

omit [DecidableEq ι] in
/-- The step of the system in which counting is one step. -/
def effect (world : ShmCounting ι) : ι × CountStep → List (ι × ProcessStep)
  | (i, .process action) => [(i, action)]
  | (_, .load) => []
  | (i, .store) =>
    match world.processes.phase i with
    | .hasCount _ => [(i, .constructor .increment)]
    | _ => [(i, .decrement)]

end ShmCounting

namespace ShmProcesses

variable {ι : Type*} [Fintype ι]

/-- How many objects are counted in a segment. -/
def countedIn (world : ShmProcesses ι) (segment : ℕ) : ℕ :=
  Tally.count (fun i => (world.phase i).counted?.map Pointer.segment) segment

/-- Every count is the number of the objects that are counted. -/
def Accurate (world : ShmProcesses ι) : Prop :=
  ∀ segment object, segment < world.memory.segments.created →
    (world.memory.segments.object segment).referenceCount = some object →
      object.value = (world.countedIn segment : ℤ)

end ShmProcesses

/-! ## What the other steps do to the counts -/

/-- The counts are as before, a count of zero may be constructed where there was none, and in new
segments there is none. -/
structure CountFrame {ι : Type*} (memory memory' : SharedMemory ι) : Prop where
  /-- No segment disappears. -/
  created : memory.segments.created ≤ memory'.segments.created
  /-- The segments there were have the counts they had, or a new one. -/
  old : ∀ segment, segment < memory.segments.created →
    (memory'.segments.object segment).referenceCount
        = (memory.segments.object segment).referenceCount ∨
      ((memory.segments.object segment).referenceCount = none ∧ ∃ address,
        (memory'.segments.object segment).referenceCount = some ⟨address, 0⟩)
  /-- The others have none. -/
  new : ∀ segment, memory.segments.created ≤ segment → segment < memory'.segments.created →
    (memory'.segments.object segment).referenceCount = none

namespace CountFrame

variable {ι : Type*} {memory memory' : SharedMemory ι} {segment : ℕ} {pointer : Pointer}

/-- The segments have the same counts. -/
theorem of_referenceCount (hcreated : memory'.segments.created = memory.segments.created)
    (hobject : ∀ segment, (memory'.segments.object segment).referenceCount
      = (memory.segments.object segment).referenceCount) : CountFrame memory memory' where
  created := hcreated.ge
  old segment _ := Or.inl (hobject segment)
  new segment hle hlt := by
    rw [hcreated] at hlt
    exact absurd hlt (Nat.not_lt.mpr hle)

/-- A segment gets new content with the same count. -/
theorem of_setSegment {content : Segment}
    (h : content.referenceCount = (memory.segments.object segment).referenceCount) :
    CountFrame memory (memory.setSegment segment content) := by
  refine of_referenceCount rfl fun other => ?_
  by_cases hother : other = segment
  · rw [hother, SharedMemory.object_setSegment, h]
  · rw [SharedMemory.object_setSegment_of_ne _ hother]

theorem of_openSegment (memory : SharedMemory ι) : CountFrame memory memory.openSegment.2 := by
  refine ⟨Name.created_le_openOrCreate, fun segment hlt => Or.inl ?_, fun segment hle hlt => ?_⟩
  · exact congrArg Segment.referenceCount (Name.object_openOrCreate hlt)
  · cases hbound : memory.segments.bound with
    | some bound =>
      rw [SharedMemory.openSegment, Name.openOrCreate_of_bound hbound] at hlt
      exact absurd hlt (Nat.not_lt.mpr hle)
    | none =>
      -- the only new segment is the one that was created
      rw [SharedMemory.openSegment, Name.openOrCreate_of_unbound hbound] at hlt ⊢
      obtain rfl : segment = memory.segments.created :=
        le_antisymm (Nat.le_of_lt_succ hlt) hle
      simp [Segment.fresh]

theorem of_constructPacketStorage
    (h : memory.constructPacketStorage segment = some (pointer, memory')) :
    CountFrame memory memory' := by
  obtain ⟨object, -, hresult⟩ := Option.map_eq_some_iff.mp h
  obtain ⟨-, rfl⟩ := Prod.mk.inj hresult
  exact of_setSegment rfl

theorem of_storePacketStorage (value : List InternalPacket) :
    CountFrame memory (memory.storePacketStorage pointer value) := of_setSegment rfl

/-- A count is constructed where there is none. -/
theorem of_constructReferenceCount
    (h : memory.constructReferenceCount segment = some (pointer, memory')) :
    CountFrame memory memory' ∧ pointer.segment = segment ∧
      memory'.loadReferenceCount pointer = some 0 := by
  obtain ⟨object, hobject, hresult⟩ := Option.map_eq_some_iff.mp h
  obtain ⟨rfl, rfl⟩ := Prod.mk.inj hresult
  obtain ⟨hnone, rfl⟩ : (memory.segments.object segment).referenceCount = none ∧
      object = ⟨(memory.segments.object segment).top, 0⟩ := by
    unfold NamedObject.construct at hobject
    split at hobject
    · cases hobject
    · exact ⟨by assumption, (Option.some.inj hobject).symm⟩
  refine ⟨⟨le_rfl, fun other _ => ?_, fun other hle hlt => ?_⟩, rfl, ?_⟩
  · by_cases hother : other = segment
    · subst hother
      exact Or.inr ⟨hnone, _, by rw [SharedMemory.object_setSegment]⟩
    · exact Or.inl (by rw [SharedMemory.object_setSegment_of_ne _ hother])
  · exact absurd hlt (Nat.not_lt.mpr hle)
  · rw [SharedMemory.loadReferenceCount, SharedMemory.object_setSegment, NamedObject.load_eq_some]

/-- A count that is there stays what it is. -/
theorem load (h : CountFrame memory memory') (hlt : pointer.segment < memory.segments.created)
    {count : ℤ} (hload : memory.loadReferenceCount pointer = some count) :
    memory'.loadReferenceCount pointer = some count := by
  have hobject := NamedObject.load_eq_some.mp hload
  rcases h.old pointer.segment hlt with hsame | ⟨hnone, -⟩
  · rw [SharedMemory.loadReferenceCount, hsame]
    exact hload
  · rw [hobject] at hnone
    cases hnone

end CountFrame

namespace Phase

/-- The segment that a constructor works on. -/
def constructing? : Phase → Option ℕ
  | .openedSegment segment => some segment
  | .openedMutex segment _ => some segment
  | .missedStorage segment _ => some segment
  | .hasStorage segment _ _ => some segment
  | .missedCount segment _ _ => some segment
  | _ => none

end Phase

/-- What a step does that changes no count. -/
structure CountKept {ι : Type*} (memory memory' : SharedMemory ι) (phase phase' : Phase) : Prop where
  /-- The counts. -/
  frame : CountFrame memory memory'
  /-- Whether and where the object is counted. -/
  counted : phase'.counted? = phase.counted?
  /-- Its pointer to a count is the one it had, or leads to a count of its segment. -/
  pointer : ∀ pointer, phase'.referenceCount? = some pointer →
    phase.referenceCount? = some pointer ∨ (phase.constructing? = some pointer.segment ∧
      ∃ count, memory'.loadReferenceCount pointer = some count)
  /-- The segment it works on is the one it worked on, or the one it opened. -/
  segment : ∀ segment, phase'.constructing? = some segment →
    phase.constructing? = some segment ∨ memory.openSegment = (segment, memory')
  /-- The segment under the name is the one that was, or the one it opened, or none. -/
  bound : ∀ segment, memory'.segments.bound = some segment →
    memory.segments.bound = some segment ∨ memory.openSegment = (segment, memory')

namespace SharedMemory

variable {ι : Type*} {memory memory' : SharedMemory ι} {i : ι} {phase phase' : Phase}
  {action : ProcessStep}

/-- The steps that do not change a count keep it. -/
theorem count_of_performs (h : Performs i memory action phase phase' memory')
    (hincrement : action ≠ .constructor .increment) (hdecrement : action ≠ .decrement) :
    CountKept memory memory' phase phase' := by
  have hrefl : CountFrame memory memory := .of_referenceCount rfl fun _ => rfl
  have hnone : ∀ {β : Type} {value : β} {p : Prop}, (none : Option β) = some value → p :=
    fun h => by cases h
  cases h with
  | constructor hconstructs =>
    cases hconstructs with
    | openSegment =>
      refine ⟨.of_openSegment memory, rfl, fun _ => hnone, fun segment h => Or.inr ?_,
        fun segment h => Or.inr ?_⟩
      · rw [← Option.some.inj h]
      · have hbound : memory.openSegment.2.segments.bound = some memory.openSegment.1 :=
          Name.bound_openOrCreate
        rw [← Option.some.inj (hbound.symm.trans h)]
    | openMutex | missedStorage | foundStorage | missedCount =>
      exact ⟨.of_referenceCount rfl fun _ => rfl, rfl, fun _ => hnone, fun _ => Or.inl,
        fun _ => Or.inl⟩
    | takenStorage | takenCount =>
      exact ⟨hrefl, rfl, fun _ => hnone, fun _ => hnone, fun _ => Or.inl⟩
    | constructedStorage mutex hconstruct =>
      refine ⟨.of_constructPacketStorage hconstruct, rfl, fun _ => hnone, fun _ => Or.inl, ?_⟩
      obtain ⟨object, -, hresult⟩ := Option.map_eq_some_iff.mp hconstruct
      obtain ⟨-, rfl⟩ := Prod.mk.inj hresult
      exact fun _ => Or.inl
    | foundCount mutex storage hfind =>
      refine ⟨hrefl, rfl, fun pointer hpointer => Or.inr ?_, fun _ => hnone, fun _ => Or.inl⟩
      obtain rfl := Option.some.inj hpointer
      obtain ⟨address, haddress, rfl⟩ := Option.map_eq_some_iff.mp hfind
      obtain ⟨count, hobject⟩ := NamedObject.find_eq_some.mp haddress
      exact ⟨rfl, count, NamedObject.load_eq_some.mpr hobject⟩
    | constructedCount mutex storage hconstruct =>
      obtain ⟨hframe, hsegment, hload⟩ := CountFrame.of_constructReferenceCount hconstruct
      refine ⟨hframe, rfl, fun pointer hpointer => Or.inr ?_, fun _ => hnone, ?_⟩
      · obtain rfl := Option.some.inj hpointer
        exact ⟨congrArg some hsegment.symm, 0, hload⟩
      · obtain ⟨object, -, hresult⟩ := Option.map_eq_some_iff.mp hconstruct
        obtain ⟨-, rfl⟩ := Prod.mk.inj hresult
        exact fun _ => Or.inl
    | increment => exact absurd rfl hincrement
  | lock | unlock =>
    exact ⟨.of_referenceCount rfl fun _ => rfl, rfl, fun _ => Or.inl, fun _ => hnone,
      fun _ => Or.inl⟩
  | send transport hsend =>
    obtain ⟨storage, -, rfl⟩ := Option.map_eq_some_iff.mp hsend
    exact ⟨.of_storePacketStorage _, rfl, fun _ => Or.inl, fun _ => hnone, fun _ => Or.inl⟩
  | receive transport hreceive =>
    obtain ⟨storage, -, hresult⟩ := Option.map_eq_some_iff.mp hreceive
    obtain ⟨-, rfl⟩ := Prod.mk.inj hresult
    exact ⟨.of_storePacketStorage _, rfl, fun _ => Or.inl, fun _ => hnone, fun _ => Or.inl⟩
  | decrement => exact absurd rfl hdecrement
  | testZero | testNonzero =>
    exact ⟨hrefl, rfl, fun _ => hnone, fun _ => hnone, fun _ => Or.inl⟩
  | removeSegment =>
    exact ⟨.of_referenceCount rfl fun _ => rfl, rfl, fun _ => hnone, fun _ => hnone,
      fun _ => hnone⟩
  | removeMutex =>
    exact ⟨.of_referenceCount rfl fun _ => rfl, rfl, fun _ => hnone, fun _ => hnone,
      fun _ => Or.inl⟩

end SharedMemory

/-! ## The invariant -/

namespace SharedMemory

variable {ι : Type*} {memory : SharedMemory ι} {pointer other : Pointer} {count count' value : ℤ}

/-- A new value of a count, seen through a pointer to a count. -/
theorem load_storeReferenceCount (hother : memory.loadReferenceCount other = some count')
    (hload : memory.loadReferenceCount pointer = some count) :
    (memory.storeReferenceCount pointer value).loadReferenceCount other
      = if other.segment = pointer.segment then some value else some count' := by
  have hobject := NamedObject.load_eq_some.mp hload
  have hobject' := NamedObject.load_eq_some.mp hother
  by_cases hsegment : other.segment = pointer.segment
  · rw [if_pos hsegment]
    rw [hsegment, hobject] at hobject'
    obtain ⟨haddress, -⟩ := NamedObject.mk.inj (Option.some.inj hobject')
    rw [loadReferenceCount, hsegment, storeReferenceCount, object_setSegment,
      NamedObject.load_eq_some, haddress]
  · rw [if_neg hsegment, loadReferenceCount, storeReferenceCount,
      object_setSegment_of_ne _ hsegment]
    exact hother

end SharedMemory

/-- An object at a `++` or `--` is at the end of its constructor or at the start of its destructor. -/
theorem Phase.counting_eq_some {phase next : Phase} {pointer : Pointer} {change : ℤ}
    (h : phase.counting? = some (pointer, change, next)) : ∃ transport : SharedMemoryTransport,
      pointer = transport.referenceCount ∧
      ((phase = .hasCount transport ∧ change = 1 ∧ next = .live transport) ∨
        (phase = .live transport ∧ change = -1 ∧ next = .decremented transport)) := by
  cases phase with
  | hasCount transport =>
    obtain ⟨rfl, rfl, rfl⟩ : _ ∧ _ ∧ _ := by simpa [counting?] using h
    exact ⟨transport, rfl, Or.inl ⟨rfl, rfl, rfl⟩⟩
  | live transport =>
    obtain ⟨rfl, rfl, rfl⟩ : _ ∧ _ ∧ _ := by simpa [counting?] using h
    exact ⟨transport, rfl, Or.inr ⟨rfl, rfl, rfl⟩⟩
  | _ => cases h

namespace ShmCounting

variable {ι : Type*} [DecidableEq ι] {world world' : ShmCounting ι} {i : ι}

/-- The outcomes of the steps of object `i`. -/
inductive Steps (i : ι) (world : ShmCounting ι) : CountStep → ShmCounting ι → Prop where
  /-- A step that changes no count. -/
  | process {action : ProcessStep} {phase : Phase} {memory : SharedMemory ι}
      (hloaded : world.loaded i = none)
      (hkept : CountKept world.processes.memory memory (world.processes.phase i) phase)
      (hprocesses : world.processes.step (i, action)
        = some ⟨memory, Function.update world.processes.phase i phase⟩) :
      Steps i world (.process action)
        ⟨⟨memory, Function.update world.processes.phase i phase⟩, world.loaded⟩
  /-- A count is loaded. -/
  | load {pointer : Pointer} {change count : ℤ} {next : Phase}
      (hcounting : (world.processes.phase i).counting? = some (pointer, change, next))
      (hload : world.processes.memory.loadReferenceCount pointer = some count) :
      Steps i world .load { world with loaded := Function.update world.loaded i (some count) }
  /-- A changed count is stored. -/
  | store {pointer : Pointer} {change count : ℤ} {next : Phase}
      (hcounting : (world.processes.phase i).counting? = some (pointer, change, next))
      (hloaded : world.loaded i = some count) : Steps i world .store
        ⟨⟨world.processes.memory.storeReferenceCount pointer (count + change),
            Function.update world.processes.phase i next⟩, Function.update world.loaded i none⟩

/-- Every step has one of these outcomes. -/
theorem steps_of_step {action : CountStep} (h : world.step (i, action) = some world') :
    Steps i world action world' := by
  cases action with
  | process action =>
    rw [step] at h
    split_ifs at h with hallowed
    obtain ⟨hloaded, hincrement, hdecrement⟩ := hallowed
    obtain ⟨processes, hprocesses, rfl⟩ := Option.map_eq_some_iff.mp h
    obtain ⟨phase, memory, hperform, rfl⟩ := ShmProcesses.step_eq_some.mp hprocesses
    exact .process hloaded (SharedMemory.count_of_performs
      (SharedMemory.performs_of_perform hperform) hincrement hdecrement) hprocesses
  | load =>
    rw [step] at h
    split_ifs at h with hloaded
    obtain ⟨⟨pointer, change, next⟩, hcounting, h⟩ := Option.bind_eq_some_iff.mp h
    obtain ⟨count, hload, rfl⟩ := Option.map_eq_some_iff.mp h
    exact .load hcounting hload
  | store =>
    obtain ⟨⟨pointer, change, next⟩, hcounting, h⟩ := Option.bind_eq_some_iff.mp h
    obtain ⟨count, hloaded, rfl⟩ := Option.map_eq_some_iff.mp h
    exact .store hcounting hloaded

omit [DecidableEq ι] in
/-- Everybody knows where the counts are. -/
structure Located (world : ShmCounting ι) : Prop where
  /-- The segment name leads to a segment. -/
  wellFormed : world.processes.memory.segments.WellFormed
  /-- So does the one a constructor works on. -/
  segment : ∀ i segment, (world.processes.phase i).constructing? = some segment →
    segment < world.processes.memory.segments.created
  /-- Pointers to counts lead to one. -/
  pointer : ∀ i pointer, (world.processes.phase i).referenceCount? = some pointer →
    pointer.segment < world.processes.memory.segments.created ∧
      ∃ count, world.processes.memory.loadReferenceCount pointer = some count
  /-- Who has loaded a count is to change it. -/
  loading : ∀ i count, world.loaded i = some count →
    (world.processes.phase i).counting?.isSome = true

namespace Located

omit [DecidableEq ι] in
/-- The count that is to be changed is there. -/
theorem counting (h : Located world) {pointer : Pointer} {change : ℤ} {next : Phase}
    (hcounting : (world.processes.phase i).counting? = some (pointer, change, next)) :
    (world.processes.phase i).referenceCount? = some pointer ∧
      next.referenceCount? = some pointer ∧ next.constructing? = none ∧
      pointer.segment < world.processes.memory.segments.created ∧
      ∃ count, world.processes.memory.loadReferenceCount pointer = some count := by
  obtain ⟨transport, rfl, ⟨hi, -, rfl⟩ | ⟨hi, -, rfl⟩⟩ := Phase.counting_eq_some hcounting
  · exact ⟨by rw [hi]; rfl, rfl, rfl, h.pointer i _ (by rw [hi]; rfl)⟩
  · exact ⟨by rw [hi]; rfl, rfl, rfl, h.pointer i _ (by rw [hi]; rfl)⟩

/-- A step that changes no count. -/
theorem process (h : Located world) {phase : Phase} {memory : SharedMemory ι}
    (hloaded : world.loaded i = none)
    (hkept : CountKept world.processes.memory memory (world.processes.phase i) phase) :
    Located ⟨⟨memory, Function.update world.processes.phase i phase⟩, world.loaded⟩ := by
  have hcreated := hkept.frame.created
  have hopened : ∀ segment memory, world.processes.memory.openSegment = (segment, memory) →
      segment < memory.segments.created := by
    intro segment memory hopen
    have hlt : world.processes.memory.openSegment.1
        < world.processes.memory.openSegment.2.segments.created := Name.openOrCreate_lt h.wellFormed
    rwa [hopen] at hlt
  refine ⟨fun segment hsegment => ?_, fun j segment hj => ?_, fun j pointer hj => ?_,
    fun j count hj => ?_⟩
  · rcases hkept.bound segment hsegment with hold | hopen
    · exact lt_of_lt_of_le (h.wellFormed segment hold) hcreated
    · exact hopened segment _ hopen
  · rcases ShmProcesses.feature_cases hj with ⟨-, hnew⟩ | ⟨-, hold⟩
    · rcases hkept.segment segment hnew with hsame | hopen
      · exact lt_of_lt_of_le (h.segment i segment hsame) hcreated
      · exact hopened segment _ hopen
    · exact lt_of_lt_of_le (h.segment j segment hold) hcreated
  · have hsame : ∀ k, (world.processes.phase k).referenceCount? = some pointer →
        pointer.segment < _ ∧ ∃ count, _ = some count := fun k hk => by
      obtain ⟨hlt, count, hload⟩ := h.pointer k pointer hk
      exact ⟨lt_of_lt_of_le hlt hcreated, count, hkept.frame.load hlt hload⟩
    rcases ShmProcesses.feature_cases hj with ⟨-, hnew⟩ | ⟨-, hold⟩
    · rcases hkept.pointer pointer hnew with hold | ⟨hsegment, hload⟩
      · exact hsame i hold
      · exact ⟨lt_of_lt_of_le (h.segment i _ hsegment) hcreated, hload⟩
    · exact hsame j hold
  · have hne : j ≠ i := by
      rintro rfl
      rw [hloaded] at hj
      cases hj
    simpa [hne] using h.loading j count hj

/-- The store of a `++` or `--`, whatever it stores. -/
theorem store (h : Located world) {pointer : Pointer} {change value : ℤ} {next : Phase}
    (hcounting : (world.processes.phase i).counting? = some (pointer, change, next)) :
    Located ⟨⟨world.processes.memory.storeReferenceCount pointer value,
      Function.update world.processes.phase i next⟩, Function.update world.loaded i none⟩ := by
  obtain ⟨hold, hnext, hconstructing, hlt, count, hload⟩ := h.counting hcounting
  -- every pointer to a count still leads to one
  have hkept : ∀ j other, (world.processes.phase j).referenceCount? = some other →
      other.segment < world.processes.memory.segments.created ∧
        ∃ count', (world.processes.memory.storeReferenceCount pointer
          value).loadReferenceCount other = some count' := by
    intro j other hj
    obtain ⟨hlt', count', hload'⟩ := h.pointer j other hj
    refine ⟨hlt', if other.segment = pointer.segment then value else count', ?_⟩
    rw [SharedMemory.load_storeReferenceCount hload' hload]
    exact (apply_ite some _ _ _).symm
  refine ⟨h.wellFormed, fun j segment hj => ?_, fun j other hj => ?_, fun j count hj => ?_⟩
  · rcases ShmProcesses.feature_cases hj with ⟨-, hnew⟩ | ⟨-, hsame⟩
    · rw [hconstructing] at hnew
      cases hnew
    · exact h.segment j segment hsame
  · rcases ShmProcesses.feature_cases hj with ⟨-, hnew⟩ | ⟨-, hsame⟩
    · obtain rfl := Option.some.inj (hnext.symm.trans hnew)
      exact hkept i _ hold
    · exact hkept j other hsame
  · by_cases hji : j = i
    · subst hji
      simp at hj
    · simpa [hji] using h.loading j count (by simpa [hji] using hj)

/-- Every step keeps the invariant, fresh or not. -/
theorem step (h : Located world) {action : ι × CountStep} (hstep : world.step action = some world') :
    Located world' := by
  obtain ⟨i, action⟩ := action
  cases steps_of_step hstep with
  | process hloaded hkept => exact h.process hloaded hkept
  | load hcounting hload =>
    refine ⟨h.wellFormed, h.segment, h.pointer, fun j count hj => ?_⟩
    by_cases hji : j = i
    · subst hji
      rw [hcounting]
      rfl
    · exact h.loading j count (by simpa [hji] using hj)
  | store hcounting => exact h.store hcounting

end Located

end ShmCounting

/-! ## When the count is accurate -/

namespace ShmProcesses

variable {ι : Type*} [Fintype ι] [DecidableEq ι]

/-- The number of the counted objects when one object goes on. -/
theorem countedIn_update (world : ShmProcesses ι) (memory : SharedMemory ι) (i : ι) (next : Phase)
    (segment : ℕ) : countedIn ⟨memory, Function.update world.phase i next⟩ segment
        + Tally.one ((world.phase i).counted?.map Pointer.segment) segment
      = world.countedIn segment + Tally.one (next.counted?.map Pointer.segment) segment := by
  have hupdate : (fun j => (Function.update world.phase i next j).counted?.map Pointer.segment)
      = Function.update (fun j => (world.phase j).counted?.map Pointer.segment) i
          (next.counted?.map Pointer.segment) :=
    Function.comp_update (fun phase : Phase => phase.counted?.map Pointer.segment) world.phase i next
  rw [countedIn, hupdate]
  exact Tally.count_update _ i _ segment

/-- It is the same when the object is counted where it was. -/
theorem countedIn_of_counted {world : ShmProcesses ι} {i : ι} {next : Phase}
    (h : next.counted? = (world.phase i).counted?) (memory : SharedMemory ι) (segment : ℕ) :
    countedIn ⟨memory, Function.update world.phase i next⟩ segment = world.countedIn segment := by
  have hupdate := countedIn_update world memory i next segment
  rw [h] at hupdate
  exact Nat.add_right_cancel hupdate

/-- A `++` or `--` changes it by what it adds to the count. -/
theorem countedIn_of_counting {world : ShmProcesses ι} {i : ι} {pointer : Pointer} {change : ℤ}
    {next : Phase} (h : (world.phase i).counting? = some (pointer, change, next))
    (memory : SharedMemory ι) (segment : ℕ) :
    (countedIn ⟨memory, Function.update world.phase i next⟩ segment : ℤ)
      = world.countedIn segment + if segment = pointer.segment then change else 0 := by
  have hupdate := countedIn_update world memory i next segment
  obtain ⟨transport, rfl, ⟨hi, rfl, rfl⟩ | ⟨hi, rfl, rfl⟩⟩ := Phase.counting_eq_some h
  all_goals
    simp only [hi, Phase.counted?, Option.map_none, Option.map_some, Tally.one, reduceCtorEq,
      if_false, Option.some.injEq, eq_comm (b := segment)] at hupdate
    split_ifs at hupdate ⊢ <;> omega

omit [DecidableEq ι] in
/-- Nobody is counted in a segment without a count. -/
theorem countedIn_eq_zero {world : ShmProcesses ι} {segment : ℕ}
    (hpointer : ∀ i pointer, (world.phase i).referenceCount? = some pointer →
      ∃ count, world.memory.loadReferenceCount pointer = some count)
    (hnone : (world.memory.segments.object segment).referenceCount = none) :
    world.countedIn segment = 0 := by
  refine Tally.count_eq_zero_iff.mpr fun i hi => ?_
  obtain ⟨pointer, hcounted, rfl⟩ := Option.map_eq_some_iff.mp hi
  have hreference : (world.phase i).referenceCount? = some pointer := by
    cases hphase : world.phase i <;> rw [hphase] at hcounted <;> first | exact hcounted | cases hcounted
  obtain ⟨count, hload⟩ := hpointer i pointer hreference
  rw [NamedObject.load_eq_some.mp hload] at hnone
  cases hnone

end ShmProcesses

namespace ShmCounting

variable {ι : Type*} [Fintype ι] [DecidableEq ι] {world world' : ShmCounting ι} {i : ι}

/-- The steps that change no count keep it accurate. -/
theorem accurate_of_countKept (h : Located world) (haccurate : world.processes.Accurate)
    {memory : SharedMemory ι} {phase : Phase}
    (hkept : CountKept world.processes.memory memory (world.processes.phase i) phase) :
    ShmProcesses.Accurate ⟨memory, Function.update world.processes.phase i phase⟩ := by
  intro segment object hlt hobject
  rw [ShmProcesses.countedIn_of_counted hkept.counted]
  by_cases hold : segment < world.processes.memory.segments.created
  · rcases hkept.frame.old segment hold with hsame | ⟨hnone, address, hzero⟩
    · exact haccurate segment object hold (hsame.symm.trans hobject)
    · obtain rfl := Option.some.inj (hzero.symm.trans hobject)
      rw [ShmProcesses.countedIn_eq_zero (fun i pointer hi => (h.pointer i pointer hi).2) hnone]
      rfl
  · rw [hkept.frame.new segment (Nat.not_lt.mp hold) hlt] at hobject
    cases hobject

/-- A store leaves an accurate count exactly if it finds the value that was loaded. -/
theorem accurate_store_iff (h : Located world) (haccurate : world.processes.Accurate)
    {pointer : Pointer} {change loaded : ℤ} {next : Phase}
    (hcounting : (world.processes.phase i).counting? = some (pointer, change, next)) :
    ShmProcesses.Accurate ⟨world.processes.memory.storeReferenceCount pointer (loaded + change),
        Function.update world.processes.phase i next⟩ ↔
      world.processes.memory.loadReferenceCount pointer = some loaded := by
  obtain ⟨-, -, -, hlt, count, hload⟩ := h.counting hcounting
  have hobject := NamedObject.load_eq_some.mp hload
  have hcount := haccurate pointer.segment _ hlt hobject
  rw [hload, Option.some.injEq]
  constructor
  · intro hstored
    have hvalue := hstored pointer.segment ⟨pointer.address, loaded + change⟩ hlt
      (by rw [SharedMemory.storeReferenceCount, SharedMemory.object_setSegment])
    rw [ShmProcesses.countedIn_of_counting hcounting, if_pos rfl] at hvalue
    simp only at hvalue hcount
    omega
  · rintro rfl segment object hlt' hobject'
    rw [ShmProcesses.countedIn_of_counting hcounting]
    by_cases hsegment : segment = pointer.segment
    · subst hsegment
      rw [SharedMemory.storeReferenceCount, SharedMemory.object_setSegment] at hobject'
      obtain rfl := Option.some.inj hobject'
      rw [if_pos rfl, ← hcount]
    · rw [SharedMemory.storeReferenceCount, SharedMemory.object_setSegment_of_ne _ hsegment]
        at hobject'
      rw [if_neg hsegment, add_zero]
      exact haccurate segment object hlt' hobject'

/-- A step keeps the count accurate exactly if it is not a stale store. -/
theorem accurate_step_iff (h : Located world) (haccurate : world.processes.Accurate)
    {action : ι × CountStep} (hstep : world.step action = some world') :
    world'.processes.Accurate ↔ world.Fresh action := by
  obtain ⟨i, action⟩ := action
  cases steps_of_step hstep with
  | process hloaded hkept hprocesses =>
    exact iff_of_true (accurate_of_countKept h haccurate hkept) fun hstore => by cases hstore
  | load hcounting hload => exact iff_of_true haccurate fun hstore => by cases hstore
  | store hcounting hloaded =>
    rw [accurate_store_iff h haccurate hcounting]
    constructor
    · intro hload _ next hnext count hcount
      rw [← Option.some.inj (hcounting.symm.trans hnext),
        ← Option.some.inj (hloaded.symm.trans hcount)]
      exact hload
    · exact fun hfresh => hfresh rfl _ hcounting _ hloaded

omit [Fintype ι] in
/-- A step that is not a stale store is one of the system in which counting is one step, or a load. -/
theorem run_effect {action : ι × CountStep} (hfresh : world.Fresh action)
    (hstep : world.step action = some world') :
    Transition.run ShmProcesses.step world.processes (world.effect action)
      = some world'.processes := by
  obtain ⟨i, action⟩ := action
  cases steps_of_step hstep with
  | process hloaded hkept hprocesses =>
    rw [effect, Transition.run_cons, hprocesses]
    rfl
  | load hcounting hload => rfl
  | store hcounting hloaded =>
    have hload := hfresh rfl _ hcounting _ hloaded
    obtain ⟨transport, rfl, ⟨hi, rfl, rfl⟩ | ⟨hi, rfl, rfl⟩⟩ := Phase.counting_eq_some hcounting
    all_goals
      simp [effect, hi, Transition.run_cons, ShmProcesses.step, SharedMemory.perform,
        SharedMemory.construction, SharedMemory.addReferenceCount, hload]

omit [Fintype ι] [DecidableEq ι] in
theorem Located.of_start {memory : SharedMemory ι} (hsegments : memory.segments.WellFormed) :
    Located (start memory) where
  wellFormed := hsegments
  segment _ _ h := by cases h
  pointer _ _ h := by cases h
  loading _ _ h := by cases h

omit [DecidableEq ι] in
/-- At the start the counts are zero, and nobody is counted. -/
theorem accurate_start {memory : SharedMemory ι}
    (hzero : ∀ segment object, segment < memory.segments.created →
      (memory.segments.object segment).referenceCount = some object → object.value = 0) :
    (start memory).processes.Accurate := by
  intro segment object hlt hobject
  have hcounted : (start memory).processes.countedIn segment = 0 :=
    Tally.count_eq_zero_iff.mpr fun _ h => by cases h
  rw [hcounted]
  exact hzero segment object hlt hobject

omit [DecidableEq ι] in
/-- Everybody knows where the counts are, and they are accurate. -/
structure Counted (world : ShmCounting ι) : Prop where
  /-- The pointers. -/
  located : Located world
  /-- The counts. -/
  accurate : world.processes.Accurate

/-- After a run without stale stores the counts are accurate. -/
theorem counted_of_run {memory : SharedMemory ι} {actions : List (ι × CountStep)}
    (hsegments : memory.segments.WellFormed)
    (hzero : ∀ segment object, segment < memory.segments.created →
      (memory.segments.object segment).referenceCount = some object → object.value = 0)
    (hmeets : Transition.Meets step Fresh (start memory) actions)
    (hrun : Transition.run step (start memory) actions = some world) : Counted world := by
  have hstart : Counted (start memory) := ⟨.of_start hsegments, accurate_start hzero⟩
  refine Transition.invariant_of_meets hstart (fun world action world' h hfresh hstep => ?_) hmeets hrun
  exact ⟨h.located.step hstep, (accurate_step_iff h.located h.accurate hstep).mpr hfresh⟩

end ShmCounting

/-- **When the reference count counts.** In a run of finitely many objects, from any memory in which
nobody is attached and the counts are zero, the count of every segment is the number of the objects that
are counted in it, in every state of the run, if and only if every store of a `++` or `--` finds the value
that was loaded for it. -/
theorem reference_count_accurate_iff {ι : Type*} [Fintype ι] [DecidableEq ι]
    (memory : SharedMemory ι) (world : ShmCounting ι) (actions : List (ι × CountStep))
    (hsegments : memory.segments.WellFormed)
    (hzero : ∀ segment object, segment < memory.segments.created →
      (memory.segments.object segment).referenceCount = some object → object.value = 0)
    (hrun : Transition.run ShmCounting.step (.start memory) actions = some world) :
    (∀ front, front <+: actions → ∀ middle,
        Transition.run ShmCounting.step (.start memory) front = some middle →
          middle.processes.Accurate) ↔
      Transition.Meets ShmCounting.step ShmCounting.Fresh (.start memory) actions :=
  Transition.always_good_iff_meets (fun _ _ _ h hstep => h.step hstep)
    (fun _ _ _ h hgood hstep => ShmCounting.accurate_step_iff h hgood hstep) (.of_start hsegments)
    (ShmCounting.accurate_start hzero) hrun

/-- The steps of constructors and destructors, each `++` and `--` without steps of others in it. -/
def countSteps {ι : Type*} (steps : List (ι × ProcessStep)) : List (ι × CountStep) :=
  steps.flatMap fun step =>
    match step.2 with
    | .constructor .increment | .decrement => [(step.1, .load), (step.1, .store)]
    | action => [(step.1, .process action)]

/-- Two constructors that both load zero. -/
def lostUpdate : List (Bool × CountStep) :=
  countSteps ((creation false).dropLast ++ (attachment true).dropLast)
    ++ [(false, .load), (true, .load), (false, .store), (true, .store)]

/-- The second store is stale, so the count is wrong somewhere. -/
theorem reference_count_accurate_iff_lost :
    ∃ world, Transition.run ShmCounting.step (.start (.empty : SharedMemory Bool)) lostUpdate
        = some world ∧
      ¬ ∀ front, front <+: lostUpdate → ∀ middle,
        Transition.run ShmCounting.step (.start (.empty : SharedMemory Bool)) front = some middle →
          middle.processes.Accurate := by
  refine ⟨_, rfl, fun hall => ?_⟩
  have hmeets := (reference_count_accurate_iff (.empty : SharedMemory Bool) _ lostUpdate
    (fun _ h => by cases h) (fun _ _ h _ => by cases h) rfl).mp hall
  exact absurd hmeets (by decide)

/-- The first of them to be destroyed removes the segment that the other one uses. -/
example : (Transition.run ShmCounting.step (.start (.empty : SharedMemory Bool))
    (lostUpdate ++ countSteps [(false, .decrement), (false, .testZero), (false, .removeSegment)])).map
      (fun world => (world.processes.memory.segments.bound, world.processes.countedIn 0))
        = some (none, 1) := by decide

/-- **The last object destroys.** In a run in which every store of a `++` or `--` finds the value that was
loaded for it: the run is one of the system in which these are one step each; and a destructor that tests
the count goes on to remove the segment if and only if no object is counted in it. -/
theorem last_object_destroys {ι : Type*} [Fintype ι] [DecidableEq ι]
    (memory : SharedMemory ι) (world : ShmCounting ι) (actions : List (ι × CountStep))
    (hsegments : memory.segments.WellFormed)
    (hzero : ∀ segment object, segment < memory.segments.created →
      (memory.segments.object segment).referenceCount = some object → object.value = 0)
    (hmeets : Transition.Meets ShmCounting.step ShmCounting.Fresh (.start memory) actions)
    (hrun : Transition.run ShmCounting.step (.start memory) actions = some world) :
    Transition.run ShmProcesses.step ⟨memory, fun _ => .absent⟩ (Transition.observations
        ShmCounting.step ShmCounting.effect (.start memory) actions) = some world.processes ∧
    ∀ i transport, world.processes.phase i = .decremented transport → ∃ next,
      world.step (i, .process .testZero) = some next ∧
      (next.processes.phase i = .removingSegment transport ↔
        world.processes.countedIn transport.referenceCount.segment = 0) := by
  obtain ⟨hlocated, haccurate⟩ := ShmCounting.counted_of_run hsegments hzero hmeets hrun
  refine ⟨?_, fun i transport hi => ?_⟩
  · exact Transition.run_matched ShmCounting.processes ShmCounting.effect
      (ShmCounting.Located.of_start hsegments) (fun _ _ _ h _ hstep => h.step hstep)
      (fun _ _ _ _ hfresh hstep => ShmCounting.run_effect hfresh hstep) hmeets hrun
  · obtain ⟨hlt, count, hload⟩ := hlocated.pointer i transport.referenceCount (by rw [hi]; rfl)
    have hcount : count = (world.processes.countedIn transport.referenceCount.segment : ℤ) :=
      haccurate _ _ hlt (NamedObject.load_eq_some.mp hload)
    have hidle : world.loaded i = none := by
      cases hloaded : world.loaded i with
      | none => rfl
      | some loaded =>
        have hcounting := hlocated.loading i loaded hloaded
        rw [hi] at hcounting
        cases hcounting
    refine ⟨{ world with processes := ⟨world.processes.memory, Function.update world.processes.phase i
      (if count = 0 then .removingSegment transport else .absent)⟩ }, ?_, ?_⟩
    · simp [ShmCounting.step, hidle, ShmProcesses.step, hi, SharedMemory.perform, hload]
    · simp only [Function.update_self, hcount]
      split_ifs with hnobody
      · exact iff_of_true rfl (by exact_mod_cast hnobody)
      · exact iff_of_false (fun h => by cases h) (by exact_mod_cast hnobody)

/-- Two objects, and one is destroyed: it leaves the segment to the other. -/
theorem last_object_destroys_two :
    ∃ world transport, Transition.run ShmCounting.step (.start (.empty : SharedMemory Bool))
        (countSteps (creation false ++ attachment true ++ [(false, .decrement)])) = some world ∧
      world.processes.phase false = .decremented transport ∧
      ∃ next, world.step (false, .process .testZero) = some next ∧
        next.processes.phase false ≠ .removingSegment transport := by
  obtain ⟨world, first, second, hrun, hfirst, hsecond, hsegment⟩ :
      ∃ world first second, Transition.run ShmCounting.step (.start (.empty : SharedMemory Bool))
          (countSteps (creation false ++ attachment true ++ [(false, .decrement)])) = some world ∧
        world.processes.phase false = .decremented first ∧
        world.processes.phase true = .live second ∧
        second.referenceCount.segment = first.referenceCount.segment :=
    ⟨_, _, _, rfl, rfl, rfl, rfl⟩
  obtain ⟨next, hnext, hremoves⟩ := (last_object_destroys (.empty : SharedMemory Bool) world
    (countSteps (creation false ++ attachment true ++ [(false, .decrement)]))
    (fun _ h => by cases h) (fun _ _ h _ => by cases h) (by decide) hrun).2 false first hfirst
  refine ⟨world, first, hrun, hfirst, next, hnext, fun h => ?_⟩
  refine Tally.count_eq_zero_iff.mp (hremoves.mp h) true ?_
  rw [hsecond, Phase.counted?, Option.map_some, hsegment]

end Contra
