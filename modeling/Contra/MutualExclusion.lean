import Contra.SharedMemorySteps

/-! # Mutual exclusion and teardown

Two objects on one segment exclude each other only if they hold the same mutex. Segment and mutex are
opened and removed under two names, in separate steps, so a constructor can get the old mutex with a
new segment while a destructor is between its two removals; if the mutex name goes then, the next
object on that segment has another mutex.

`mutual_exclusion` shows that this is the only way: in every run in which the mutex name is removed
only while its mutex is out of use (`MutexUnused`), all objects on a segment hold one mutex. The
invariant `Paired` says that whoever holds a mutex holds the one under the name, or is on a segment
nobody can join any more. -/

namespace Contra

open NamedObjects

/-! ## What a step does to the names -/

namespace Phase

/-- The segment and the mutex an object holds, from the second open on and until its destructor
starts. -/
def handles? : Phase → Option (ℕ × ℕ)
  | .openedMutex segment mutex => some (segment, mutex)
  | .missedStorage segment mutex => some (segment, mutex)
  | .hasStorage segment mutex _ => some (segment, mutex)
  | .missedCount segment mutex _ => some (segment, mutex)
  | .hasCount transport => some (transport.segment, transport.mutex)
  | .live transport => some (transport.segment, transport.mutex)
  | .locked transport _ => some (transport.segment, transport.mutex)
  | _ => none

/-- The segment of an object that has not opened its mutex yet. -/
def opening? : Phase → Option ℕ
  | .openedSegment segment => some segment
  | _ => none

/-- The mutex an object has locked. -/
def inside? : Phase → Option ℕ
  | .locked transport _ => some transport.mutex
  | _ => none

/-- Who has locked a mutex is inside. -/
theorem locked_of_inside {phase : Phase} {mutex : ℕ} (h : phase.inside? = some mutex) :
    ∃ transport left, phase = .locked transport left ∧ transport.mutex = mutex := by
  cases phase with
  | locked transport left => exact ⟨transport, left, rfl, Option.some.inj h⟩
  | _ => cases h

/-- Who has locked a mutex holds it. -/
theorem handles_of_inside {phase : Phase} {mutex : ℕ} (h : phase.inside? = some mutex) :
    ∃ segment, phase.handles? = some (segment, mutex) := by
  obtain ⟨transport, left, rfl, rfl⟩ := locked_of_inside h
  exact ⟨transport.segment, rfl⟩

end Phase

/-- Both names and all mutexes are as before. -/
structure SameNames {ι : Type*} (memory memory' : SharedMemory ι) : Prop where
  /-- The mutexes. -/
  mutexes : memory'.mutexes = memory.mutexes
  /-- The segment under the name. -/
  bound : memory'.segments.bound = memory.segments.bound
  /-- The segments there are. -/
  created : memory'.segments.created = memory.segments.created

/-- The effect of a step of object `i` on the names, the handles and the locks. -/
inductive NameEffect {ι : Type*} (i : ι) (memory : SharedMemory ι) :
    ProcessStep → Phase → Phase → SharedMemory ι → Prop where
  /-- The segment is opened. -/
  | openSegment : NameEffect i memory (.constructor .openSegment) .absent
      (.openedSegment memory.openSegment.1) memory.openSegment.2
  /-- The mutex is opened. -/
  | openMutex (segment : ℕ) : NameEffect i memory (.constructor .openMutex)
      (.openedSegment segment) (.openedMutex segment memory.openMutex.1) memory.openMutex.2
  /-- A free lock is taken. -/
  | lock (transport : SharedMemoryTransport) (operation : Operation)
      (hfree : memory.mutexes.object transport.mutex = none) :
      NameEffect i memory (.lock operation) (.live transport) (.locked transport (some operation))
        (memory.setOwner transport.mutex (some i))
  /-- The lock is released. -/
  | unlock (transport : SharedMemoryTransport) : NameEffect i memory .unlock
      (.locked transport none) (.live transport) (memory.setOwner transport.mutex none)
  /-- The name of the segment is removed. -/
  | removeSegment (transport : SharedMemoryTransport) : NameEffect i memory .removeSegment
      (.removingSegment transport) (.removingMutex transport) memory.removeSegment
  /-- The name of the mutex is removed. -/
  | removeMutex (transport : SharedMemoryTransport) : NameEffect i memory .removeMutex
      (.removingMutex transport) .absent memory.removeMutex
  /-- Names and locks stay; the object keeps its handles or gives them up. -/
  | work {action : ProcessStep} {phase phase' : Phase} {memory' : SharedMemory ι}
      (hnames : SameNames memory memory')
      (hopening : phase'.opening? = none)
      (hhandles : phase'.handles? = phase.handles? ∨ phase'.handles? = none)
      (hinside : phase'.inside? = phase.inside?)
      (haction : action ≠ .removeMutex) : NameEffect i memory action phase phase' memory'

namespace SharedMemory

variable {ι : Type*} {memory memory' : SharedMemory ι} {i : ι} {phase phase' : Phase}
  {transport : SharedMemoryTransport} {segment : ℕ} {pointer : Pointer} {packets : List Packet}

theorem sameNames_setSegment (content : Segment) :
    SameNames memory (memory.setSegment segment content) := ⟨rfl, rfl, rfl⟩

theorem sameNames_constructPacketStorage
    (h : memory.constructPacketStorage segment = some (pointer, memory')) :
    SameNames memory memory' := by
  obtain ⟨object, -, hresult⟩ := Option.map_eq_some_iff.mp h
  obtain ⟨-, rfl⟩ := Prod.mk.inj hresult
  exact sameNames_setSegment _

theorem sameNames_constructReferenceCount
    (h : memory.constructReferenceCount segment = some (pointer, memory')) :
    SameNames memory memory' := by
  obtain ⟨object, -, hresult⟩ := Option.map_eq_some_iff.mp h
  obtain ⟨-, rfl⟩ := Prod.mk.inj hresult
  exact sameNames_setSegment _

theorem sameNames_addReferenceCount {change : ℤ}
    (h : memory.addReferenceCount pointer change = some memory') : SameNames memory memory' := by
  obtain ⟨count, -, rfl⟩ := Option.map_eq_some_iff.mp h
  exact sameNames_setSegment _

theorem sameNames_send {packet : Packet} (h : memory.send transport packet = some memory') :
    SameNames memory memory' := by
  obtain ⟨storage, -, rfl⟩ := Option.map_eq_some_iff.mp h
  exact sameNames_setSegment _

theorem sameNames_receive (h : memory.receive transport = some (packets, memory')) :
    SameNames memory memory' := by
  obtain ⟨storage, -, hresult⟩ := Option.map_eq_some_iff.mp h
  obtain ⟨-, rfl⟩ := Prod.mk.inj hresult
  exact sameNames_setSegment _

/-- The steps of a constructor: the two opens, and work on its segment. -/
theorem names_of_constructs {action : ConstructorStep}
    (h : Constructs memory action phase phase' memory') :
    NameEffect i memory (.constructor action) phase phase' memory' := by
  cases h with
  | openSegment => exact .openSegment
  | openMutex segment => exact .openMutex segment
  | foundStorage | missedStorage | foundCount | missedCount =>
    exact .work ⟨rfl, rfl, rfl⟩ rfl (Or.inl rfl) rfl (by simp)
  | constructedStorage _ hconstruct =>
    exact .work (sameNames_constructPacketStorage hconstruct) rfl (Or.inl rfl) rfl (by simp)
  | constructedCount _ _ hconstruct =>
    exact .work (sameNames_constructReferenceCount hconstruct) rfl (Or.inl rfl) rfl (by simp)
  | takenStorage | takenCount =>
    exact .work ⟨rfl, rfl, rfl⟩ rfl (Or.inr rfl) rfl (by simp)
  | increment _ hincrement =>
    exact .work (sameNames_addReferenceCount hincrement) rfl (Or.inl rfl) rfl (by simp)

/-- What every step does to the names. -/
theorem names_of_performs {action : ProcessStep} (h : Performs i memory action phase phase' memory') :
    NameEffect i memory action phase phase' memory' := by
  cases h with
  | constructor hconstructs => exact names_of_constructs hconstructs
  | lock transport operation hfree => exact .lock transport operation hfree
  | send _ hsend => exact .work (sameNames_send hsend) rfl (Or.inl rfl) rfl (by simp)
  | receive _ hreceive =>
    exact .work (sameNames_receive hreceive) rfl (Or.inl rfl) rfl (by simp)
  | unlock transport => exact .unlock transport
  | decrement _ hdecrement =>
    exact .work (sameNames_addReferenceCount hdecrement) rfl (Or.inr rfl) rfl (by simp)
  | testZero | testNonzero => exact .work ⟨rfl, rfl, rfl⟩ rfl (Or.inr rfl) rfl (by simp)
  | removeSegment transport => exact .removeSegment transport
  | removeMutex transport => exact .removeMutex transport

end SharedMemory

/-! ## Where the storage is -/

namespace Phase

/-- The storage of an object is in its segment. -/
def Placed : Phase → Prop
  | .hasStorage segment _ storage => storage.segment = segment
  | .missedCount segment _ storage => storage.segment = segment
  | .hasCount transport => transport.packetStorage.segment = transport.segment
  | .live transport => transport.packetStorage.segment = transport.segment
  | .locked transport _ => transport.packetStorage.segment = transport.segment
  | _ => True

end Phase

namespace SharedMemory

variable {ι : Type*} {memory memory' : SharedMemory ι} {i : ι} {phase phase' : Phase}

/-- A constructor takes the storage from its segment. -/
theorem placed_of_constructs {action : ConstructorStep} (hplaced : phase.Placed)
    (h : Constructs memory action phase phase' memory') : phase'.Placed := by
  cases h with
  | openSegment | openMutex | missedStorage | takenStorage | takenCount => trivial
  | foundStorage _ hfind =>
    obtain ⟨address, -, rfl⟩ := Option.map_eq_some_iff.mp hfind
    exact rfl
  | constructedStorage _ hconstruct =>
    obtain ⟨object, -, hresult⟩ := Option.map_eq_some_iff.mp hconstruct
    obtain ⟨rfl, -⟩ := Prod.mk.inj hresult
    exact rfl
  | foundCount | missedCount | constructedCount | increment => exact hplaced

/-- No step moves a storage. -/
theorem placed_of_performs {action : ProcessStep} (hplaced : phase.Placed)
    (h : Performs i memory action phase phase' memory') : phase'.Placed := by
  cases h with
  | constructor hconstructs => exact placed_of_constructs hplaced hconstructs
  | lock | send | receive | unlock => exact hplaced
  | decrement | testZero | testNonzero | removeSegment | removeMutex => trivial

end SharedMemory

/-- In every run, every object has its storage in its segment. -/
theorem ShmProcesses.placed_of_run {ι : Type*} [DecidableEq ι] {start world : ShmProcesses ι}
    {actions : List (ι × ProcessStep)} (habsent : ∀ i, start.phase i = .absent)
    (hrun : Transition.run ShmProcesses.step start actions = some world) :
    ∀ i, (world.phase i).Placed := by
  have hstart : ∀ i, (start.phase i).Placed := by
    intro i
    rw [habsent i]
    trivial
  apply Transition.invariant (fun world => ∀ i, (world.phase i).Placed) hstart _ hrun
  rintro world ⟨j, action⟩ world' hplaced hstep i
  obtain ⟨phase, memory, hperform, rfl⟩ := step_eq_some.mp hstep
  by_cases hij : i = j
  · subst hij
    simpa using SharedMemory.placed_of_performs (hplaced i) (SharedMemory.performs_of_perform hperform)
  · simpa [hij] using hplaced i

/-! ## The invariant -/

namespace ShmProcesses

variable {ι : Type*}

/-- Nobody can get to a segment any more: its name is gone, and no constructor that has opened it is
about to open its mutex. -/
def Closed (world : ShmProcesses ι) (segment : ℕ) : Prop :=
  world.memory.segments.bound ≠ some segment ∧
    ∀ i, (world.phase i).opening? ≠ some segment

/-- Segments and mutexes belong together. -/
structure Paired (world : ShmProcesses ι) : Prop where
  /-- The segment name leads to a segment. -/
  segments : world.memory.segments.WellFormed
  /-- The mutex name leads to a mutex. -/
  mutexes : world.memory.mutexes.WellFormed
  /-- Handles lead to a segment and a mutex. -/
  handles : ∀ i segment mutex, (world.phase i).handles? = some (segment, mutex) →
    segment < world.memory.segments.created ∧ mutex < world.memory.mutexes.created
  /-- So does the segment of an object without a mutex. -/
  opening : ∀ i segment, (world.phase i).opening? = some segment →
    segment < world.memory.segments.created
  /-- Who holds a mutex holds the one of the name, or is on a closed segment. -/
  guarded : ∀ i segment mutex, (world.phase i).handles? = some (segment, mutex) →
    world.memory.mutexes.bound = some mutex ∨ world.Closed segment
  /-- All objects on a segment hold the same mutex. -/
  agree : ∀ i j segment mutex mutex', (world.phase i).handles? = some (segment, mutex) →
    (world.phase j).handles? = some (segment, mutex') → mutex = mutex'
  /-- Who is inside owns the mutex. -/
  owner : ∀ i mutex, (world.phase i).inside? = some mutex →
    world.memory.mutexes.object mutex = some i

/-- The mutex under the name is used by nobody, or only on closed segments. -/
def MutexUnused (world : ShmProcesses ι) (action : ι × ProcessStep) : Prop :=
  action.2 = .removeMutex → ∀ i segment mutex,
    (world.phase i).handles? = some (segment, mutex) →
      world.memory.mutexes.bound = some mutex → world.Closed segment

instance [Fintype ι] (world : ShmProcesses ι) (segment : ℕ) : Decidable (world.Closed segment) :=
  inferInstanceAs (Decidable (world.memory.segments.bound ≠ some segment ∧
    ∀ i, (world.phase i).opening? ≠ some segment))

/-- Whether the mutex is unused is decided on the objects that hold one. -/
instance [Fintype ι] (world : ShmProcesses ι) (action : ι × ProcessStep) :
    Decidable (world.MutexUnused action) :=
  decidable_of_iff (action.2 = .removeMutex → ∀ i, ∀ handles ∈ (world.phase i).handles?,
      world.memory.mutexes.bound = some handles.2 → world.Closed handles.1)
    ⟨fun h hremove i segment mutex hi => h hremove i (segment, mutex) hi,
      fun h hremove i handles hi => h hremove i handles.1 handles.2 hi⟩

namespace Paired

variable {world world' : ShmProcesses ι}

/-- Steps that open nothing keep the invariant, if they keep the mutex name for those who rely on it
and the locks for those who are inside. -/
theorem of_no_open (h : Paired world)
    (hhandles : ∀ j handles, (world'.phase j).handles? = some handles →
      (world.phase j).handles? = some handles)
    (hopening : ∀ j segment, (world'.phase j).opening? = some segment →
      (world.phase j).opening? = some segment)
    (hbound : ∀ segment, world'.memory.segments.bound = some segment →
      world.memory.segments.bound = some segment)
    (hcreated : world'.memory.segments.created = world.memory.segments.created)
    (hmutexes : world'.memory.mutexes.WellFormed)
    (hmutexCreated : world'.memory.mutexes.created = world.memory.mutexes.created)
    (hguarded : ∀ j segment mutex, (world.phase j).handles? = some (segment, mutex) →
      world.memory.mutexes.bound = some mutex →
        world'.memory.mutexes.bound = some mutex ∨ world.Closed segment)
    (howner : ∀ j mutex, (world'.phase j).inside? = some mutex →
      world'.memory.mutexes.object mutex = some j) : Paired world' where
  segments := by
    intro segment hsegment
    rw [hcreated]
    exact h.segments segment (hbound segment hsegment)
  mutexes := hmutexes
  handles i segment mutex hi := by
    rw [hcreated, hmutexCreated]
    exact h.handles i segment mutex (hhandles i _ hi)
  opening i segment hi := by
    rw [hcreated]
    exact h.opening i segment (hopening i segment hi)
  guarded i segment mutex hi := by
    have hold := hhandles i _ hi
    have hclosed : world.Closed segment → world'.Closed segment := fun hclosed =>
      ⟨fun hsegment => hclosed.1 (hbound segment hsegment),
        fun j hj => hclosed.2 j (hopening j segment hj)⟩
    rcases h.guarded i segment mutex hold with hname | hname
    · exact (hguarded i segment mutex hold hname).imp_right hclosed
    · exact Or.inr (hclosed hname)
  agree i j segment mutex mutex' hi hj :=
    h.agree i j segment mutex mutex' (hhandles i _ hi) (hhandles j _ hj)
  owner := howner

section Steps

variable [DecidableEq ι] {memory : SharedMemory ι} {i : ι} {phase phase' : Phase}

omit world' in
/-- What an object has after a step in which the stepping object gains nothing. -/
theorem feature_of_update {α : Type*} {feature : Phase → Option α} {value : α} {j : ι}
    (hi : world.phase i = phase) (hkeep : feature phase' = feature phase ∨ feature phase' = none)
    (h : feature (Function.update world.phase i phase' j) = some value) :
    feature (world.phase j) = some value := by
  rcases feature_cases h with ⟨rfl, hnew⟩ | ⟨-, hold⟩
  · rcases hkeep with hsame | hnone
    · rw [hi, ← hsame, hnew]
    · rw [hnone] at hnew
      cases hnew
  · exact hold

/-- Opening the segment: a closed segment is not the one opened. -/
theorem openSegment (h : Paired world) (hi : world.phase i = .absent) :
    Paired ⟨world.memory.openSegment.2, Function.update world.phase i
      (.openedSegment world.memory.openSegment.1)⟩ := by
  have hcases : world.memory.segments.bound = some world.memory.openSegment.1 ∨
      (world.memory.segments.bound = none ∧
        world.memory.openSegment.1 = world.memory.segments.created) := Name.openOrCreate_cases
  have hbound : world.memory.openSegment.2.segments.bound = some world.memory.openSegment.1 :=
    Name.bound_openOrCreate
  have hcreated : world.memory.segments.created ≤ world.memory.openSegment.2.segments.created :=
    Name.created_le_openOrCreate
  have hhandles : ∀ j handles, (Function.update world.phase i
      (.openedSegment world.memory.openSegment.1) j).handles? = some handles →
        (world.phase j).handles? = some handles :=
    fun j handles => feature_of_update hi (Or.inr rfl)
  -- a segment that somebody holds is not the one opened if its name is gone
  have hne : ∀ j segment mutex, (world.phase j).handles? = some (segment, mutex) →
      world.Closed segment → segment ≠ world.memory.openSegment.1 := by
    rintro j segment mutex hj hclosed rfl
    rcases hcases with hname | ⟨-, hnew⟩
    · exact hclosed.1 hname
    · have hlt := (h.handles j _ mutex hj).1
      rw [hnew] at hlt
      exact lt_irrefl _ hlt
  refine ⟨h.segments.openOrCreate, h.mutexes, fun j segment mutex hj => ?_, fun j segment hj => ?_,
    fun j segment mutex hj => ?_, fun j k segment mutex mutex' hj hk => ?_, fun j mutex hj => ?_⟩
  · obtain ⟨hsegment, hmutex⟩ := h.handles j segment mutex (hhandles j _ hj)
    exact ⟨lt_of_lt_of_le hsegment hcreated, hmutex⟩
  · rcases feature_cases hj with ⟨-, hnew⟩ | ⟨-, hold⟩
    · obtain rfl : world.memory.openSegment.1 = segment := Option.some.inj hnew
      exact Name.openOrCreate_lt h.segments
    · exact lt_of_lt_of_le (h.opening j segment hold) hcreated
  · have hold := hhandles j _ hj
    refine (h.guarded j segment mutex hold).imp_right fun hclosed => ⟨?_, fun k hk => ?_⟩
    · rw [hbound]
      intro hname
      exact hne j segment mutex hold hclosed (Option.some.inj hname).symm
    · rcases feature_cases hk with ⟨-, hnew⟩ | ⟨-, hopening⟩
      · exact hne j segment mutex hold hclosed (Option.some.inj hnew).symm
      · exact hclosed.2 k hopening
  · exact h.agree j k segment mutex mutex' (hhandles j _ hj) (hhandles k _ hk)
  · exact h.owner j mutex (feature_of_update hi (Or.inr rfl) hj)

/-- Opening the mutex: the others on the segment hold the mutex under the name, since the segment is
not closed. -/
theorem openMutex (h : Paired world) {opened : ℕ} (hi : world.phase i = .openedSegment opened) :
    Paired ⟨world.memory.openMutex.2, Function.update world.phase i
      (.openedMutex opened world.memory.openMutex.1)⟩ := by
  have hbound : world.memory.openMutex.2.mutexes.bound = some world.memory.openMutex.1 :=
    Name.bound_openOrCreate
  have hcreated : world.memory.mutexes.created ≤ world.memory.openMutex.2.mutexes.created :=
    Name.created_le_openOrCreate
  have hname : ∀ mutex, world.memory.mutexes.bound = some mutex →
      world.memory.openMutex.1 = mutex := fun mutex => Name.openOrCreate_eq
  have hopening : ∀ j segment, (Function.update world.phase i
      (.openedMutex opened world.memory.openMutex.1) j).opening? = some segment →
        (world.phase j).opening? = some segment :=
    fun j segment => feature_of_update hi (Or.inr rfl)
  -- a holder after the step holds the mutex under the name on the segment, or held another segment
  have hhandles : ∀ j segment mutex, (Function.update world.phase i
      (.openedMutex opened world.memory.openMutex.1) j).handles? = some (segment, mutex) →
        (segment = opened ∧ mutex = world.memory.openMutex.1) ∨
          (segment ≠ opened ∧ (world.phase j).handles? = some (segment, mutex)) := by
    intro j segment mutex hj
    rcases feature_cases hj with ⟨-, hnew⟩ | ⟨-, hold⟩
    · obtain ⟨rfl, rfl⟩ := Prod.mk.inj (Option.some.inj hnew)
      exact Or.inl ⟨rfl, rfl⟩
    · by_cases hsegment : segment = opened
      · subst hsegment
        rcases h.guarded j segment mutex hold with hmutex | hclosed
        · exact Or.inl ⟨rfl, (hname mutex hmutex).symm⟩
        · exact absurd (by rw [hi]; rfl) (hclosed.2 i)
      · exact Or.inr ⟨hsegment, hold⟩
  refine ⟨h.segments, h.mutexes.openOrCreate, fun j segment mutex hj => ?_,
    fun j segment hj => h.opening j segment (hopening j segment hj),
    fun j segment mutex hj => ?_, fun j k segment mutex mutex' hj hk => ?_, fun j mutex hj => ?_⟩
  · rcases hhandles j segment mutex hj with ⟨rfl, rfl⟩ | ⟨-, hold⟩
    · exact ⟨h.opening i segment (by rw [hi]; rfl), Name.openOrCreate_lt h.mutexes⟩
    · obtain ⟨hsegment, hmutex⟩ := h.handles j segment mutex hold
      exact ⟨hsegment, lt_of_lt_of_le hmutex hcreated⟩
  · rcases hhandles j segment mutex hj with ⟨-, rfl⟩ | ⟨-, hold⟩
    · exact Or.inl hbound
    · rcases h.guarded j segment mutex hold with hmutex | hclosed
      · exact Or.inl (by rw [← hname mutex hmutex]; exact hbound)
      · exact Or.inr ⟨hclosed.1, fun k hk => hclosed.2 k (hopening k segment hk)⟩
  · rcases hhandles j segment mutex hj with ⟨rfl, rfl⟩ | ⟨hne, hold⟩
    · rcases hhandles k segment mutex' hk with ⟨-, rfl⟩ | ⟨hne, -⟩
      · rfl
      · exact absurd rfl hne
    · rcases hhandles k segment mutex' hk with ⟨heq, -⟩ | ⟨-, hold'⟩
      · exact absurd heq hne
      · exact h.agree j k segment mutex mutex' hold hold'
  · have hold : (world.phase j).inside? = some mutex := feature_of_update hi (Or.inr rfl) hj
    obtain ⟨segment, hheld⟩ := Phase.handles_of_inside hold
    exact (Name.object_openOrCreate (h.handles j segment mutex hheld).2).trans
      (h.owner j mutex hold)

/-- Taking a lock: nobody was inside with this mutex. -/
theorem lock (h : Paired world) {transport : SharedMemoryTransport}
    (hi : world.phase i = .live transport)
    (hfree : world.memory.mutexes.object transport.mutex = none) (operation : Operation) :
    Paired ⟨world.memory.setOwner transport.mutex (some i),
      Function.update world.phase i (.locked transport (some operation))⟩ := by
  refine h.of_no_open (fun j handles => feature_of_update hi (Or.inl rfl))
    (fun j segment => feature_of_update hi (Or.inr rfl)) (fun _ => id) rfl h.mutexes rfl
    (fun _ _ _ _ => Or.inl) fun j mutex hj => ?_
  rcases feature_cases hj with ⟨rfl, hnew⟩ | ⟨-, hold⟩
  · obtain rfl : transport.mutex = mutex := Option.some.inj hnew
    exact Name.object_set_self
  · have howner := h.owner j mutex hold
    have hne : mutex ≠ transport.mutex := by
      rintro rfl
      rw [hfree] at howner
      cases howner
    exact (Name.object_set_of_ne hne).trans howner

/-- Releasing a lock: the others who are inside hold other mutexes. -/
theorem unlock (h : Paired world) {transport : SharedMemoryTransport}
    (hi : world.phase i = .locked transport none) :
    Paired ⟨world.memory.setOwner transport.mutex none,
      Function.update world.phase i (.live transport)⟩ := by
  refine h.of_no_open (fun j handles => feature_of_update hi (Or.inl rfl))
    (fun j segment => feature_of_update hi (Or.inr rfl)) (fun _ => id) rfl h.mutexes rfl
    (fun _ _ _ _ => Or.inl) fun j mutex hj => ?_
  rcases feature_cases hj with ⟨-, hnew⟩ | ⟨hji, hold⟩
  · cases hnew
  · have howner := h.owner j mutex hold
    have hne : mutex ≠ transport.mutex := by
      rintro rfl
      have howner' := h.owner i transport.mutex (by rw [hi]; rfl)
      exact hji (Option.some.inj (howner.symm.trans howner'))
    exact (Name.object_set_of_ne hne).trans howner

/-- Every step keeps the invariant, where a removal of the mutex name finds its mutex unused. -/
theorem step (h : Paired world) {action : ι × ProcessStep} (hunused : MutexUnused world action)
    (hstep : world.step action = some world') : Paired world' := by
  obtain ⟨i, action⟩ := action
  obtain ⟨phase', memory', hperform, rfl⟩ := step_eq_some.mp hstep
  obtain ⟨phase, hi⟩ : ∃ phase, world.phase i = phase := ⟨_, rfl⟩
  rw [hi] at hperform
  cases SharedMemory.names_of_performs (SharedMemory.performs_of_perform hperform) with
  | openSegment => exact h.openSegment hi
  | openMutex opened => exact h.openMutex hi
  | lock transport operation hfree => exact h.lock hi hfree operation
  | unlock transport => exact h.unlock hi
  | removeSegment transport =>
    refine h.of_no_open (fun j handles => feature_of_update hi (Or.inr rfl))
      (fun j segment => feature_of_update hi (Or.inr rfl)) ?_ rfl h.mutexes rfl
      (fun _ _ _ _ => Or.inl) ?_
    · intro segment hnone
      cases hnone
    · intro j mutex hj
      exact h.owner j mutex (feature_of_update hi (Or.inr rfl) hj)
  | removeMutex transport =>
    -- the only step that takes the mutex from under the name: here the condition is needed
    refine h.of_no_open (fun j handles => feature_of_update hi (Or.inr rfl))
      (fun j segment => feature_of_update hi (Or.inr rfl)) (fun _ => id) rfl
      Name.WellFormed.remove rfl ?_ ?_
    · intro j segment mutex hj hbound
      exact Or.inr (hunused rfl j segment mutex hj hbound)
    · intro j mutex hj
      exact h.owner j mutex (feature_of_update hi (Or.inr rfl) hj)
  | work hnames hopening hhandles hinside haction =>
    refine h.of_no_open (fun j handles => feature_of_update hi hhandles)
      (fun j segment => feature_of_update hi (Or.inr hopening)) ?_ hnames.created ?_ ?_ ?_ ?_
    · intro segment hbound
      rwa [← hnames.bound]
    · rw [hnames.mutexes]
      exact h.mutexes
    · rw [hnames.mutexes]
    · intro j segment mutex hj hbound
      rw [hnames.mutexes]
      exact Or.inl hbound
    · intro j mutex hj
      rw [hnames.mutexes]
      exact h.owner j mutex (feature_of_update hi (Or.inl hinside) hj)

end Steps

/-- The invariant after every run in which the mutex name is only removed while its mutex is
unused. -/
theorem of_run [DecidableEq ι] {start world : ShmProcesses ι} {actions : List (ι × ProcessStep)}
    (habsent : ∀ i, start.phase i = .absent) (hsegments : start.memory.segments.WellFormed)
    (hmutexes : start.memory.mutexes.WellFormed)
    (hmeets : Transition.Meets ShmProcesses.step MutexUnused start actions)
    (hrun : Transition.run ShmProcesses.step start actions = some world) : Paired world := by
  refine Transition.invariant_of_meets ⟨hsegments, hmutexes, ?_, ?_, ?_, ?_, ?_⟩
    (fun s action s' h hunused hstep => h.step hunused hstep) hmeets hrun <;>
    simp [habsent, Phase.handles?, Phase.opening?, Phase.inside?]

end Paired

end ShmProcesses

/-- **Mutual exclusion.** In every run of any number of objects, from any memory in which none is
attached, in which the mutex name is removed only while its mutex is unused: two objects that are
constructed and not being destroyed hold the same mutex if they are on the same segment, and are never
both inside `Send` or `Receive` on the same storage. -/
theorem mutual_exclusion {ι : Type*} [DecidableEq ι] (start world : ShmProcesses ι)
    (actions : List (ι × ProcessStep)) (habsent : ∀ i, start.phase i = .absent)
    (hsegments : start.memory.segments.WellFormed) (hmutexes : start.memory.mutexes.WellFormed)
    (hmeets : Transition.Meets ShmProcesses.step ShmProcesses.MutexUnused start actions)
    (hrun : Transition.run ShmProcesses.step start actions = some world)
    (i j : ι) (first second : SharedMemoryTransport)
    (hi : world.phase i = .live first ∨ ∃ left, world.phase i = .locked first left)
    (hj : world.phase j = .live second ∨ ∃ left, world.phase j = .locked second left) :
    (first.segment = second.segment → first.mutex = second.mutex) ∧
      ((∃ left, world.phase i = .locked first left) → (∃ left, world.phase j = .locked second left) →
        first.packetStorage = second.packetStorage → i = j) := by
  have hpaired := ShmProcesses.Paired.of_run habsent hsegments hmutexes hmeets hrun
  have hfirst : (world.phase i).handles? = some (first.segment, first.mutex) := by
    rcases hi with hphase | ⟨left, hphase⟩ <;> rw [hphase] <;> rfl
  have hsecond : (world.phase j).handles? = some (second.segment, second.mutex) := by
    rcases hj with hphase | ⟨left, hphase⟩ <;> rw [hphase] <;> rfl
  have hmutex : first.segment = second.segment → first.mutex = second.mutex := by
    intro hsegment
    exact hpaired.agree i j first.segment first.mutex second.mutex hfirst
      (by rw [hsegment]; exact hsecond)
  refine ⟨hmutex, fun ⟨left, hlocked⟩ ⟨left', hlocked'⟩ hstorage => ?_⟩
  -- on the same storage they are on the same segment, and one mutex has one owner
  have hplaced : first.packetStorage.segment = first.segment := by
    simpa only [hlocked, Phase.Placed] using ShmProcesses.placed_of_run habsent hrun i
  have hplaced' : second.packetStorage.segment = second.segment := by
    simpa only [hlocked', Phase.Placed] using ShmProcesses.placed_of_run habsent hrun j
  have hsegment : first.segment = second.segment := by rw [← hplaced, ← hplaced', hstorage]
  have howner := hpaired.owner i first.mutex (by rw [hlocked]; rfl)
  have howner' := hpaired.owner j second.mutex (by rw [hlocked']; rfl)
  rw [← hmutex hsegment, howner] at howner'
  exact Option.some.inj howner'

/-- The steps of a constructor that creates the segment. -/
def creation {ι : Type*} (i : ι) : List (ι × ProcessStep) :=
  [.openSegment, .openMutex, .findPacketStorage, .constructPacketStorage, .findReferenceCount,
    .constructReferenceCount, .increment].map fun step => (i, .constructor step)

/-- The steps of a constructor that finds everything. -/
def attachment {ι : Type*} (i : ι) : List (ι × ProcessStep) :=
  [.openSegment, .openMutex, .findPacketStorage, .findReferenceCount, .increment].map fun step =>
    (i, .constructor step)

/-- The first object tests the count, the second attaches, and the first removes both names; the others
make a new segment with a new mutex. -/
def teardown : List (Fin 4 × ProcessStep) :=
  creation 0 ++ [(0, .decrement), (0, .testZero)] ++ attachment 1 ++
    [(0, .removeSegment), (0, .removeMutex)] ++ creation 2 ++ attachment 3

/-- The mutex that is removed is used on the closed segment only. Of the two objects on the new segment one
is inside, and the other one waits. -/
theorem mutual_exclusion_teardown :
    ∃ world first second, Transition.run ShmProcesses.step
        (⟨.empty, fun _ => .absent⟩ : ShmProcesses (Fin 4)) (teardown ++ [(2, .lock .receive)])
          = some world ∧
      world.phase 2 = .locked first (some .receive) ∧ world.phase 3 = .live second ∧
      first.segment = second.segment ∧ first.mutex = second.mutex := by
  have hmeets : Transition.Meets ShmProcesses.step ShmProcesses.MutexUnused
      (⟨.empty, fun _ => .absent⟩ : ShmProcesses (Fin 4)) (teardown ++ [(2, .lock .receive)]) := by
    decide
  refine ⟨_, _, _, rfl, rfl, rfl, rfl, ?_⟩
  exact (mutual_exclusion (⟨.empty, fun _ => .absent⟩ : ShmProcesses (Fin 4)) _
    (teardown ++ [(2, .lock .receive)]) (fun _ => rfl) (fun _ h => by cases h)
    (fun _ h => by cases h) hmeets rfl 2 3 _ _ (Or.inr ⟨_, rfl⟩) (Or.inl rfl)).1 rfl

/-- A destructor removes the segment name; a constructor gets a new segment with the old mutex; the
destructor removes the mutex name; the next constructor joins the new segment with a new mutex. The
last two objects are inside at once. -/
theorem mutual_exclusion_lost :
    ∃ world first second left left', Transition.run ShmProcesses.step
        (⟨.empty, fun _ => .absent⟩ : ShmProcesses (Fin 3))
        (creation 0 ++ [(0, .decrement), (0, .testZero), (0, .removeSegment)] ++ creation 1 ++
          [(0, .removeMutex)] ++ attachment 2 ++ [(1, .lock .receive), (2, .lock .receive)])
          = some world ∧
      world.phase 1 = .locked first left ∧ world.phase 2 = .locked second left' ∧
      first.segment = second.segment ∧ first.mutex ≠ second.mutex ∧
      first.packetStorage = second.packetStorage :=
  ⟨_, _, _, _, _, rfl, rfl, rfl, rfl, by decide, rfl⟩

end Contra
