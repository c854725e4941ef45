import Contra.FileDelivery
import Contra.SharedMemoryLifecycle

/-! # The two local transports side by side

The same calls on two endpoints, once over a file and once over shared memory. Shared memory is a
queue: a `Receive` returns what was sent since the last one. A file is a log: a `Receive` returns what
was sent since the last first send of an endpoint, as often as it is called.
`transports_agree_iff` says at which calls the two return the same. -/

namespace Contra

open FileStream

/-! ## Shared memory as a queue -/

namespace ShmWorld

variable {ι : Type*} [DecidableEq ι]

/-- The storage is the queue of the packets sent since the last receive. -/
def Queues (transport : SharedMemoryTransport) (count : ℤ) (earlier : List (Call ι))
    (world : ShmWorld ι) : Prop :=
  ∃ storage, world.memory.Serves transport storage count ∧
    storage.map InternalPacket.toPacket = Call.sinceReceive earlier

/-- Calls of endpoints that are all attached to one segment keep the queue. -/
theorem queues_of_run {transport : SharedMemoryTransport} {count : ℤ} {start world : ShmWorld ι}
    {calls : List (Call ι)} (hserves : start.memory.Serves transport [] count)
    (hattached : ∀ i, start.transports i = some transport)
    (hrun : Transition.run (fun world call => step world (.call call)) start calls = some world) :
    world.Queues transport count calls.reverse ∧ ∀ i, world.transports i = some transport := by
  refine Transition.run_induction (fun calls world => world.Queues transport count calls.reverse ∧
    ∀ i, world.transports i = some transport) ?_ ?_ hrun
  · exact ⟨⟨[], hserves, rfl⟩, hattached⟩
  · rintro calls call world world' - ⟨⟨storage, hserves, hqueue⟩, hattached⟩ hstep
    rw [List.reverse_append, List.reverse_singleton, List.singleton_append]
    cases call with
    | send i packet =>
      simp only [step, hattached, Option.bind_some, hserves.stores.send, Option.map_some] at hstep
      obtain rfl := Option.some.inj hstep
      refine ⟨⟨_, hserves.storePacketStorage _, ?_⟩, hattached⟩
      rw [List.map_append, hqueue, Call.sinceReceive_send]
      rfl
    | receive i =>
      simp only [step, hattached, Option.bind_some, hserves.stores.receive, Option.map_some] at hstep
      obtain rfl := Option.some.inj hstep
      exact ⟨⟨[], hserves.storePacketStorage _, rfl⟩, hattached⟩

omit [DecidableEq ι] in
/-- A receive returns the queue. -/
theorem Queues.received_eq {transport : SharedMemoryTransport} {count : ℤ}
    {earlier : List (Call ι)} {world : ShmWorld ι} (h : world.Queues transport count earlier)
    {i : ι} (hi : world.transports i = some transport) :
    world.received i = some (Call.sinceReceive earlier) := by
  obtain ⟨storage, hserves, hqueue⟩ := h
  rw [received, hi, Option.bind_some, hserves.stores.receive, Option.map_some, hqueue]

/-- Two endpoints that are constructed without a segment share one, which is empty. -/
theorem construct_two {start world : ShmWorld Bool} (hunbound : start.memory.segments.bound = none)
    (hnone : ∀ i, start.transports i = none)
    (hrun : Transition.run step start [.construct false, .construct true] = some world) :
    ∃ transport count, world.memory.Serves transport [] count ∧
      ∀ i, world.transports i = some transport := by
  obtain ⟨transport, memory, hconstruct, hserves, -⟩ :=
    SharedMemory.construct_of_unbound hunbound
  obtain ⟨middle, hfirst, hrest⟩ := Transition.run_cons_eq_some.mp hrun
  obtain ⟨last, hsecond, hlast⟩ := Transition.run_cons_eq_some.mp hrest
  obtain rfl : last = world := Option.some.inj hlast
  rw [step_construct start (hnone false), hconstruct] at hfirst
  have hmiddle : middle = ⟨memory, Function.update start.transports false (some transport)⟩ :=
    (Option.some.inj hfirst).symm
  have hother : Function.update start.transports false (some transport) true
      = start.transports true := Function.update_of_ne (by decide) _ _
  have hfree : middle.transports true = none := by
    rw [hmiddle]
    exact hother.trans (hnone true)
  rw [step_construct middle hfree, hmiddle, hserves.construct] at hsecond
  obtain rfl := Option.some.inj hsecond
  refine ⟨transport, _, hserves.storeReferenceCount _, fun i => ?_⟩
  cases i
  · rfl
  · rfl

end ShmWorld

/-! ## Side by side -/

/-- **A queue and a log.** After the same calls of two endpoints over a file and over shared memory, a
`Receive` returns over shared memory the packets sent since the last `Receive`, and over a file those
sent since the last first send of an endpoint. The two are the same exactly when both are equally
many. -/
theorem transports_agree_iff (filename : String) (startFile file : FileWorld Bool)
    (startShm shm : ShmWorld Bool) (calls : List (Call Bool))
    (hfresh : ∀ i, startFile.transports i = ⟨filename, true⟩)
    (hmissing : startFile.disk filename = none)
    (hunbound : startShm.memory.segments.bound = none) (hnone : ∀ i, startShm.transports i = none)
    (hsized : ∀ i packet, Call.send i packet ∈ calls →
      packet.schema.length + packet.data.length + 16 < 2 ^ 63)
    (hfile : Transition.run (FileWorld.step addressable) startFile calls = some file)
    (hshm : Transition.run ShmWorld.step startShm
      (.construct false :: .construct true :: calls.map ShmAction.call) = some shm) (i : Bool) :
    shm.received i = some (Call.sinceReceive calls.reverse) ∧
    (file.transports i).receive addressable file.disk = .ok (Call.sinceFirstSend calls.reverse) ∧
    ((∃ packets, shm.received i = some packets ∧
        (file.transports i).receive addressable file.disk = .ok packets)
      ↔ (Call.sinceFirstSend calls.reverse).length = (Call.sinceReceive calls.reverse).length) := by
  have hsplit : ShmAction.construct false :: .construct true :: calls.map ShmAction.call
      = [.construct false, .construct true] ++ calls.map ShmAction.call := rfl
  rw [hsplit, Transition.run_append, Option.bind_eq_some_iff] at hshm
  obtain ⟨attached, hconstruct, hcalls⟩ := hshm
  obtain ⟨transport, count, hserves, hall⟩ := ShmWorld.construct_two hunbound hnone hconstruct
  rw [Transition.run_map] at hcalls
  obtain ⟨hqueues, hattached⟩ := ShmWorld.queues_of_run hserves hall hcalls
  have hqueue := hqueues.received_eq (hattached i)
  have hlog : (file.transports i).receive addressable file.disk
      = .ok (Call.sinceFirstSend calls.reverse) := by
    have htracks := FileWorld.tracks_of_run hfresh hsized hfile
    by_cases hsent : ∃ j, Call.hasSent j calls.reverse = true
    · refine htracks.receive_eq (fun packet hmem => ?_) hsent i
      obtain ⟨j, hj⟩ := Call.exists_send_of_mem_sinceFirstSend hmem
      exact hsized j packet (List.mem_reverse.mp hj)
    · -- nothing was sent, so there is no file
      have hnever : ∀ j, Call.hasSent j calls.reverse = false := by
        intro j
        simpa using fun hj => hsent ⟨j, hj⟩
      rw [FileTransport.receive, htracks.transport i, htracks.untouched hnever, hmissing,
        receiveContent_none, Call.sinceFirstSend_eq_nil hnever]
  refine ⟨hqueue, hlog, ?_⟩
  rw [← Call.sinceFirstSend_eq_sinceReceive_iff, hqueue, hlog]
  constructor
  · rintro ⟨packets, hshm, hfile⟩
    rw [Option.some.inj hshm, Except.ok.inj hfile]
  · intro heq
    exact ⟨_, rfl, by rw [heq]⟩

/-- After one send the first `Receive` returns the packet from either transport. -/
theorem transports_agree_iff_first_receive :
    ∃ file shm, Transition.run (FileWorld.step addressable)
        (⟨fun _ => none, fun _ => ⟨"tmp.contra", true⟩⟩ : FileWorld Bool)
        [.send false ⟨[65], [1]⟩] = some file ∧
      Transition.run ShmWorld.step (⟨.empty, fun _ => none⟩ : ShmWorld Bool)
        (.construct false :: .construct true :: [Call.send false ⟨[65], [1]⟩].map ShmAction.call)
        = some shm ∧
      ∃ packets, shm.received true = some packets ∧
        (file.transports true).receive addressable file.disk = .ok packets := by
  refine ⟨_, _, rfl, rfl, ?_⟩
  exact (transports_agree_iff "tmp.contra"
    (⟨fun _ => none, fun _ => ⟨"tmp.contra", true⟩⟩ : FileWorld Bool) _
    (⟨.empty, fun _ => none⟩ : ShmWorld Bool) _ [.send false ⟨[65], [1]⟩] (fun _ => rfl) rfl rfl
    (fun _ => rfl) (by simp) rfl rfl true).2.2.mpr rfl

/-- The second of two receives: nothing from the queue, the packet again from the file. -/
theorem transports_disagree :
    ∃ file shm, Transition.run (FileWorld.step addressable)
        (⟨fun _ => none, fun _ => ⟨"tmp.contra", true⟩⟩ : FileWorld Bool)
        [.send false ⟨[65], [1]⟩, .receive true] = some file ∧
      Transition.run ShmWorld.step (⟨.empty, fun _ => none⟩ : ShmWorld Bool)
        (.construct false :: .construct true ::
          [Call.send false ⟨[65], [1]⟩, .receive true].map ShmAction.call) = some shm ∧
      shm.received true = some [] ∧
      (file.transports true).receive addressable file.disk = .ok [⟨[65], [1]⟩] := by
  have hcontent : receiveContent (deserialize addressable) addressable
      (some (kSignature ++ Packet.frames [⟨[65], [1]⟩])) = .ok [⟨[65], [1]⟩] :=
    receiveContent_frames (by decide)
  obtain ⟨file, hfile, hreceive⟩ : ∃ file, Transition.run (FileWorld.step addressable)
      (⟨fun _ => none, fun _ => ⟨"tmp.contra", true⟩⟩ : FileWorld Bool)
      [.send false ⟨[65], [1]⟩] = some file ∧
      (file.transports true).receive addressable file.disk = .ok [⟨[65], [1]⟩] :=
    ⟨_, rfl, hcontent⟩
  have hstep : file.step addressable (.receive true) = some file := by
    rw [FileWorld.step, hreceive]
  exact ⟨file, _, Transition.run_concat_eq_some.mpr ⟨file, hfile, hstep⟩, rfl, rfl, hreceive⟩

end Contra
