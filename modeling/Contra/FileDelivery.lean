import Contra.Calls
import Contra.FileFrames
import Contra.Foundation.Transition

/-! # Delivery through files

Any number of `FileTransport` objects on any filenames, in a run of completed calls in any order. An object
writes and reads its own file only, so every file has the history of the calls on it: `TracksEach` says of
every state that a file is the signature followed by the frames of `Call.sinceFirstSend` of this history,
and that an object's `first_time_sending_` says whether it has sent.

* `files_are_independent` is the result for runs on any filenames;
* `fileTransport_delivers` is the one for runs on one filename, from the invariant for it, `Tracks`. -/

namespace Contra

open FileStream

variable {ι : Type*} [DecidableEq ι]

/-- The disk and the transport objects of a program. -/
structure FileWorld (ι : Type*) where
  /-- The files. -/
  disk : Disk
  /-- The objects. -/
  transports : ι → FileTransport

namespace FileWorld

/-- A completed call, with every open and write successful. A call that throws or reads outside a
buffer does not complete. -/
def step (fits : ℕ → Bool) (world : FileWorld ι) : Call ι → Option (FileWorld ι)
  | .send i packet =>
      match (world.transports i).send fits true packet world.disk with
      | (.ok (), transport, disk) => some ⟨disk, Function.update world.transports i transport⟩
      | (.error _, _, _) => none
  | .receive i =>
      match (world.transports i).receive fits world.disk with
      | .ok _ => some world
      | .error _ => none

/-- A send of a sized packet completes. -/
theorem step_send {packet : Packet} (hsized : packet.Sized) (world : FileWorld ι) (i : ι) :
    world.step addressable (.send i packet) =
      some ⟨Function.update world.disk (world.transports i).filename
          (some (sentContent (world.transports i).firstTimeSending
            (world.disk (world.transports i).filename) packet)),
        Function.update world.transports i { world.transports i with firstTimeSending := false }⟩ := by
  rw [step, send_eq hsized true]
  rfl

/-- A receive that completes changes nothing. -/
theorem eq_of_step_receive {fits : ℕ → Bool} {world world' : FileWorld ι} {i : ι}
    (h : world.step fits (.receive i) = some world') : world' = world := by
  rw [step] at h
  split at h
  · exact (Option.some.inj h).symm
  · cases h

/-- The files and the flags after a history of calls, newest first. -/
structure TracksEach (filename : ι → String) (startDisk : Disk) (earlier : List (Call ι))
    (world : FileWorld ι) : Prop where
  /-- An object's flag says whether it has sent. -/
  transport : ∀ i, world.transports i = ⟨filename i, !Call.hasSent i earlier⟩
  /-- After a send on it, a file is a signed list of frames. -/
  content : ∀ file, (∃ i, filename i = file ∧ Call.hasSent i earlier = true) →
    world.disk file = some (kSignature ++
      Packet.frames (Call.sinceFirstSend (Call.onFile filename file earlier)))
  /-- Before the first send on it, it is the one at the start. -/
  untouched : ∀ file, (∀ i, filename i = file → Call.hasSent i earlier = false) →
    world.disk file = startDisk file

namespace TracksEach

variable {filename : ι → String} {startDisk : Disk} {earlier : List (Call ι)}
  {world world' : FileWorld ι}

theorem send (h : TracksEach filename startDisk earlier world) {packet : Packet}
    (hsized : packet.Sized) {i : ι} (hstep : world.step addressable (.send i packet) = some world') :
    TracksEach filename startDisk (.send i packet :: earlier) world' := by
  rw [step_send hsized, h.transport i] at hstep
  obtain rfl := Option.some.inj hstep
  -- on another file, the objects and the file are as before
  have hother : ∀ {file}, filename i ≠ file → ∀ j, filename j = file →
      Call.hasSent j (.send i packet :: earlier) = Call.hasSent j earlier := by
    rintro file hfile j rfl
    have hij : i ≠ j := fun hij => hfile (by rw [hij])
    rw [Call.hasSent_send, decide_eq_false hij, Bool.false_or]
  refine ⟨fun j => ?_, fun file hsent => ?_, fun file hnone => ?_⟩
  · rw [Call.hasSent_send]
    by_cases hij : i = j
    · subst hij
      simp
    · have hji : j ≠ i := fun hji => hij hji.symm
      simp [hij, hji, h.transport j]
  · by_cases hfile : filename i = file
    · subst hfile
      rw [Call.onFile_cons_of_eq (show filename (Call.send i packet).object = filename i from rfl)]
      simp only [Function.update_self, sentContent, Call.sinceFirstSend, Call.hasSent_onFile rfl]
      cases hi : Call.hasSent i earlier with
      | false => simp
      | true => simp [h.content _ ⟨i, rfl, hi⟩]
    · obtain ⟨j, hj, hsent⟩ := hsent
      rw [hother hfile j hj] at hsent
      rw [Call.onFile_cons_of_ne hfile]
      exact (Function.update_of_ne (Ne.symm hfile) _ _).trans (h.content file ⟨j, hj, hsent⟩)
  · by_cases hfile : filename i = file
    · have hi := hnone i hfile
      simp [Call.hasSent_send] at hi
    · refine (Function.update_of_ne (Ne.symm hfile) _ _).trans (h.untouched file fun j hj => ?_)
      rw [← hother hfile j hj]
      exact hnone j hj

theorem receive (h : TracksEach filename startDisk earlier world) (i : ι) :
    TracksEach filename startDisk (.receive i :: earlier) world := by
  refine ⟨fun j => by rw [Call.hasSent_receive]; exact h.transport j, fun file hsent => ?_, h.untouched⟩
  by_cases hfile : filename i = file
  · rw [Call.onFile_cons_of_eq hfile]
    exact h.content file hsent
  · rw [Call.onFile_cons_of_ne hfile]
    exact h.content file hsent

end TracksEach

/-- The invariant after every run of completed calls that starts with fresh objects. -/
theorem tracksEach_of_run {filename : ι → String} {start world : FileWorld ι} {calls : List (Call ι)}
    (hfresh : ∀ i, start.transports i = ⟨filename i, true⟩)
    (hsized : ∀ i packet, Call.send i packet ∈ calls → packet.Sized)
    (hrun : Transition.run (step addressable) start calls = some world) :
    TracksEach filename start.disk calls.reverse world := by
  have hallowed : ∀ call ∈ calls, ∀ i packet, call = Call.send i packet → packet.Sized := by
    rintro call hmem i packet rfl
    exact hsized i packet hmem
  apply Transition.run_induction_of_forall
    (fun calls world => TracksEach filename start.disk calls.reverse world) _ _ hallowed hrun
  · refine ⟨hfresh, fun file hsent => ?_, fun _ _ => rfl⟩
    obtain ⟨i, -, hi⟩ := hsent
    simp [Call.hasSent] at hi
  · intro calls call world world' _ hprevious hcall hstep
    rw [List.reverse_append, List.reverse_singleton, List.singleton_append]
    cases call with
    | send i packet => exact hprevious.send (hcall i packet rfl) hstep
    | receive i =>
      obtain rfl := eq_of_step_receive hstep
      exact hprevious.receive i

end FileWorld

/-- **Files are independent.** After every run of completed calls of objects on any filenames, a file on
which something was sent is the signature followed by the frames of the packets since the last first send
among the calls on this file, and every receive of an object on it returns these; a file on which nothing
was sent is the one at the start. Calls on other files do not matter. -/
theorem files_are_independent (filename : ι → String) (start world : FileWorld ι)
    (calls : List (Call ι)) (hfresh : ∀ i, start.transports i = ⟨filename i, true⟩)
    (hsized : ∀ i packet, Call.send i packet ∈ calls →
      packet.schema.length + packet.data.length + 16 < 2 ^ 63)
    (hrun : Transition.run (FileWorld.step addressable) start calls = some world) (file : String) :
    ((∃ i packet, filename i = file ∧ Call.send i packet ∈ calls) →
      world.disk file = some (kSignature ++ Packet.frames
          (Call.sinceFirstSend (Call.onFile filename file calls).reverse)) ∧
        ∀ i, filename i = file → (world.transports i).receive addressable world.disk
          = .ok (Call.sinceFirstSend (Call.onFile filename file calls).reverse)) ∧
    ((¬ ∃ i packet, filename i = file ∧ Call.send i packet ∈ calls) →
      world.disk file = start.disk file) := by
  have htracks := FileWorld.tracksEach_of_run hfresh hsized hrun
  have hsent : ∀ i, Call.hasSent i calls.reverse = true ↔ ∃ packet, Call.send i packet ∈ calls := by
    intro i
    simp [Call.hasSent_iff]
  rw [← Call.onFile_reverse]
  constructor
  · rintro ⟨i, packet, hi, hmem⟩
    have hcontent := htracks.content file ⟨i, hi, (hsent i).mpr ⟨packet, hmem⟩⟩
    refine ⟨hcontent, fun j hj => ?_⟩
    have hframed : ∀ packet ∈ Call.sinceFirstSend (Call.onFile filename file calls.reverse),
        packet.Sized := by
      intro packet hpacket
      obtain ⟨k, hk⟩ := Call.exists_send_of_mem_sinceFirstSend hpacket
      exact hsized k packet (List.mem_reverse.mp (List.mem_of_mem_filter hk))
    rw [FileTransport.receive, htracks.transport j]
    dsimp only
    rw [hj, hcontent, receiveContent_frames hframed]
  · intro hnone
    refine htracks.untouched file fun i hi => ?_
    rw [Bool.eq_false_iff]
    intro hsome
    obtain ⟨packet, hmem⟩ := (hsent i).mp hsome
    exact hnone ⟨i, packet, hi, hmem⟩

/-- Two objects on two files, whose sends alternate. -/
theorem files_are_independent_two :
    ∃ world, Transition.run (FileWorld.step addressable)
        (⟨fun _ => none, fun i => ⟨if i then "first.contra" else "second.contra", true⟩⟩ :
          FileWorld Bool)
        [.send true ⟨[65], [1]⟩, .send false ⟨[], [0]⟩, .send true ⟨[66], []⟩] = some world ∧
      (world.transports true).receive addressable world.disk = .ok [⟨[65], [1]⟩, ⟨[66], []⟩] := by
  refine ⟨_, rfl, ?_⟩
  have h := files_are_independent (fun i => if i then "first.contra" else "second.contra")
    (⟨fun _ => none, fun i => ⟨if i then "first.contra" else "second.contra", true⟩⟩ : FileWorld Bool)
    _ [.send true ⟨[65], [1]⟩, .send false ⟨[], [0]⟩, .send true ⟨[66], []⟩] (fun _ => rfl)
    (by simp) rfl "first.contra"
  exact (h.1 ⟨true, ⟨[65], [1]⟩, rfl, by simp⟩).2 true rfl

/-! ## One filename -/

namespace FileWorld

/-- The file and the flags after a history of calls on `filename`, newest first. -/
structure Tracks (filename : String) (startDisk : Disk) (earlier : List (Call ι))
    (world : FileWorld ι) : Prop where
  /-- An object's flag says whether it has sent. -/
  transport : ∀ i, world.transports i = ⟨filename, !Call.hasSent i earlier⟩
  /-- After a send the file is a signed list of frames. -/
  content : (∃ i, Call.hasSent i earlier = true) →
    world.disk filename = some (kSignature ++ Packet.frames (Call.sinceFirstSend earlier))
  /-- Before the first send the disk is the one at the start. -/
  untouched : (∀ i, Call.hasSent i earlier = false) → world.disk = startDisk

variable {filename : String} {startDisk : Disk} {earlier : List (Call ι)} {world : FileWorld ι}

/-- The invariant for objects that all have one filename. -/
theorem TracksEach.tracks (h : TracksEach (fun _ => filename) startDisk earlier world) :
    Tracks filename startDisk earlier world where
  transport := h.transport
  content hsent := by
    obtain ⟨i, hi⟩ := hsent
    rw [h.content filename ⟨i, rfl, hi⟩, Call.onFile_const]
  untouched hnone := funext fun file => h.untouched file fun i _ => hnone i

/-- Every receive returns the packets of the file. -/
theorem Tracks.receive_eq (h : Tracks filename startDisk earlier world)
    (hsized : ∀ packet ∈ Call.sinceFirstSend earlier, packet.Sized)
    (hsent : ∃ i, Call.hasSent i earlier = true) (i : ι) :
    (world.transports i).receive addressable world.disk = .ok (Call.sinceFirstSend earlier) := by
  rw [FileTransport.receive, h.transport i, h.content hsent, receiveContent_frames hsized]

/-- The invariant after every run of completed calls that starts with fresh objects. -/
theorem tracks_of_run {start : FileWorld ι} {calls : List (Call ι)}
    (hfresh : ∀ i, start.transports i = ⟨filename, true⟩)
    (hsized : ∀ i packet, Call.send i packet ∈ calls → packet.Sized)
    (hrun : Transition.run (step addressable) start calls = some world) :
    Tracks filename start.disk calls.reverse world := (tracksEach_of_run hfresh hsized hrun).tracks

end FileWorld

/-- **Delivery through a file, over whole runs.** After at least one send the file is the signature
followed by the frames of the packets since the last first send, and every receive returns exactly
these packets and changes nothing; before the first send the disk is untouched. -/
theorem fileTransport_delivers (filename : String) (start world : FileWorld ι)
    (calls : List (Call ι)) (hfresh : ∀ i, start.transports i = ⟨filename, true⟩)
    (hsized : ∀ i packet, Call.send i packet ∈ calls →
      packet.schema.length + packet.data.length + 16 < 2 ^ 63)
    (hrun : Transition.run (FileWorld.step addressable) start calls = some world) :
    ((∃ i packet, Call.send i packet ∈ calls) →
      world.disk filename
          = some (kSignature ++ (Call.sinceFirstSend calls.reverse).flatMap fun packet =>
              LittleEndian.encode 8 packet.message.length ++ packet.message) ∧
        (∀ packet ∈ Call.sinceFirstSend calls.reverse,
          serializePacket addressable packet = .ok packet.message) ∧
        ∀ i, (world.transports i).receive addressable world.disk
            = .ok (Call.sinceFirstSend calls.reverse) ∧
          world.step addressable (.receive i) = some world) ∧
    ((¬ ∃ i packet, Call.send i packet ∈ calls) → world.disk = start.disk) := by
  have htracks := FileWorld.tracks_of_run hfresh hsized hrun
  have hsent : ∀ i, Call.hasSent i calls.reverse = true ↔ ∃ packet, Call.send i packet ∈ calls := by
    intro i
    simp [Call.hasSent_iff]
  have hframed : ∀ packet ∈ Call.sinceFirstSend calls.reverse, packet.Sized := by
    intro packet hmem
    obtain ⟨i, hi⟩ := Call.exists_send_of_mem_sinceFirstSend hmem
    exact hsized i packet (List.mem_reverse.mp hi)
  constructor
  · rintro ⟨i, packet, hmem⟩
    have hsome : ∃ i, Call.hasSent i calls.reverse = true := ⟨i, (hsent i).mpr ⟨packet, hmem⟩⟩
    refine ⟨?_, fun packet hmem => ?_, fun j => ?_⟩
    · rw [htracks.content hsome, Packet.frames]
      simp only [Packet.length_message]
      rfl
    · have hsize : packet.messageSize < 2 ^ 63 := hframed packet hmem
      exact serializePacket_eq (by omega) (addressable_eq_true.mpr hsize)
    · have hreceive := htracks.receive_eq hframed hsome j
      exact ⟨hreceive, by rw [FileWorld.step, hreceive]⟩
  · intro hnone
    refine htracks.untouched fun i => ?_
    rw [Bool.eq_false_iff]
    intro hi
    obtain ⟨packet, hmem⟩ := (hsent i).mp hi
    exact hnone ⟨i, packet, hmem⟩

/-- Two objects that both send, over a stale file: the second first send starts the file again. -/
theorem fileTransport_delivers_two_objects :
    ∃ world, Transition.run (FileWorld.step addressable)
        (⟨fun _ => some [1, 2, 3], fun _ => ⟨"tmp.contra", true⟩⟩ : FileWorld Bool)
        [.send true ⟨[65], [1]⟩, .send false ⟨[], [0]⟩, .send true ⟨[66], []⟩] = some world ∧
      (world.transports true).receive addressable world.disk
        = .ok [⟨[], [0]⟩, ⟨[66], []⟩] := by
  refine ⟨_, rfl, ?_⟩
  have h := fileTransport_delivers "tmp.contra"
    (⟨fun _ => some [1, 2, 3], fun _ => ⟨"tmp.contra", true⟩⟩ : FileWorld Bool) _
    [.send true ⟨[65], [1]⟩, .send false ⟨[], [0]⟩, .send true ⟨[66], []⟩] (fun _ => rfl)
    (by simp) rfl
  exact ((h.1 ⟨true, ⟨[65], [1]⟩, by simp⟩).2.2 true).1

end Contra
