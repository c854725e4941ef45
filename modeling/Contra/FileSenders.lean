import Contra.FileInterleaving
import Contra.Foundation.PiecewiseWrites

/-! # Senders at the same time

`FileTransport` objects on one filename whose `Send` calls overlap. Each call opens a stream of its own, and
its bytes reach the file in pieces: at the end of the file if the stream was opened with `std::fstream::app`,
and otherwise, which is for the first `Send` of an object, where the stream is. A `Send` takes effect when it
first changes the file.

* `FileSenders.Alone`: nobody changes the file while another is in the middle of its bytes;
* `concurrent_senders`: then the calls might as well have been made one after the other.

Otherwise packets are lost, as in the example at the end. -/

namespace Contra

open CheckedMemory FileStream PiecewiseWrites

/-- The stream of a `Send`. -/
structure SendStream where
  /-- What it sends. -/
  packet : Packet
  /-- Opened with `std::fstream::app`. -/
  append : Bool
  /-- Where the next write goes, if not. -/
  position : ℕ

/-- A write somewhere in a file; what it leaves out in front is zero. -/
def writeAt (content : List UInt8) (position : ℕ) (bytes : List UInt8) : List UInt8 :=
  content.take position ++ List.replicate (position - content.length) 0 ++ bytes
    ++ content.drop (position + bytes.length)

/-- At the end of the file this is to append. -/
theorem writeAt_length (content bytes : List UInt8) :
    writeAt content content.length bytes = content ++ bytes := by
  simp [writeAt]

/-- The file and the objects, each of them in a `Send` or not. -/
structure FileSenders (ι : Type*) where
  /-- The bytes of the file. -/
  content : List UInt8
  /-- The flags. -/
  firstTimeSending : ι → Bool
  /-- The calls, with what is still in the buffer of the stream. -/
  sends : ι → Option (Writing SendStream UInt8)

/-- A step of a `Send`. -/
inductive SendStep (ι : Type*) where
  /-- It opens its stream and hands it all bytes. -/
  | start (i : ι) (packet : Packet)
  /-- So many bytes reach the file. -/
  | flush (i : ι) (count : ℕ)
  /-- The stream is closed. -/
  | finish (i : ι)

/-- The object of a step. -/
def SendStep.object {ι : Type*} : SendStep ι → ι
  | .start i _ => i
  | .flush i _ => i
  | .finish i => i

/-- The packet of a call that starts with the step. -/
def SendStep.started {ι : Type*} : SendStep ι → Option Packet
  | .start _ packet => some packet
  | .flush _ _ => none
  | .finish _ => none

/-- The packets of the step are sized. -/
def SendStep.Sized {ι : Type*} (action : SendStep ι) : Prop :=
  ∀ i packet, action = .start i packet → packet.Sized

namespace FileSenders

variable {ι : Type*}

/-- Nothing was sent; there may be an old file. -/
def fresh (stale : List UInt8) : FileSenders ι := ⟨stale, fun _ => true, fun _ => none⟩

/-- The packet of a `Send` that has not taken effect. -/
def waiting : Option (Writing SendStream UInt8) → List Packet
  | some send => if send.begun then [] else [send.tag.packet]
  | none => []

/-- The packet of the call that takes effect with a step. -/
def effect (senders : FileSenders ι) : SendStep ι → List Packet
  | .start i packet => if senders.firstTimeSending i then [packet] else []
  | .flush i _ => waiting (senders.sends i)
  | .finish _ => []

/-- The call that takes effect with a step. -/
def called (senders : FileSenders ι) (action : SendStep ι) : List (Call ι) :=
  (senders.effect action).map (.send action.object)

/-- Nobody else is in the middle of its bytes when the step changes the file. -/
def Alone (senders : FileSenders ι) : SendStep ι → Prop
  | .start i _ => senders.firstTimeSending i = true → Undisturbed senders.sends i
  | .flush i _ => Undisturbed senders.sends i
  | .finish _ => True

variable [DecidableEq ι]

instance [Fintype ι] (senders : FileSenders ι) (action : SendStep ι) :
    Decidable (senders.Alone action) :=
  match action with
  | .start i _ => inferInstanceAs
      (Decidable (senders.firstTimeSending i = true → Undisturbed senders.sends i))
  | .flush i _ => inferInstanceAs (Decidable (Undisturbed senders.sends i))
  | .finish _ => inferInstanceAs (Decidable True)

/-- One step; `none` where it is not possible, or where `Send` throws. -/
def step (senders : FileSenders ι) : SendStep ι → Option (FileSenders ι)
  | .start i packet =>
    match senders.sends i, sendBytes addressable packet with
    | none, .ok bytes =>
      if senders.firstTimeSending i then
        -- the open empties the file, and the signature is the first to be written
        let send := ⟨⟨packet, false, 0⟩, true, kSignature ++ bytes⟩
        some ⟨[], Function.update senders.firstTimeSending i false,
          Function.update senders.sends i (some send)⟩
      else
        let send := ⟨⟨packet, true, 0⟩, false, bytes⟩
        some { senders with sends := Function.update senders.sends i (some send) }
    | _, _ => none
  | .flush i count => (senders.sends i).bind fun send =>
      if count = 0 ∨ send.left = [] then none
      else
        let piece := send.left.take count
        let content := if send.tag.append then senders.content ++ piece
          else writeAt senders.content send.tag.position piece
        let tag := { send.tag with position := send.tag.position + piece.length }
        some { senders with
          content := content
          sends := Function.update senders.sends i (some ⟨tag, true, send.left.drop count⟩) }
  | .finish i => (senders.sends i).bind fun send =>
      if send.left = [] then some { senders with sends := Function.update senders.sends i none }
      else none

/-! ## The calls one after the other -/

/-- The senders and the objects of a run of completed calls. -/
structure Refines (filename : String) (senders : FileSenders ι) (world : FileWorld ι) : Prop where
  /-- The objects have the same flags. -/
  transports : ∀ i, world.transports i = ⟨filename, senders.firstTimeSending i⟩
  /-- Whoever sends has cleared its flag, and all of its frame is to come if the `Send` has not taken
  effect. -/
  sends : ∀ i send, senders.sends i = some send → senders.firstTimeSending i = false ∧
    (send.begun = false → send.tag.append = true ∧ send.left = send.tag.packet.frame ∧
      send.tag.packet.Sized)
  /-- A stream that does not append is at the end of the file. -/
  position : ∀ i send, senders.sends i = some send → send.tag.append = false → send.left ≠ [] →
    send.tag.position = senders.content.length
  /-- The file is that of the completed calls, but for the rest of one frame. -/
  file : (∃ i, senders.firstTimeSending i = false) →
    ∃ whole, world.disk filename = some whole ∧ Whole whole senders.content senders.sends

namespace Refines

variable {filename : String} {senders senders' : FileSenders ι} {world : FileWorld ι} {i : ι}
  {packet : Packet}

omit [DecidableEq ι] in
/-- A stream that does not append is in the middle of its bytes until all are written. -/
theorem torn_of_position (h : Refines filename senders world) {send : Writing SendStream UInt8}
    (hi : senders.sends i = some send) (happend : send.tag.append = false) (hleft : send.left ≠ []) :
    send.torn = true := by
  have hbegun : send.begun = true := by
    by_contra hbegun
    have hwaiting := ((h.sends i send hi).2 (Bool.eq_false_of_not_eq_true hbegun)).1
    rw [happend] at hwaiting
    cases hwaiting
  simp [Writing.torn, hbegun, hleft]

/-- Where nobody else is in the middle of its bytes, no other stream has a position to keep. -/
theorem position_update (h : Refines filename senders world) (hi : Undisturbed senders.sends i)
    {content : List UInt8} {next : Writing SendStream UInt8}
    (hnext : next.tag.append = false → next.left ≠ [] → next.tag.position = content.length) :
    ∀ j send, Function.update senders.sends i (some next) j = some send →
      send.tag.append = false → send.left ≠ [] → send.tag.position = content.length := by
  intro j send hj happend hleft
  by_cases hji : j = i
  · rw [hji, Function.update_self] at hj
    obtain rfl := Option.some.inj hj
    exact hnext happend hleft
  · rw [Function.update_of_ne hji] at hj
    have hquiet := hi j hji
    rw [hj, Option.any_some, h.torn_of_position hj happend hleft] at hquiet
    cases hquiet

/-- The first `Send` of an object empties the file, and takes effect at once. -/
theorem start_first (h : Refines filename senders world) (hsized : packet.Sized)
    (hfirst : senders.firstTimeSending i = true) (hi : Undisturbed senders.sends i)
    (hnone : senders.sends i = none) :
    ∃ world', world.step addressable (.send i packet) = some world' ∧
      Refines filename ⟨[], Function.update senders.firstTimeSending i false,
        Function.update senders.sends i
          (some ⟨⟨packet, false, 0⟩, true, kSignature ++ packet.frame⟩)⟩ world' := by
  refine ⟨_, FileWorld.step_send hsized world i, fun j => ?_, fun j send hj => ?_,
    h.position_update hi fun _ _ => rfl, fun _ => ⟨kSignature ++ packet.frame, ?_, ?_⟩⟩
  · by_cases hji : j = i
    · simp [hji, h.transports i]
    · simp [hji, h.transports j]
  · by_cases hji : j = i
    · subst hji
      obtain rfl : _ = send := by simpa using hj
      exact ⟨by simp, fun hbegun => by cases hbegun⟩
    · simpa [hji] using h.sends j send (by simpa [hji] using hj)
  · simp [h.transports i, hfirst, sentContent]
  · exact Whole.replaced hi _ (by simp [kSignature])

/-- Any other `Send` has no effect yet. -/
theorem start_further (h : Refines filename senders world) (hsized : packet.Sized)
    (hfirst : senders.firstTimeSending i = false) (hnone : senders.sends i = none) :
    Refines filename { senders with
      sends := Function.update senders.sends i (some ⟨⟨packet, true, 0⟩, false, packet.frame⟩) }
      world := by
  refine ⟨h.transports, fun j send hj => ?_, fun j send hj happend hleft => ?_, fun hsome => ?_⟩
  · by_cases hji : j = i
    · subst hji
      obtain rfl : _ = send := by simpa using hj
      exact ⟨hfirst, fun _ => ⟨rfl, rfl, hsized⟩⟩
    · exact h.sends j send (by simpa [hji] using hj)
  · by_cases hji : j = i
    · subst hji
      obtain rfl : _ = send := by simpa using hj
      cases happend
    · exact h.position j send (by simpa [hji] using hj) happend hleft
  · obtain ⟨whole, hdisk, hwhole⟩ := h.file hsome
    exact ⟨whole, hdisk, hwhole.update (by rw [hnone]; rfl) rfl⟩

omit [DecidableEq ι] in
/-- What a piece adds to the file. -/
theorem content_flush (h : Refines filename senders world) {send : Writing SendStream UInt8}
    (hi : senders.sends i = some send) (hleft : send.left ≠ []) (piece : List UInt8) :
    (if send.tag.append then senders.content ++ piece
      else writeAt senders.content send.tag.position piece) = senders.content ++ piece := by
  cases happend : send.tag.append with
  | true => rfl
  | false =>
    rw [if_neg Bool.false_ne_true, h.position i send hi happend hleft]
    exact writeAt_length ..

/-- **A piece reaches the file**; with the first one, a `Send` takes effect. -/
theorem flush (h : Refines filename senders world) (hi : Undisturbed senders.sends i) {count : ℕ}
    (hstep : senders.step (.flush i count) = some senders') :
    ∃ world', Transition.run (FileWorld.step addressable) world (senders.called (.flush i count))
        = some world' ∧ Refines filename senders' world' := by
  obtain ⟨send, hsend, hstep⟩ := Option.bind_eq_some_iff.mp hstep
  by_cases hnone : count = 0 ∨ send.left = []
  · rw [if_pos hnone] at hstep
    cases hstep
  rw [if_neg hnone] at hstep
  obtain ⟨-, hleft⟩ := not_or.mp hnone
  obtain rfl := Option.some.inj hstep
  obtain ⟨hflag, hwaiting⟩ := h.sends i send hsend
  obtain ⟨whole, hdisk, hwhole⟩ := h.file ⟨i, hflag⟩
  have hput := hwhole.put hi hsend hleft
    { send.tag with position := send.tag.position + (send.left.take count).length } count
  -- what the senders have after the step, whichever completed calls there are
  have hrefines : ∀ world' : FileWorld ι, world'.transports = world.transports →
      world'.disk filename = some (if send.begun then whole else whole ++ send.left) →
      Refines filename { senders with
        content := if send.tag.append then senders.content ++ send.left.take count
          else writeAt senders.content send.tag.position (send.left.take count)
        sends := Function.update senders.sends i (some
          ⟨{ send.tag with position := send.tag.position + (send.left.take count).length }, true,
            send.left.drop count⟩) } world' := by
    intro world' htransports hdisk'
    rw [h.content_flush hsend hleft]
    refine ⟨fun j => by rw [htransports, h.transports j], fun j other hj => ?_,
      h.position_update hi fun happend _ => ?_, fun _ => ⟨_, hdisk', hput⟩⟩
    · by_cases hji : j = i
      · subst hji
        obtain rfl : _ = other := by simpa using hj
        exact ⟨hflag, fun hbegun => by cases hbegun⟩
      · exact h.sends j other (by simpa [hji] using hj)
    · dsimp only at happend ⊢
      rw [h.position i send hsend happend hleft, List.length_append]
  simp only [called, effect, hsend, waiting]
  cases hbegun : send.begun with
  | true =>
    refine ⟨world, rfl, hrefines world rfl ?_⟩
    rw [hdisk, if_pos hbegun]
  | false =>
    obtain ⟨-, hframe, hsized⟩ := hwaiting hbegun
    refine ⟨_, Transition.run_cons_eq_some.mpr ⟨_, FileWorld.step_send hsized world i, rfl⟩,
      hrefines _ ?_ ?_⟩
    · have hsame : { world.transports i with firstTimeSending := false } = world.transports i := by
        rw [h.transports i, hflag]
      dsimp only
      rw [hsame, Function.update_eq_self]
    · simp only [h.transports i, Function.update_self, hflag, sentContent, hdisk, hframe, hbegun]
      rfl

/-- A `Send` ends. -/
theorem finish (h : Refines filename senders world)
    (hstep : senders.step (.finish i) = some senders') : Refines filename senders' world := by
  obtain ⟨send, hsend, hstep⟩ := Option.bind_eq_some_iff.mp hstep
  split_ifs at hstep with hleft
  obtain rfl := Option.some.inj hstep
  have hother : ∀ {j other}, Function.update senders.sends i none j = some other →
      senders.sends j = some other := by
    intro j other hj
    by_cases hji : j = i
    · rw [hji, Function.update_self] at hj
      cases hj
    · rwa [Function.update_of_ne hji] at hj
  refine ⟨h.transports, fun j other hj => h.sends j other (hother hj),
    fun j other hj => h.position j other (hother hj), fun hsome => ?_⟩
  obtain ⟨whole, hdisk, hwhole⟩ := h.file hsome
  have huntorn : (senders.sends i).any Writing.torn = false := by
    rw [hsend, Option.any_some, Writing.torn, hleft]
    simp
  exact ⟨whole, hdisk, hwhole.update huntorn rfl⟩

/-- **One step** is nothing to the completed calls, or one of them. -/
theorem step (h : Refines filename senders world) {action : SendStep ι} (halone : senders.Alone action)
    (hsized : action.Sized) (hstep : senders.step action = some senders') :
    ∃ world', Transition.run (FileWorld.step addressable) world (senders.called action) = some world' ∧
      Refines filename senders' world' := by
  cases action with
  | start i packet =>
    rw [FileSenders.step, FileProcesses.sendBytes_eq (hsized i packet rfl)] at hstep
    cases hnone : senders.sends i with
    | some send =>
      rw [hnone] at hstep
      cases hstep
    | none =>
      rw [hnone] at hstep
      cases hfirst : senders.firstTimeSending i with
      | true =>
        simp only [hfirst, if_true, Option.some.injEq] at hstep
        subst hstep
        obtain ⟨world', hworld, hrefines⟩ :=
          h.start_first (hsized i packet rfl) hfirst (halone hfirst) hnone
        refine ⟨world', ?_, hrefines⟩
        rw [called, effect, if_pos hfirst]
        exact Transition.run_cons_eq_some.mpr ⟨world', hworld, rfl⟩
      | false =>
        simp only [hfirst, Bool.false_eq_true, if_false, Option.some.injEq] at hstep
        subst hstep
        refine ⟨world, ?_, h.start_further (hsized i packet rfl) hfirst hnone⟩
        rw [called, effect, hfirst]
        rfl
  | flush i count => exact h.flush halone hstep
  | finish i => exact ⟨world, rfl, h.finish hstep⟩

end Refines

/-! ## The packets of each object -/

section Packets

variable {filename : String} {senders senders' : FileSenders ι} {world : FileWorld ι}

/-- A step is one of its object. -/
theorem sends_of_step {action : SendStep ι} (hstep : senders.step action = some senders') {i : ι}
    (hi : action.object ≠ i) : senders'.sends i = senders.sends i := by
  have hne : i ≠ action.object := hi.symm
  cases action with
  | start j packet =>
    rw [step] at hstep
    split at hstep
    · split_ifs at hstep
      · obtain rfl := Option.some.inj hstep
        exact Function.update_of_ne hne _ _
      · obtain rfl := Option.some.inj hstep
        exact Function.update_of_ne hne _ _
    · cases hstep
  | flush j count =>
    obtain ⟨send, -, hstep⟩ := Option.bind_eq_some_iff.mp hstep
    by_cases hnone : count = 0 ∨ send.left = []
    · rw [if_pos hnone] at hstep
      cases hstep
    · rw [if_neg hnone] at hstep
      obtain rfl := Option.some.inj hstep
      exact Function.update_of_ne hne _ _
  | finish j =>
    obtain ⟨send, -, hstep⟩ := Option.bind_eq_some_iff.mp hstep
    split_ifs at hstep
    obtain rfl := Option.some.inj hstep
    exact Function.update_of_ne hne _ _

/-- A packet that is sent waits, or its call takes effect, and then it waits no more. -/
theorem effect_append_waiting (h : Refines filename senders world) {action : SendStep ι}
    (hstep : senders.step action = some senders') :
    senders.effect action ++ waiting (senders'.sends action.object)
      = waiting (senders.sends action.object) ++ action.started.toList := by
  cases action with
  | start i packet =>
    rw [step] at hstep
    split at hstep
    · rename_i bytes hnone hbytes
      dsimp only [SendStep.object]
      rw [effect, hnone]
      split_ifs at hstep ⊢ with hfirst
      · obtain rfl := Option.some.inj hstep
        simp [waiting, SendStep.started]
      · obtain rfl := Option.some.inj hstep
        simp [waiting, SendStep.started]
    · cases hstep
  | flush i count =>
    obtain ⟨send, hsend, hstep⟩ := Option.bind_eq_some_iff.mp hstep
    by_cases hnone : count = 0 ∨ send.left = []
    · rw [if_pos hnone] at hstep
      cases hstep
    · rw [if_neg hnone] at hstep
      obtain rfl := Option.some.inj hstep
      simp [effect, waiting, SendStep.object, SendStep.started]
  | finish i =>
    obtain ⟨send, hsend, hstep⟩ := Option.bind_eq_some_iff.mp hstep
    split_ifs at hstep with hleft
    obtain rfl := Option.some.inj hstep
    -- whoever has written everything has begun
    have hbegun : send.begun = true := by
      by_contra hbegun
      obtain ⟨-, hframe, -⟩ := (h.sends i send hsend).2 (Bool.eq_false_of_not_eq_true hbegun)
      have hlength := Packet.length_frame send.tag.packet
      rw [← hframe, hleft, List.length_nil] at hlength
      omega
    simp [effect, waiting, SendStep.object, SendStep.started, hsend, hbegun]

omit [DecidableEq ι] in
/-- Nobody has started. -/
theorem refines_fresh {stale : List UInt8} {start : FileWorld ι}
    (hfresh : ∀ i, start.transports i = ⟨filename, true⟩) : Refines filename (fresh stale) start where
  transports := hfresh
  sends _ _ hi := by cases hi
  position _ _ hi := by cases hi
  file := by
    rintro ⟨i, hi⟩
    cases hi

/-- **The calls of a run**, in the order in which they take effect. -/
theorem refines_of_run {stale : List UInt8} {start : FileWorld ι} {actions : List (SendStep ι)}
    (hfresh : ∀ i, start.transports i = ⟨filename, true⟩)
    (hmeets : Transition.Meets step (fun senders action => senders.Alone action ∧ action.Sized)
      (fresh stale) actions)
    (hrun : Transition.run step (fresh stale) actions = some senders) :
    ∃ world, Transition.run (FileWorld.step addressable) start
        (Transition.observations step called (fresh stale) actions) = some world ∧
      Refines filename senders world :=
  Transition.run_simulated called (refines_fresh hfresh)
    (fun _ _ _ _ h hallowed hstep => h.step hallowed.1 hallowed.2 hstep) hmeets hrun

/-- The packets of calls of one object. -/
theorem sent_map_send (packets : List Packet) (i j : ι) :
    Call.sent ((packets.map (Call.send j)).filter (Call.isSendBy i)) = if j = i then packets else [] := by
  induction packets with
  | nil => simp [Call.sent]
  | cons packet packets ih =>
    rw [List.map_cons]
    by_cases hji : j = i
    · rw [if_pos hji] at ih ⊢
      rw [List.filter_cons_of_pos (by simp [Call.isSendBy, hji]), Call.sent, ih]
    · rw [if_neg hji] at ih ⊢
      rw [List.filter_cons_of_neg (by simp [Call.isSendBy, hji]), ih]

/-- **Every object's packets** are those of its calls, in order, and the one that waits. -/
theorem sent_of_run {stale : List UInt8} {start : FileWorld ι} {actions : List (SendStep ι)}
    (hfresh : ∀ i, start.transports i = ⟨filename, true⟩)
    (hmeets : Transition.Meets step (fun senders action => senders.Alone action ∧ action.Sized)
      (fresh stale) actions)
    (hrun : Transition.run step (fresh stale) actions = some senders) (i : ι) :
    Call.sent ((Transition.observations step called (fresh stale) actions).filter (Call.isSendBy i))
        ++ waiting (senders.sends i)
      = (actions.filter fun action => action.object = i).filterMap SendStep.started := by
  apply Transition.run_induction (fun actions senders =>
    Transition.Meets step (fun senders action => senders.Alone action ∧ action.Sized)
        (fresh stale) actions →
      Call.sent ((Transition.observations step called (fresh stale) actions).filter
          (Call.isSendBy i)) ++ waiting (senders.sends i)
        = (actions.filter fun action => action.object = i).filterMap SendStep.started) _ _ hrun hmeets
  · intro _
    rfl
  · intro actions action middle last hmiddle ih hstep hmeets
    obtain ⟨hfront, -⟩ := (Transition.meets_concat hmiddle).mp hmeets
    obtain ⟨world, -, hrefines⟩ := refines_of_run hfresh hfront hmiddle
    rw [Transition.observations_concat called hmiddle, List.filter_append, Call.sent_append,
      List.filter_append, List.filterMap_append, ← ih hfront, List.append_assoc, List.append_assoc,
      called, sent_map_send]
    congr 1
    by_cases hi : action.object = i
    · subst hi
      rw [if_pos rfl, effect_append_waiting hrefines hstep]
      cases hstarted : action.started <;> simp [hstarted]
    · rw [if_neg hi, sends_of_step hstep hi]
      simp [hi]

/-- The calls are for packets that were sent. -/
theorem mem_sent_filter {calls : List (Call ι)} {i : ι} {packet : Packet} (h : Call.send i packet ∈ calls) :
    packet ∈ Call.sent (calls.filter (Call.isSendBy i)) := by
  induction calls with
  | nil => cases h
  | cons call calls ih =>
    rcases List.mem_cons.mp h with rfl | hmem
    · rw [List.filter_cons_of_pos (by simp [Call.isSendBy]), Call.sent]
      exact List.mem_cons_self
    · cases call with
      | send j other =>
        rw [List.filter_cons]
        split
        · exact List.mem_cons_of_mem _ (ih hmem)
        · exact ih hmem
      | receive j => exact ih hmem

end Packets

end FileSenders

/-- **Senders at the same time.** In every interleaving of the `Send` calls of objects on one filename, with
their bytes in pieces, in which nobody changes the file while another is in the middle of its bytes: there
is a run of completed calls, one for every `Send` that has taken effect, in the order in which they did and
with the packets of each object in order, whose file begins with what the file holds. When nobody is in the
middle of its bytes it is the same file, and a `Receive` returns the packets since the last first send in
this run; otherwise it returns those that are complete, if and only if the place where the file ends is a
silent cut. -/
theorem concurrent_senders {ι : Type*} [DecidableEq ι] (filename : String) (start : FileWorld ι)
    (stale : List UInt8) (actions : List (SendStep ι)) (senders : FileSenders ι)
    (calls : List (Call ι)) (hfresh : ∀ i, start.transports i = ⟨filename, true⟩)
    (hsized : ∀ i packet, SendStep.start i packet ∈ actions →
      packet.schema.length + packet.data.length + 16 < 2 ^ 63)
    (halone : Transition.Meets FileSenders.step FileSenders.Alone (.fresh stale) actions)
    (hrun : Transition.run FileSenders.step (.fresh stale) actions = some senders)
    (hcalls : calls = Transition.observations FileSenders.step FileSenders.called (.fresh stale) actions) :
    (∀ i, Call.sent (calls.filter (Call.isSendBy i)) ++ FileSenders.waiting (senders.sends i)
      = (actions.filter fun action => action.object = i).filterMap SendStep.started) ∧
    ∃ world, Transition.run (FileWorld.step addressable) start calls = some world ∧
      ((∃ i, senders.firstTimeSending i = false) →
        (∃ whole, world.disk filename = some whole ∧ senders.content <+: whole) ∧
        ((∀ i, (senders.sends i).any Writing.torn = false) →
          world.disk filename = some senders.content ∧
          receiveContent (deserialize addressable) addressable (some senders.content)
            = .ok (Call.sinceFirstSend calls.reverse)) ∧
        (receiveContent (deserialize addressable) addressable (some senders.content)
            = .ok (packetsWithin (Call.sinceFirstSend calls.reverse) (senders.content.length - 6)) ↔
          SilentCut (Call.sinceFirstSend calls.reverse) (senders.content.length - 6))) := by
  have hallowed : ∀ action ∈ actions, action.Sized := by
    rintro action hmem i packet rfl
    exact hsized i packet hmem
  have hmeets := halone.allowed hallowed
  have hsent := FileSenders.sent_of_run hfresh hmeets hrun
  obtain ⟨world, hworld, hrefines⟩ := FileSenders.refines_of_run hfresh hmeets hrun
  rw [← hcalls] at hsent hworld
  have hsizedCalls : ∀ i packet, Call.send i packet ∈ calls → packet.Sized := by
    intro i packet hmem
    have hstarted := List.mem_append_left (FileSenders.waiting (senders.sends i))
      (FileSenders.mem_sent_filter hmem)
    rw [hsent i] at hstarted
    obtain ⟨action, haction, hpacket⟩ := List.mem_filterMap.mp hstarted
    cases action with
    | start j other =>
      obtain rfl := Option.some.inj hpacket
      exact hsized j other (List.mem_filter.mp haction).1
    | flush => cases hpacket
    | finish => cases hpacket
  refine ⟨hsent, world, hworld, fun ⟨i, hi⟩ => ?_⟩
  have htracks := FileWorld.tracks_of_run hfresh hsizedCalls hworld
  have hframed : ∀ packet ∈ Call.sinceFirstSend calls.reverse, packet.Sized := by
    intro packet hmem
    obtain ⟨j, hj⟩ := Call.exists_send_of_mem_sinceFirstSend hmem
    exact hsizedCalls j packet (List.mem_reverse.mp hj)
  have hsome : Call.hasSent i calls.reverse = true := by
    have hflag := (htracks.transport i).symm.trans (hrefines.transports i)
    rw [hi] at hflag
    simpa using congrArg FileTransport.firstTimeSending hflag
  obtain ⟨whole, hdisk, hwhole⟩ := hrefines.file ⟨i, hi⟩
  obtain rfl : kSignature ++ Packet.frames (Call.sinceFirstSend calls.reverse) = whole :=
    Option.some.inj ((htracks.content ⟨i, hsome⟩).symm.trans hdisk)
  refine ⟨⟨_, hdisk, hwhole.content_prefix⟩, fun huntorn => ?_, ?_⟩
  · rw [hwhole.untorn huntorn]
    exact ⟨hdisk, receiveContent_frames hframed⟩
  · have hcut := receiveContent_take_iff hframed senders.content.length
    rwa [← List.prefix_iff_eq_take.mp hwhole.content_prefix] at hcut

/-- The second object starts the file again while the first is about to append. -/
theorem concurrent_senders_two :
    ∃ senders, Transition.run FileSenders.step (.fresh [1, 2, 3] : FileSenders Bool)
        [.start true ⟨[65], [1]⟩, .flush true 40, .finish true, .start true ⟨[66], []⟩,
          .start false ⟨[], [0]⟩, .flush false 9, .flush false 40, .flush true 5, .flush true 40]
          = some senders ∧
      receiveContent (deserialize addressable) addressable (some senders.content)
        = .ok [⟨[], [0]⟩, ⟨[66], []⟩] := by
  obtain ⟨senders, hrun, hflag, huntorn⟩ : ∃ senders,
      Transition.run FileSenders.step (.fresh [1, 2, 3] : FileSenders Bool)
        [.start true ⟨[65], [1]⟩, .flush true 40, .finish true, .start true ⟨[66], []⟩,
          .start false ⟨[], [0]⟩, .flush false 9, .flush false 40, .flush true 5, .flush true 40]
          = some senders ∧
      senders.firstTimeSending true = false ∧
      ∀ i, (senders.sends i).any Writing.torn = false :=
    ⟨_, rfl, rfl, fun i => by cases i <;> rfl⟩
  obtain ⟨-, world, -, hfile⟩ := concurrent_senders "tmp.contra"
    (⟨fun _ => none, fun _ => ⟨"tmp.contra", true⟩⟩ : FileWorld Bool) [1, 2, 3] _ senders _
    (fun _ => rfl) (by simp) (by decide) hrun rfl
  exact ⟨senders, hrun, ((hfile ⟨true, hflag⟩).2.1 huntorn).2⟩

-- An object appends between the open and the first write of another's first `Send`, which then writes
-- over the packet.
example : ∃ senders, Transition.run FileSenders.step (.fresh [] : FileSenders Bool)
        [.start true ⟨[65], [1]⟩, .flush true 40, .finish true, .start false ⟨[66], [2]⟩,
          .start true ⟨[], [3]⟩, .flush true 40, .finish true, .flush false 40, .finish false]
          = some senders ∧
      (∀ i, senders.sends i = none) ∧
      receiveContent (deserialize addressable) addressable (some senders.content)
        = .ok [⟨[66], [2]⟩] := by
  refine ⟨_, rfl, fun i => by cases i <;> rfl, ?_⟩
  have hframed : ∀ packet ∈ [(⟨[66], [2]⟩ : Packet)], packet.Sized := by decide
  exact receiveContent_frames hframed

end Contra
