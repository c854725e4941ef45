import Contra.FileFrames
import Contra.Foundation.Transition

/-! # Sends whose open fails

`Send` clears `first_time_sending_` whether or not its open succeeded, so when the first open of an
object fails, no later send signs the file. `receive_after_failed_opens_iff` says when `Receive`
returns the packets of the sends whose open succeeded: exactly when the first open succeeded, or none
did.

The direction that needs work is that an unsigned file is never received by accident. Its first six
bytes can be the signature when the first frame is long enough; but the loop then starts six bytes
behind a frame boundary, and a reader that is off the boundaries never gets back
(`receiveLoop_drop_ne`). -/

namespace Contra

open CheckedMemory FileStream

/-! ## A reader off the frame boundaries -/

/-- A list that is its own tail filled up with zeros is all zeros. -/
theorem eq_replicate_of_eq_shift {bytes : List UInt8} {offset k : ℕ} (hoffset : 0 < offset)
    (h : bytes = (bytes.drop offset ++ List.replicate k 0).take bytes.length) :
    bytes = List.replicate bytes.length 0 := by
  -- from the end to the front, every byte is a zero that was filled in, or a later byte
  have key : ∀ j i (hi : i < bytes.length), bytes.length ≤ i + j → bytes[i] = 0 := by
    intro j
    induction j with
    | zero => intro i hi hj; omega
    | succ j ih =>
      intro i hi hj
      have hget : bytes[i]? = ((bytes.drop offset ++ List.replicate k 0).take bytes.length)[i]? :=
        congrArg (fun l : List UInt8 => l[i]?) h
      rw [List.getElem?_take_of_lt hi, List.getElem?_eq_getElem hi] at hget
      by_cases hshift : offset + i < bytes.length
      · rw [List.getElem?_append_left (by rw [List.length_drop]; omega), List.getElem?_drop,
          List.getElem?_eq_getElem hshift] at hget
        rw [Option.some.inj hget]
        exact ih (offset + i) hshift (by omega)
      · rw [List.getElem?_append_right (by rw [List.length_drop]; omega),
          List.getElem?_replicate] at hget
        split_ifs at hget
        exact Option.some.inj hget
  exact List.eq_replicate_iff.mpr ⟨rfl, fun b hb => by
    obtain ⟨i, hi, rfl⟩ := List.getElem_of_mem hb
    exact key bytes.length i hi (by omega)⟩

/-- A message of zeros is the message of the empty packet. -/
theorem messageSize_of_message_zeros {packet : Packet} (hsized : packet.Sized)
    (h : packet.message = List.replicate packet.messageSize 0) : packet.messageSize = 16 := by
  have hsize : packet.schema.length + packet.data.length + 16 < 2 ^ 63 := hsized
  have hsixteen := packet.sixteen_le_messageSize
  -- both size fields are eight zeros
  have hfield : ∀ start, start + 8 ≤ packet.messageSize →
      LittleEndian.decode (slice packet.message ⟨start, 8⟩) = 0 := by
    intro start hstart
    rw [h, slice, List.drop_replicate, List.take_replicate, LittleEndian.decode_replicate_zero]
  have hmessageSize : packet.messageSize < 2 ^ 64 := by
    rw [Packet.messageSize]
    omega
  have hschema := schemaSizeField_message_append hmessageSize []
  rw [List.append_nil, schemaSizeField, hfield 0 (by omega)] at hschema
  have hdata := dataSizeField_message_append hmessageSize []
  rw [List.append_nil, dataSizeField, schemaSizeField, hfield 0 (by omega), Nat.add_zero,
    hfield 8 (by omega)] at hdata
  rw [Packet.messageSize, ← hschema, ← hdata]

/-- The loop only appends. -/
theorem prefix_of_receiveLoop {decode : List UInt8 → Except Fault Packet} {fits : ℕ → Bool}
    (hfits : SizeLimited fits) {rest : List UInt8} {returnPackets result : List Packet}
    (h : receiveLoop decode fits (Reader.good rest) returnPackets = .ok result) :
    returnPackets <+: result := by
  induction hlength : rest.length using Nat.strong_induction_on
    generalizing rest returnPackets with
  | _ length ih =>
    rcases receiveLoop_eq_ok decode hfits h with
      ⟨-, rfl⟩ | ⟨-, -, packet, -, ⟨hwhole, hlater⟩ | ⟨-, rfl⟩⟩
    · exact List.prefix_rfl
    · have hprefix := ih _ (by rw [List.length_drop]; omega) hlater rfl
      exact (List.prefix_append _ _).trans hprefix
    · exact List.prefix_append _ _

/-- A single frame read from `offset` on does not give its packet: the message would be its own
shift, so all zeros, but then the header read is zero and the loop stops. -/
theorem deserialize_frame_drop_ne {packet : Packet} (hsized : packet.Sized) {offset : ℕ}
    (hoffset : 0 < offset) (hnonzero : frameSizeField (packet.frame.drop offset) ≠ 0)
    (hfit : frameSizeField (packet.frame.drop offset) < 2 ^ 63)
    (hcut : (packet.frame.drop offset).length < 8 + frameSizeField (packet.frame.drop offset)) :
    deserialize addressable (frameBuffer (packet.frame.drop offset)) ≠ .ok packet := by
  intro h
  obtain ⟨hlength, hmessage⟩ :=
    message_eq_take_of_deserialize (by rw [length_frameBuffer]; exact hfit) h
  rw [length_frameBuffer] at hlength
  -- the buffer is what is left of the message, then zeros
  have hslice : slice (packet.frame.drop offset) ⟨8, frameSizeField (packet.frame.drop offset)⟩
      = packet.message.drop offset := by
    rw [slice, List.take_of_length_le (by rw [List.length_drop]; dsimp only; omega), List.drop_drop,
      Nat.add_comm, ← List.drop_drop, Packet.frame,
      List.drop_left' (LittleEndian.length_encode ..)]
  rw [frameBuffer, hslice, ← Packet.length_message] at hmessage
  have hzeros := eq_replicate_of_eq_shift hoffset hmessage
  rw [Packet.length_message] at hzeros
  have hsixteen := messageSize_of_message_zeros hsized hzeros
  apply hnonzero
  have hframe : packet.frame = 16 :: List.replicate 23 0 := by
    rw [Packet.frame, hzeros, hsixteen]
    rfl
  obtain ⟨k, rfl⟩ : ∃ k, offset = k + 1 := ⟨offset - 1, by omega⟩
  rw [frameSizeField, hframe, List.drop_succ_cons, List.drop_replicate, List.take_replicate,
    LittleEndian.decode_replicate_zero]

/-- **No way back.** A reader off the frame boundaries never returns the packets of the frames:
every packet it gets right takes at least a whole frame off the file, so it stays off,
and the last frame is too short for it. -/
theorem receiveLoop_drop_ne {packets : List Packet} (hsized : ∀ packet ∈ packets, packet.Sized)
    (hpackets : packets ≠ []) {offset : ℕ} (hoffset : 0 < offset) (returnPackets : List Packet) :
    receiveLoop (deserialize addressable) addressable
        (Reader.good ((Packet.frames packets).drop offset)) returnPackets
      ≠ .ok (returnPackets ++ packets) := by
  induction packets generalizing offset returnPackets with
  | nil => exact absurd rfl hpackets
  | cons packet packets ih =>
    have hpacket := hsized packet List.mem_cons_self
    obtain ⟨rest, hrest⟩ : ∃ rest, rest = (Packet.frames (packet :: packets)).drop offset := ⟨_, rfl⟩
    rw [← hrest]
    intro h
    rcases receiveLoop_eq_ok _ sizeLimited_addressable h with
      ⟨-, hresult⟩ | ⟨hnonzero, hfit, q, hdecode, hresult⟩
    · exact absurd hresult (by simp)
    have hfit' : frameSizeField rest < 2 ^ 63 := addressable_eq_true.mp hfit
    -- the packet appended is the packet expected
    have hq : q = packet := by
      have hprefix : returnPackets ++ [q] <+: returnPackets ++ packet :: packets := by
        rcases hresult with ⟨-, hlater⟩ | ⟨-, heq⟩
        · exact prefix_of_receiveLoop sizeLimited_addressable hlater
        · exact heq ▸ List.prefix_rfl
      rw [List.prefix_append_right_inj, List.cons_prefix_cons] at hprefix
      exact hprefix.1
    subst hq
    have hsize : q.messageSize ≤ frameSizeField rest := by
      have := (message_eq_take_of_deserialize (by rw [length_frameBuffer]; exact hfit') hdecode).1
      rwa [length_frameBuffer] at this
    have hlength := congrArg List.length hrest
    rw [List.length_drop, Packet.frames_cons, List.length_append, Packet.length_frame] at hlength
    rcases hresult with ⟨hwhole, hlater⟩ | ⟨hcut, heq⟩
    · obtain ⟨size, hsizeEq⟩ : ∃ size, size = frameSizeField rest := ⟨_, rfl⟩
      rw [← hsizeEq] at hsize hwhole hlater
      have hdrop : rest.drop (8 + size)
          = (Packet.frames packets).drop (offset + (size - q.messageSize)) := by
        rw [hrest, List.drop_drop, Packet.frames_cons, List.drop_append, Packet.length_frame,
          List.drop_of_length_le (by rw [Packet.length_frame]; omega), List.nil_append]
        congr 1
        omega
      rw [hdrop, List.append_cons returnPackets q packets] at hlater
      refine ih (fun p hp => hsized p (List.mem_cons_of_mem _ hp)) ?_ (by omega) _ hlater
      rintro rfl
      simp only [Packet.frames_nil, List.length_nil] at hlength
      omega
    · -- the file ends here, so this was the last packet
      have hnil : packets = [] := by simpa using heq
      subst hnil
      rw [Packet.frames_cons, Packet.frames_nil, List.append_nil] at hrest
      subst hrest
      exact deserialize_frame_drop_ne hpacket hoffset hnonzero hfit' hcut hdecode

/-! ## Runs with failed opens -/

/-- A call of `Send`, with the outcome of its open. -/
structure Attempt where
  /-- The packet. -/
  packet : Packet
  /-- Whether the open succeeds. -/
  opens : Bool
  deriving DecidableEq, Repr

/-- One `Send` of an object on a disk. -/
def attempt (fits : ℕ → Bool) (state : FileTransport × Disk) (call : Attempt) :
    Option (FileTransport × Disk) :=
  match state.1.send fits call.opens call.packet state.2 with
  | (.ok (), transport, disk) => some (transport, disk)
  | (.error _, _, _) => none

/-- The packets of the sends whose open succeeded. -/
def openedPackets (calls : List Attempt) : List Packet :=
  (calls.filter Attempt.opens).map Attempt.packet

/-- Whether the first open succeeded. -/
def opensFirst (calls : List Attempt) : Bool := calls.head?.any Attempt.opens

/-- The file after a list of sends that starts without the file: none while every open failed, and
signed only by the first send. -/
def attemptedContent (calls : List Attempt) : Option (List UInt8) :=
  if openedPackets calls = [] then none
  else some ((if opensFirst calls then kSignature else []) ++ Packet.frames (openedPackets calls))

section Content

variable (calls : List Attempt) (packet : Packet)

theorem openedPackets_concat (opens : Bool) : openedPackets (calls ++ [⟨packet, opens⟩])
    = openedPackets calls ++ if opens then [packet] else [] := by
  cases opens <;> simp [openedPackets]

/-- An object whose first open succeeded has written something. -/
theorem openedPackets_ne_nil (h : opensFirst calls = true) : openedPackets calls ≠ [] := by
  cases calls with
  | nil => cases h
  | cons call calls =>
    have hopens : call.opens = true := by simpa [opensFirst] using h
    simp [openedPackets, hopens]

/-- A send whose open fails leaves the file. -/
theorem attemptedContent_concat_failed :
    attemptedContent (calls ++ [⟨packet, false⟩]) = attemptedContent calls := by
  rw [attemptedContent, attemptedContent, openedPackets_concat, if_neg Bool.false_ne_true,
    List.append_nil]
  cases calls <;> rfl

/-- A send whose open succeeds does to the file what `sentContent` says. -/
theorem attemptedContent_concat_opened : attemptedContent (calls ++ [⟨packet, true⟩])
    = some (sentContent calls.isEmpty (attemptedContent calls) packet) := by
  rw [attemptedContent, openedPackets_concat, if_pos rfl, if_neg (by simp), sentContent]
  cases calls with
  | nil => simp [opensFirst, openedPackets]
  | cons call calls =>
    have hfirst : opensFirst (call :: calls ++ [⟨packet, true⟩]) = opensFirst (call :: calls) := rfl
    rw [hfirst, attemptedContent]
    by_cases hnone : openedPackets (call :: calls) = []
    · have hunsigned : opensFirst (call :: calls) = false :=
        Bool.eq_false_iff.mpr fun hopens => openedPackets_ne_nil _ hopens hnone
      simp [hnone, hunsigned]
    · simp [hnone]

end Content

/-- The object and its file after a list of sends that starts without the file. -/
theorem attempts_run {filename : String} {disk : Disk} {calls : List Attempt}
    {state : FileTransport × Disk} (hmissing : disk filename = none)
    (hsized : ∀ call ∈ calls, call.packet.Sized)
    (hrun : Transition.run (attempt addressable) (⟨filename, true⟩, disk) calls = some state) :
    state.1 = ⟨filename, calls.isEmpty⟩ ∧ state.2 filename = attemptedContent calls := by
  apply Transition.run_induction_of_forall (fun calls state =>
    state.1 = ⟨filename, calls.isEmpty⟩ ∧ state.2 filename = attemptedContent calls) _ _ hsized hrun
  · exact ⟨rfl, hmissing⟩
  · rintro calls ⟨packet, opens⟩ ⟨transport, disk⟩ state' _ ⟨htransport, hcontent⟩ hpacket hstep
    dsimp only at htransport hcontent hpacket
    rw [attempt, send_eq hpacket] at hstep
    obtain rfl := Option.some.inj hstep
    subst htransport
    refine ⟨by simp, ?_⟩
    cases opens with
    | false =>
      rw [attemptedContent_concat_failed, ← hcontent]
      rfl
    | true =>
      rw [attemptedContent_concat_opened, ← hcontent]
      exact Function.update_self ..

/-- `Receive` returns the packets of the sends that reached the file exactly if the file is signed,
or missing. -/
theorem receive_attempted_iff {calls : List Attempt}
    (hsized : ∀ call ∈ calls, call.packet.Sized) :
    receiveContent (deserialize addressable) addressable (attemptedContent calls)
        = .ok (openedPackets calls)
      ↔ opensFirst calls = true ∨ openedPackets calls = [] := by
  have hopened : ∀ packet ∈ openedPackets calls, packet.Sized := by
    intro packet hmem
    obtain ⟨call, hcall, rfl⟩ := List.mem_map.mp hmem
    exact hsized call (List.mem_of_mem_filter hcall)
  rw [attemptedContent]
  by_cases hnone : openedPackets calls = []
  · rw [if_pos hnone, receiveContent_none, hnone]
    simp
  rw [if_neg hnone]
  by_cases hfirst : opensFirst calls = true
  · rw [if_pos hfirst, receiveContent_frames hopened]
    simp [hfirst]
  · rw [if_neg hfirst, List.nil_append, receiveContent_some]
    refine iff_of_false ?_ (by simp [hfirst, hnone])
    by_cases hsignature : (Packet.frames (openedPackets calls)).take 6 = kSignature
    · rw [if_pos hsignature]
      exact receiveLoop_drop_ne hopened hnone (by norm_num) []
    · rw [if_neg hsignature]
      exact fun h => hnone (Except.ok.inj h).symm

/-- **Failed opens.** After any list of sends by one object to a file that did not exist, `Receive`
returns the packets of the sends whose open succeeded if and only if the first open succeeded or all
opens failed. -/
theorem receive_after_failed_opens_iff (filename : String) (disk : Disk) (calls : List Attempt)
    (state : FileTransport × Disk) (reader : FileTransport) (hmissing : disk filename = none)
    (hsized : ∀ call ∈ calls,
      call.packet.schema.length + call.packet.data.length + 16 < 2 ^ 63)
    (hrun : Transition.run (attempt addressable) (⟨filename, true⟩, disk) calls = some state)
    (hreader : reader.filename = filename) :
    reader.receive addressable state.2 = .ok ((calls.filter Attempt.opens).map Attempt.packet)
      ↔ calls.head?.any Attempt.opens = true ∨ ∀ call ∈ calls, call.opens = false := by
  have hcontent := (attempts_run hmissing hsized hrun).2
  rw [FileTransport.receive, hreader, hcontent]
  have hnone : openedPackets calls = [] ↔ ∀ call ∈ calls, call.opens = false := by
    simp [openedPackets]
  rw [← hnone]
  exact receive_attempted_iff hsized

/-- The first open succeeds and the second fails: one packet is received. -/
theorem receive_after_failed_opens_iff_second :
    ∃ state, Transition.run (attempt addressable) (⟨"tmp.contra", true⟩, fun _ => none)
        [⟨⟨[65], [1]⟩, true⟩, ⟨⟨[66], [2]⟩, false⟩] = some state ∧
      (⟨"tmp.contra", true⟩ : FileTransport).receive addressable state.2 = .ok [⟨[65], [1]⟩] := by
  refine ⟨_, rfl, ?_⟩
  exact (receive_after_failed_opens_iff "tmp.contra" (fun _ => none)
    [⟨⟨[65], [1]⟩, true⟩, ⟨⟨[66], [2]⟩, false⟩] _ ⟨"tmp.contra", true⟩ rfl (by decide) rfl rfl).mpr
    (Or.inl rfl)

/-- The first open fails and the second succeeds: the packet written is not received. -/
theorem receive_after_failed_opens_lost :
    ∃ state, Transition.run (attempt addressable) (⟨"tmp.contra", true⟩, fun _ => none)
        [⟨⟨[65], [1]⟩, false⟩, ⟨⟨[66], [2]⟩, true⟩] = some state ∧
      (⟨"tmp.contra", true⟩ : FileTransport).receive addressable state.2 = .ok [] ∧
      ([⟨⟨[65], [1]⟩, false⟩, ⟨⟨[66], [2]⟩, true⟩].filter Attempt.opens).map Attempt.packet
        = [⟨[66], [2]⟩] := by
  refine ⟨_, rfl, ?_, rfl⟩
  have hunsigned : receiveContent (deserialize addressable) addressable
      (some (Packet.frames [⟨[66], [2]⟩])) = .ok [] := by
    rw [receiveContent_some]
    rfl
  exact hunsigned

end Contra
