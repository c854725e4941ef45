import Contra.FileDelivery

/-! # Files cut short

What `Receive` makes of the first `k` bytes of a file that one object wrote. The loop ignores the
outcome of its two reads, so a partial header still gives a length and a partial frame is padded with
zeros and decoded. `receive_cut_iff` says at which cuts this goes unnoticed: exactly where the header
bytes that are left are all zero. -/

namespace Contra

open CheckedMemory FileStream

/-- The packets whose frames lie completely inside `k` bytes of frames. -/
def packetsWithin : List Packet → ℕ → List Packet
  | [], _ => []
  | packet :: packets, k =>
      if 8 + packet.messageSize ≤ k then
        packet :: packetsWithin packets (k - (8 + packet.messageSize))
      else []

/-- The cut after `k` bytes of frames falls between two frames, or inside a frame header of which
only zero bytes are left. -/
def SilentCut : List Packet → ℕ → Prop
  | [], _ => True
  | packet :: packets, k =>
      if 8 + packet.messageSize ≤ k then SilentCut packets (k - (8 + packet.messageSize))
      else k < 8 ∧ packet.messageSize % 256 ^ k = 0

/-- The length the loop reads from a frame cut after `k` bytes. -/
theorem frameSizeField_take_frame {packet : Packet} (hsized : packet.Sized) (k : ℕ) :
    frameSizeField (packet.frame.take k)
      = if k < 8 then packet.messageSize % 256 ^ k else packet.messageSize := by
  rw [frameSizeField, List.take_take]
  by_cases hk : k < 8
  · rw [if_pos hk, min_eq_right (by omega), decode_take_frame packet (by omega)]
  · rw [if_neg hk, min_eq_left (by omega), decode_take_frame packet le_rfl, hsized.mod_eq]

/-- A cut inside a frame goes unnoticed exactly when the header bytes left are zero: otherwise the
loop throws, reads outside its buffer or appends a packet. -/
theorem receiveLoop_take_frame_iff {packet : Packet} (hsized : packet.Sized) {k : ℕ}
    (hk : k < 8 + packet.messageSize) (returnPackets : List Packet) :
    receiveLoop (deserialize addressable) addressable (Reader.good (packet.frame.take k))
        returnPackets = .ok returnPackets
      ↔ k < 8 ∧ packet.messageSize % 256 ^ k = 0 := by
  have hfield := frameSizeField_take_frame hsized k
  have hsixteen := packet.sixteen_le_messageSize
  have hlength : (packet.frame.take k).length = k := by
    rw [List.length_take, Packet.length_frame]
    omega
  rw [receiveLoop_good _ sizeLimited_addressable]
  by_cases hzero : frameSizeField (packet.frame.take k) = 0
  · rw [if_pos hzero]
    rw [hfield] at hzero
    split_ifs at hzero with hheader
    · exact iff_of_true rfl ⟨hheader, hzero⟩
    · omega
  · rw [if_neg hzero]
    have hright : ¬ (k < 8 ∧ packet.messageSize % 256 ^ k = 0) := by
      rintro ⟨hheader, hmod⟩
      rw [hfield, if_pos hheader] at hzero
      exact hzero hmod
    refine iff_of_false ?_ hright
    -- the frame is not complete, so this is the last round
    have hcut : ¬ 8 + frameSizeField (packet.frame.take k) ≤ (packet.frame.take k).length := by
      rw [hlength, hfield]
      split_ifs <;> omega
    by_cases hfit : addressable (frameSizeField (packet.frame.take k)) = false
    · rw [if_pos hfit]
      simp
    · rw [if_neg hfit]
      cases deserialize addressable (frameBuffer (packet.frame.take k)) with
      | error fault => simp
      | ok fabricated =>
        rw [ok_bind, if_neg hcut]
        simp

/-- The loop on frames cut after `k` bytes. -/
theorem receiveLoop_take_frames_iff {packets : List Packet}
    (hsized : ∀ packet ∈ packets, packet.Sized) (k : ℕ) (returnPackets : List Packet) :
    receiveLoop (deserialize addressable) addressable
        (Reader.good ((Packet.frames packets).take k)) returnPackets
        = .ok (returnPackets ++ packetsWithin packets k)
      ↔ SilentCut packets k := by
  induction packets generalizing k returnPackets with
  | nil =>
    rw [Packet.frames_nil, List.take_nil, receiveLoop_nil _ sizeLimited_addressable]
    simp [packetsWithin, SilentCut]
  | cons packet packets ih =>
    have hpacket := hsized packet List.mem_cons_self
    have hlength := packet.length_frame
    rw [Packet.frames_cons, packetsWithin, SilentCut]
    -- the cut is behind the first frame, or in it
    by_cases hk : 8 + packet.messageSize ≤ k
    · rw [if_pos hk, if_pos hk, List.take_append, List.take_of_length_le (by omega), hlength,
        receiveLoop_frame_append hpacket,
        List.append_cons returnPackets packet (packetsWithin packets (k - (8 + packet.messageSize)))]
      exact ih (fun q hq => hsized q (List.mem_cons_of_mem _ hq)) _ _
    · rw [if_neg hk, if_neg hk, List.append_nil, List.take_append_of_le_length (by omega)]
      exact receiveLoop_take_frame_iff hpacket (by omega) returnPackets

/-- `Receive` on the first `k` bytes of a signed file of frames. A cut inside the signature is one
after no byte of the frames. -/
theorem receiveContent_take_iff {packets : List Packet} (hsized : ∀ packet ∈ packets, packet.Sized)
    (k : ℕ) :
    receiveContent (deserialize addressable) addressable
        (some ((kSignature ++ Packet.frames packets).take k)) = .ok (packetsWithin packets (k - 6))
      ↔ SilentCut packets (k - 6) := by
  have hlength : kSignature.length = 6 := rfl
  by_cases hk : 6 ≤ k
  · rw [List.take_append, List.take_of_length_le (by omega), hlength, receiveContent_signed]
    exact receiveLoop_take_frames_iff hsized (k - 6) []
  · have hunsigned : ((kSignature ++ Packet.frames packets).take k).take 6 ≠ kSignature := by
      intro h
      have := congrArg List.length h
      rw [List.length_take, List.length_take, hlength] at this
      omega
    rw [receiveContent_some, if_neg hunsigned, show k - 6 = 0 by omega]
    cases packets with
    | nil => simp [packetsWithin, SilentCut]
    | cons packet packets => simp [packetsWithin, SilentCut, Nat.mod_one]

/-- **Files cut short.** On the first `k` bytes of a file that one object wrote, `Receive` returns
exactly the packets whose frames are complete if and only if the cut is silent. -/
theorem receive_cut_iff {ι : Type*} [DecidableEq ι] (filename : String) (start world : FileWorld ι)
    (i : ι) (packets : List Packet) (reader : FileTransport) (content : List UInt8) (k : ℕ)
    (hpackets : packets ≠ []) (hfresh : ∀ j, start.transports j = ⟨filename, true⟩)
    (hsized : ∀ packet ∈ packets, packet.schema.length + packet.data.length + 16 < 2 ^ 63)
    (hrun : Transition.run (FileWorld.step addressable) start (packets.map (Call.send i))
      = some world)
    (hreader : reader.filename = filename) (hcontent : world.disk filename = some content) :
    reader.receive addressable (Function.update world.disk filename (some (content.take k)))
        = .ok (packetsWithin packets (k - 6))
      ↔ SilentCut packets (k - 6) := by
  have hsends : ∀ j packet, Call.send j packet ∈ packets.map (Call.send i) → packet.Sized := by
    intro j packet hmem
    obtain ⟨q, hq, hcall⟩ := List.mem_map.mp hmem
    cases hcall
    exact hsized packet hq
  have htracks := FileWorld.tracks_of_run hfresh hsends hrun
  have hsent : ∃ j, Call.hasSent j (packets.map (Call.send i)).reverse = true := by
    obtain ⟨q, hq⟩ := List.exists_mem_of_ne_nil packets hpackets
    exact ⟨i, Call.hasSent_iff.mpr ⟨q, by simp [hq]⟩⟩
  have hframes := htracks.content hsent
  rw [Call.sinceFirstSend_sends, hcontent] at hframes
  rw [FileTransport.receive, hreader, Function.update_self, Option.some.inj hframes]
  exact receiveContent_take_iff hsized k

/-- The first packet of a file, cut behind its header: not silent. -/
theorem receive_cut_iff_behind_header :
    ∃ world content, Transition.run (FileWorld.step addressable)
        (⟨fun _ => none, fun _ => ⟨"tmp.contra", true⟩⟩ : FileWorld Unit)
        [.send () ⟨[65], [66]⟩] = some world ∧
      world.disk "tmp.contra" = some content ∧
      (⟨"tmp.contra", true⟩ : FileTransport).receive addressable
        (Function.update world.disk "tmp.contra" (some (content.take 14))) ≠ .ok [] := by
  refine ⟨_, _, rfl, rfl, fun h => ?_⟩
  have hcut := (receive_cut_iff "tmp.contra" (⟨fun _ => none, fun _ => ⟨"tmp.contra", true⟩⟩) _ ()
    [⟨[65], [66]⟩] ⟨"tmp.contra", true⟩ _ 14 (by simp) (fun _ => rfl) (by simp) rfl rfl rfl).mp h
  exact absurd hcut.1 (by decide)

/-- One byte of the header of an 18-byte message is left: `Receive` returns an empty packet that
nobody sent. -/
theorem receive_cut_fabricates :
    ∃ world content, Transition.run (FileWorld.step addressable)
        (⟨fun _ => none, fun _ => ⟨"tmp.contra", true⟩⟩ : FileWorld Unit)
        [.send () ⟨[65], [66]⟩] = some world ∧
      world.disk "tmp.contra" = some content ∧ packetsWithin [⟨[65], [66]⟩] (7 - 6) = [] ∧
      (⟨"tmp.contra", true⟩ : FileTransport).receive addressable
        (Function.update world.disk "tmp.contra" (some (content.take 7))) = .ok [⟨[], []⟩] := by
  refine ⟨_, _, rfl, rfl, rfl, ?_⟩
  have hcut : (⟨"tmp.contra", true⟩ : FileTransport).receive addressable
      (Function.update (fun _ => none) "tmp.contra" (some (kSignature ++ [18])))
        = .ok [⟨[], []⟩] := by
    rw [FileTransport.receive, Function.update_self, receiveContent_signed,
      receiveLoop_good _ sizeLimited_addressable]
    rfl
  rw [FileTransport.receive, Function.update_self] at hcut ⊢
  exact hcut

end Contra
