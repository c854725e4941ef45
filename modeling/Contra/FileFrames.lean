import Contra.FileTransport

/-! # The frames of a file

A transport file is the signature followed by frames, an 8-byte length in front of a serialized
packet. This file says what `Receive` computes in terms of the bytes of the file: the signature
test (`receiveContent_some`), one round of the loop (`receiveLoop_good`), and whole frames
(`receiveLoop_frames_append`). -/

namespace Contra

open CheckedMemory FileStream

/-- No container is larger than a `std::streamsize` can count. -/
def SizeLimited (fits : ℕ → Bool) : Prop := ∀ size, fits size = true → size < 2 ^ 63

theorem sizeLimited_addressable : SizeLimited addressable := fun _ => addressable_eq_true.mp

/-! ## The signature -/

/-- Zero bytes behind a short read do not complete a signature. -/
theorem takeWhile_eq_kSignature_iff (bytes : List UInt8) (hbytes : bytes.length ≤ 6) :
    (bytes ++ List.replicate (7 - bytes.length) 0).takeWhile (· ≠ 0) = kSignature
      ↔ bytes = kSignature := by
  constructor
  · intro h
    have hprefix : kSignature <+: bytes ++ List.replicate (7 - bytes.length) 0 :=
      h ▸ List.takeWhile_prefix _
    have htake : kSignature = (bytes ++ List.replicate (7 - bytes.length) 0).take 6 :=
      List.prefix_iff_eq_take.mp hprefix
    have hlength : bytes.length = 6 := by
      by_contra hne
      -- the sixth byte would be one of the zeros
      have hlast := congrArg (fun l => l[5]?) htake
      simp only [List.getElem?_take_of_lt (show 5 < 6 by norm_num)] at hlast
      rw [List.getElem?_append_right (by omega), List.getElem?_replicate, if_pos (by omega)] at hlast
      exact absurd hlast (by decide)
    rw [htake, ← hlength, List.take_left]
  · rintro rfl
    decide

/-- A buffer with a zero byte at its end holds a C string. -/
theorem cString_append_zero (bytes : List UInt8) (k : ℕ) (hk : 0 < k) :
    cString (bytes ++ List.replicate k 0)
      = .ok ((bytes ++ List.replicate k 0).takeWhile (· ≠ 0)) := by
  rw [cString, if_pos (List.mem_append_right _ (List.mem_replicate.mpr ⟨by omega, rfl⟩))]

/-- `ReadAndCheckSignature` compares the first six bytes of the file. -/
theorem readAndCheckSignature_good (content : List UInt8) :
    readAndCheckSignature (Reader.good content) = .ok (decide (content.take 6 = kSignature),
      if content.length < 6 then Reader.exhausted else Reader.good (content.drop 6)) := by
  have hbuffer : kSignatureLength ≤ (List.replicate (kSignatureLength + 1) (0 : UInt8)).length := by
    simp
  have hbytes : (content.take 6).length ≤ 6 := by simp
  have hsignature := takeWhile_eq_kSignature_iff _ hbytes
  by_cases hshort : content.length < 6
  · rw [readAndCheckSignature, Reader.read_of_lt hbuffer hshort, if_pos hshort]
    rw [List.take_of_length_le (by omega)] at hsignature ⊢
    simp only [ok_bind, kSignatureLength, List.drop_replicate]
    rw [cString_append_zero _ _ (by omega)]
    simp only [ok_bind, hsignature]
    rfl
  · -- six bytes and the NUL that the buffer ends with
    rw [readAndCheckSignature, Reader.read_of_le hbuffer (Nat.not_lt.mp hshort), if_neg hshort]
    have hlength : (content.take 6).length = 6 := by rw [List.length_take]; omega
    rw [hlength] at hsignature
    simp only [ok_bind, kSignatureLength, List.drop_replicate]
    rw [cString_append_zero _ _ (by omega)]
    simp only [ok_bind, hsignature]
    rfl

/-- A file that starts with the signature has six bytes. -/
theorem six_le_of_take_eq_kSignature {content : List UInt8} (h : content.take 6 = kSignature) :
    6 ≤ content.length := by
  have hlength : (content.take 6).length = 6 := by rw [h]; rfl
  rw [List.length_take] at hlength
  omega

section Content

variable (decode : List UInt8 → Except Fault Packet) (fits : ℕ → Bool)

/-- Without a file nothing is received. -/
theorem receiveContent_none : receiveContent decode fits none = .ok [] := by
  have hread : (Reader.openFile none).read (List.replicate (kSignatureLength + 1) 0) kSignatureLength
      = .ok (List.replicate (kSignatureLength + 1) 0, Reader.openFile none) :=
    Reader.read_openFile_none (by simp)
  rw [receiveContent, readAndCheckSignature, hread]
  rfl

/-- `Receive` runs its loop on the bytes behind the signature, on files that start with it. -/
theorem receiveContent_some (content : List UInt8) :
    receiveContent decode fits (some content) =
      if content.take 6 = kSignature then receiveLoop decode fits (Reader.good (content.drop 6)) []
      else .ok [] := by
  rw [receiveContent, Reader.openFile, readAndCheckSignature_good, ok_bind]
  by_cases hmatch : content.take 6 = kSignature
  · have hlength : ¬ content.length < 6 := Nat.not_lt.mpr (six_le_of_take_eq_kSignature hmatch)
    simp only [hmatch, hlength, decide_true, if_true, if_false]
  · simp only [hmatch, decide_false, if_false]
    rfl

/-- A signed file is received by the loop. -/
theorem receiveContent_signed (rest : List UInt8) :
    receiveContent decode fits (some (kSignature ++ rest))
      = receiveLoop decode fits (Reader.good rest) [] := by
  have hlength : kSignature.length = 6 := rfl
  rw [receiveContent_some, List.take_left' hlength, if_pos rfl, List.drop_left' hlength]

end Content

/-! ## One frame -/

/-- The length a frame header announces; missing header bytes count as zero. -/
def frameSizeField (rest : List UInt8) : ℕ := LittleEndian.decode (rest.take 8)

/-- The buffer the loop hands to the decoder: as much of the frame as the file has, then zeros. -/
def frameBuffer (rest : List UInt8) : List UInt8 :=
  slice rest ⟨8, frameSizeField rest⟩ ++
    List.replicate (frameSizeField rest - (rest.length - 8)) 0

@[simp] theorem length_frameBuffer (rest : List UInt8) :
    (frameBuffer rest).length = frameSizeField rest := by
  simp only [frameBuffer, slice, List.length_append, List.length_take, List.length_drop,
    List.length_replicate]
  omega

/-- The stream behind a frame. -/
def afterFrame (rest : List UInt8) : Reader :=
  if 8 + frameSizeField rest ≤ rest.length then Reader.good (rest.drop (8 + frameSizeField rest))
  else Reader.exhausted

/-- Reading a header: its value, and a stream that is good when the file had all eight bytes. -/
theorem read_header (rest : List UInt8) :
    ∃ header, (Reader.good rest).read (List.replicate 8 0) (8 : ℕ)
        = .ok (header, if 8 ≤ rest.length then Reader.good (rest.drop 8) else Reader.exhausted) ∧
      (sizeOfBytes header).toNat = frameSizeField rest := by
  by_cases hheader : 8 ≤ rest.length
  · refine ⟨rest.take 8 ++ (List.replicate 8 0).drop 8, ?_, ?_⟩
    · rw [Reader.read_of_le (by simp) hheader, if_pos hheader]
    · rw [toNat_sizeOfBytes (by simp)]
      simp [frameSizeField]
  · refine ⟨rest ++ (List.replicate 8 0).drop rest.length, ?_, ?_⟩
    · rw [Reader.read_of_lt (by simp) (by omega), if_neg hheader]
    · rw [toNat_sizeOfBytes (by simp; omega), List.drop_replicate,
        LittleEndian.decode_append_replicate_zero, frameSizeField,
        List.take_of_length_le (by omega)]

/-- Reading the body of a frame into a zero-filled buffer. -/
theorem read_body (rest : List UInt8) :
    (if 8 ≤ rest.length then Reader.good (rest.drop 8) else Reader.exhausted).read
        (List.replicate (frameSizeField rest) 0) (frameSizeField rest)
      = .ok (frameBuffer rest, afterFrame rest) := by
  have hbuffer : frameSizeField rest ≤ (List.replicate (frameSizeField rest) (0 : UInt8)).length := by
    simp
  by_cases hheader : 8 ≤ rest.length
  · rw [if_pos hheader]
    -- the body is complete, or the file ends in it
    by_cases hbody : 8 + frameSizeField rest ≤ rest.length
    · rw [Reader.read_of_le hbuffer (by rw [List.length_drop]; omega), afterFrame, if_pos hbody,
        List.drop_drop, frameBuffer, List.drop_replicate]
      congr 4
      omega
    · rw [Reader.read_of_lt hbuffer (by rw [List.length_drop]; omega), afterFrame, if_neg hbody,
        frameBuffer, List.drop_replicate, slice,
        List.take_of_length_le (by rw [List.length_drop]; dsimp only; omega), List.length_drop]
  · -- the file ended in the header, so the body is all zeros
    rw [if_neg hheader, Reader.read_exhausted hbuffer, afterFrame, if_neg (by omega), frameBuffer,
      slice, List.drop_of_length_le (by dsimp only; omega), List.take_nil, List.nil_append,
      show rest.length - 8 = 0 by omega, Nat.sub_zero]

section Frame

variable (decode : List UInt8 → Except Fault Packet) {fits : ℕ → Bool}

/-- **One iteration** of the loop of `Receive` on a good stream. -/
theorem receiveIteration_good (hfits : SizeLimited fits) (rest : List UInt8) :
    receiveIteration decode fits (Reader.good rest) =
      if frameSizeField rest = 0 then .ok none
      else if fits (frameSizeField rest) = false then .error (.allocation (frameSizeField rest))
      else decode (frameBuffer rest) >>= fun packet => .ok (some (packet, afterFrame rest)) := by
  obtain ⟨header, hread, hsize⟩ := read_header rest
  rw [receiveIteration, hread, ok_bind]
  simp only [toInt64_eq_zero_iff, UInt64.toUInt64_toInt64, hsize]
  by_cases hzero : frameSizeField rest = 0
  · rw [if_pos hzero, if_pos hzero]
    rfl
  rw [if_neg hzero, if_neg hzero]
  by_cases hfit : fits (frameSizeField rest) = false
  · rw [if_pos hfit, allocate_of_not_fits hfit, error_bind]
  -- a size that can be allocated is not negative as a streamsize
  have hfit' : fits (frameSizeField rest) = true := by simpa using hfit
  have hint : (sizeOfBytes header).toInt64.toInt = (frameSizeField rest : ℤ) := by
    rw [toInt_toInt64 (by rw [hsize]; exact hfits _ hfit'), hsize]
  rw [if_neg hfit, allocate_of_fits hfit', ok_bind, hint, read_body, ok_bind]
  rfl

theorem receiveLoop_exhausted (returnPackets : List Packet) :
    receiveLoop decode fits Reader.exhausted returnPackets = .ok returnPackets := by
  rw [receiveLoop, dif_pos (show Reader.exhausted.eof = true from rfl)]

/-- **One round** of the loop of `Receive` in terms of the bytes left in the file. -/
theorem receiveLoop_good (hfits : SizeLimited fits) (rest : List UInt8)
    (returnPackets : List Packet) :
    receiveLoop decode fits (Reader.good rest) returnPackets =
      if frameSizeField rest = 0 then .ok returnPackets
      else if fits (frameSizeField rest) = false then .error (.allocation (frameSizeField rest))
      else decode (frameBuffer rest) >>= fun packet =>
        if 8 + frameSizeField rest ≤ rest.length then
          receiveLoop decode fits (Reader.good (rest.drop (8 + frameSizeField rest)))
            (returnPackets ++ [packet])
        else .ok (returnPackets ++ [packet]) := by
  rw [receiveLoop, dif_neg (by simp [Reader.good])]
  have hstep := receiveIteration_good decode hfits rest
  by_cases hzero : frameSizeField rest = 0
  · rw [if_pos hzero] at hstep ⊢
    rw [hstep]
  by_cases hfit : fits (frameSizeField rest) = false
  · rw [if_neg hzero, if_pos hfit] at hstep ⊢
    rw [hstep]
  rw [if_neg hzero, if_neg hfit] at hstep ⊢
  cases hdecode : decode (frameBuffer rest) with
  | error fault =>
    rw [hdecode, error_bind] at hstep
    rw [hstep, error_bind]
  | ok packet =>
    rw [hdecode, ok_bind] at hstep
    rw [hstep, ok_bind]
    dsimp only
    by_cases hbody : 8 + frameSizeField rest ≤ rest.length
    · rw [afterFrame, if_pos hbody, if_pos hbody]
    · rw [afterFrame, if_neg hbody, if_neg hbody, receiveLoop_exhausted]

/-- How the loop can return: at a zero header, or with the packet of the next frame, after which it
goes on if the frame was complete. -/
theorem receiveLoop_eq_ok (hfits : SizeLimited fits) {rest : List UInt8}
    {returnPackets result : List Packet}
    (h : receiveLoop decode fits (Reader.good rest) returnPackets = .ok result) :
    (frameSizeField rest = 0 ∧ result = returnPackets) ∨
    (frameSizeField rest ≠ 0 ∧ fits (frameSizeField rest) = true ∧
      ∃ packet, decode (frameBuffer rest) = .ok packet ∧
        ((8 + frameSizeField rest ≤ rest.length ∧
            receiveLoop decode fits (Reader.good (rest.drop (8 + frameSizeField rest)))
              (returnPackets ++ [packet]) = .ok result) ∨
          (rest.length < 8 + frameSizeField rest ∧ result = returnPackets ++ [packet]))) := by
  rw [receiveLoop_good decode hfits] at h
  by_cases hzero : frameSizeField rest = 0
  · rw [if_pos hzero] at h
    exact Or.inl ⟨hzero, (Except.ok.inj h).symm⟩
  by_cases hfit : fits (frameSizeField rest) = false
  · rw [if_neg hzero, if_pos hfit] at h
    cases h
  rw [if_neg hzero, if_neg hfit] at h
  obtain ⟨packet, hdecode, h⟩ := bind_eq_ok.mp h
  refine Or.inr ⟨hzero, by simpa using hfit, packet, hdecode, ?_⟩
  by_cases hwhole : 8 + frameSizeField rest ≤ rest.length
  · rw [if_pos hwhole] at h
    exact Or.inl ⟨hwhole, h⟩
  · rw [if_neg hwhole] at h
    exact Or.inr ⟨Nat.not_le.mp hwhole, (Except.ok.inj h).symm⟩

end Frame

/-! ## Whole frames -/

namespace Packet

/-- The frame of a packet. -/
def frame (packet : Packet) : List UInt8 :=
  LittleEndian.encode 8 packet.messageSize ++ packet.message

@[simp] theorem length_frame (packet : Packet) :
    packet.frame.length = 8 + packet.messageSize := by
  rw [frame, List.length_append, LittleEndian.length_encode, length_message]

/-- The frames of a list of packets, one behind the other. -/
def frames (packets : List Packet) : List UInt8 := packets.flatMap frame

@[simp] theorem frames_nil : frames [] = [] := rfl

@[simp] theorem frames_cons (packet : Packet) (packets : List Packet) :
    frames (packet :: packets) = packet.frame ++ frames packets := rfl

@[simp] theorem frames_append (front back : List Packet) :
    frames (front ++ back) = frames front ++ frames back := List.flatMap_append ..

/-- Packets whose length is a positive `std::streamsize`. -/
def Sized (packet : Packet) : Prop := packet.messageSize < 2 ^ 63

instance (packet : Packet) : Decidable packet.Sized := inferInstanceAs (Decidable (_ < _))

/-- The length of the frame fits in its header. -/
theorem Sized.mod_eq {packet : Packet} (h : packet.Sized) :
    packet.messageSize % 256 ^ 8 = packet.messageSize := by
  apply Nat.mod_eq_of_lt
  exact lt_trans h (by norm_num)

end Packet

/-- The header of a frame, or what a cut leaves of it. -/
theorem decode_take_frame (packet : Packet) {j : ℕ} (hj : j ≤ 8) :
    LittleEndian.decode (packet.frame.take j) = packet.messageSize % 256 ^ j := by
  rw [Packet.frame, List.take_append_of_le_length (by rw [LittleEndian.length_encode]; exact hj),
    LittleEndian.decode_take_encode _ hj]

section WholeFrames

variable {packet : Packet} (hsized : packet.Sized) (tail : List UInt8)

include hsized

theorem frameSizeField_frame_append :
    frameSizeField (packet.frame ++ tail) = packet.messageSize := by
  rw [frameSizeField, List.take_append_of_le_length (by rw [Packet.length_frame]; omega),
    decode_take_frame packet le_rfl, hsized.mod_eq]

theorem frameBuffer_frame_append :
    frameBuffer (packet.frame ++ tail) = packet.message := by
  have hmiddle : slice (packet.frame ++ tail) ⟨8, packet.messageSize⟩ = packet.message := by
    rw [Packet.frame, List.append_assoc]
    exact slice_append _ _ _ (by rw [LittleEndian.length_encode]) (by rw [Packet.length_message])
  have hzeros : packet.messageSize - ((packet.frame ++ tail).length - 8) = 0 := by
    rw [List.length_append, Packet.length_frame]
    omega
  rw [frameBuffer, frameSizeField_frame_append hsized, hmiddle, hzeros, List.replicate_zero,
    List.append_nil]

/-- The packet of a frame fits in addressable memory, with all its parts. -/
theorem deserialize_frameBuffer_frame_append :
    deserialize addressable (frameBuffer (packet.frame ++ tail)) = .ok packet := by
  have hsize : packet.schema.length + packet.data.length + 16 < 2 ^ 63 := hsized
  have hmessage : deserialize addressable (packet.message ++ []) = .ok packet :=
    deserialize_message_append (by rw [Packet.messageSize]; omega)
      (addressable_eq_true.mpr (by omega)) (addressable_eq_true.mpr (by omega)) []
  rwa [List.append_nil, ← frameBuffer_frame_append hsized tail] at hmessage

/-- The loop takes one whole frame off the file and appends its packet. -/
theorem receiveLoop_frame_append (returnPackets : List Packet) :
    receiveLoop (deserialize addressable) addressable (Reader.good (packet.frame ++ tail))
        returnPackets
      = receiveLoop (deserialize addressable) addressable (Reader.good tail)
          (returnPackets ++ [packet]) := by
  have hlength : (packet.frame ++ tail).length = 8 + packet.messageSize + tail.length := by
    rw [List.length_append, Packet.length_frame]
  have hsixteen := packet.sixteen_le_messageSize
  have hfits : addressable packet.messageSize = true := addressable_eq_true.mpr hsized
  rw [receiveLoop_good _ sizeLimited_addressable, deserialize_frameBuffer_frame_append hsized,
    frameSizeField_frame_append hsized, if_neg (by omega), if_neg (by simp [hfits]), ok_bind,
    if_pos (by omega), ← Packet.length_frame, List.drop_left]

end WholeFrames

/-- **Whole frames.** The loop returns the packets of the frames in front of `tail` and goes on with
`tail`. -/
theorem receiveLoop_frames_append {packets : List Packet}
    (hsized : ∀ packet ∈ packets, packet.Sized) (tail : List UInt8) (returnPackets : List Packet) :
    receiveLoop (deserialize addressable) addressable (Reader.good (Packet.frames packets ++ tail))
        returnPackets
      = receiveLoop (deserialize addressable) addressable (Reader.good tail)
          (returnPackets ++ packets) := by
  induction packets generalizing returnPackets with
  | nil => rw [Packet.frames_nil, List.nil_append, List.append_nil]
  | cons packet packets ih =>
    rw [Packet.frames_cons, List.append_assoc,
      receiveLoop_frame_append (hsized packet List.mem_cons_self),
      ih (fun q hq => hsized q (List.mem_cons_of_mem _ hq)), List.append_assoc, List.singleton_append]

/-- At the end of the file the loop breaks on a header that stayed zero. -/
theorem receiveLoop_nil (decode : List UInt8 → Except Fault Packet) {fits : ℕ → Bool}
    (hfits : SizeLimited fits) (returnPackets : List Packet) :
    receiveLoop decode fits (Reader.good []) returnPackets = .ok returnPackets := by
  rw [receiveLoop_good decode hfits, if_pos (show frameSizeField [] = 0 from rfl)]

/-! ## Sending a frame -/

/-- The file behind a send: what its open left of the content, then the frame. -/
def sentContent (first : Bool) (content : Option (List UInt8)) (packet : Packet) : List UInt8 :=
  (if first then kSignature else content.getD []) ++ packet.frame

/-- **What a send does.** It completes, clears the flag, and extends the file by one frame when its
open succeeds. -/
theorem send_eq {packet : Packet} (hsized : packet.Sized) (opens : Bool)
    (transport : FileTransport) (disk : Disk) :
    transport.send addressable opens packet disk =
      (.ok (), { transport with firstTimeSending := false },
        if opens then Function.update disk transport.filename
          (some (sentContent transport.firstTimeSending (disk transport.filename) packet))
        else disk) := by
  have hsize : packet.messageSize < 2 ^ 63 := hsized
  have hserialized : serializePacket addressable packet = .ok packet.message :=
    serializePacket_eq (by omega) (addressable_eq_true.mpr hsize)
  have hbytes : sizeBytes (UInt64.ofNat packet.message.length)
      = LittleEndian.encode 8 packet.messageSize := by
    rw [Packet.length_message, sizeBytes_ofNat (by omega)]
  have hcount : (UInt64.ofNat packet.message.length).toInt64.toInt.toNat = packet.messageSize := by
    have hnat : (UInt64.ofNat packet.message.length).toNat = packet.messageSize := by
      rw [toNat_ofNat_size] <;> rw [Packet.length_message]
      omega
    rw [toInt_toInt64 (by rw [hnat]; exact hsize), hnat, Int.toNat_natCast]
  have hbody : packet.message.take packet.messageSize = packet.message :=
    List.take_of_length_le (by rw [Packet.length_message])
  obtain ⟨filename, first⟩ := transport
  cases opens <;> cases first <;>
    simp only [FileTransport.send, hserialized, hbytes, hcount, hbody, sentContent, Packet.frame,
      Writer.openFile_truncate, Writer.openFile_append, Writer.openFile_failed, Writer.write_update,
      Writer.write_closed, if_true, if_false, Bool.false_eq_true, List.nil_append, List.append_assoc]

/-- A signed file of whole frames is received as the list of its packets. -/
theorem receiveContent_frames {packets : List Packet} (hsized : ∀ packet ∈ packets, packet.Sized) :
    receiveContent (deserialize addressable) addressable
        (some (kSignature ++ Packet.frames packets)) = .ok packets := by
  have hloop := receiveLoop_frames_append hsized [] []
  rw [List.append_nil, receiveLoop_nil _ sizeLimited_addressable, List.nil_append] at hloop
  rw [receiveContent_signed, hloop]

end Contra
