import Contra.FileTruncation
import Contra.Foundation.GrowingFile

/-! # Receiving while a packet is sent

One `FileTransport` object sends, others call `Receive`, and they run at the same time. The bytes of a
`Send` reach the file in pieces, and a `Receive` gets the bytes of the file in pieces. `ReceivePlace.next` is
`Receive` from one `read` to the next one, `receiveProgram` ties it to `receiveContent`, and
`receive_while_sending` says what a `Receive` returns: what it would return on the file cut short at some
moment between its start and its end. -/

namespace Contra

open CheckedMemory FileStream

/-! ## The reads of `Receive` -/

/-- Where a `Receive` is. -/
inductive ReceivePlace where
  /-- At `ReadAndCheckSignature`. -/
  | signature
  /-- At the test of the loop, with the packets appended so far. -/
  | header (returnPackets : List Packet)
  /-- In front of the read of a packet, with a vector of that many zeros. -/
  | body (returnPackets : List Packet) (size : ℕ)
  /-- At its end. -/
  | returned (result : Except Fault (List Packet))

namespace ReceivePlace

/-- What was returned. -/
def outcome : ReceivePlace → Option (Except Fault (List Packet))
  | .returned result => some result
  | _ => none

theorem eq_returned {place : ReceivePlace} {result : Except Fault (List Packet)}
    (h : place.outcome = some result) : place = .returned result := by
  cases place with
  | returned other => rw [Option.some.inj h]
  | _ => cases h

/-- The bytes that the next read asks for. -/
def wanted : ReceivePlace → ℕ
  | .signature => kSignatureLength
  | .header _ => 8
  | .body _ size => size
  | .returned _ => 0

/-- From a read to the next one; a fault ends the call. -/
def afterRead {α : Type} (stream : Reader) (read : Except Fault (α × Reader)) (place : α → ReceivePlace) :
    ReceivePlace × Reader :=
  match read with
  | .error fault => (.returned (.error fault), stream)
  | .ok (value, stream) => (place value, stream)

section Next

variable (decode : List UInt8 → Except Fault Packet) (fits : ℕ → Bool)

/-- `Receive` up to the read after the next one. -/
def next (place : ReceivePlace) (stream : Reader) : ReceivePlace × Reader :=
  match place with
  | .signature =>
    afterRead stream (readAndCheckSignature stream) fun matched =>
      if matched then .header [] else .returned (.ok [])
  | .header returnPackets =>
    if stream.eof then (.returned (.ok returnPackets), stream)
    else
      afterRead stream (stream.read (List.replicate 8 0) (8 : ℕ)) fun header =>
        let size : Int64 := (sizeOfBytes header).toInt64
        if size = 0 then .returned (.ok returnPackets)
        else
          match allocate fits size.toUInt64.toNat with
          | .error fault => .returned (.error fault)
          | .ok serializedPacket => .body returnPackets serializedPacket.length
  | .body returnPackets size =>
    afterRead stream (stream.read (List.replicate size 0) size) fun serializedPacket =>
      match decode serializedPacket with
      | .error fault => .returned (.error fault)
      | .ok packet => .header (returnPackets ++ [packet])
  | .returned result => (.returned result, stream)

/-- What `Receive` returns from a place on, when nobody comes between. -/
def result (place : ReceivePlace) (stream : Reader) : Except Fault (List Packet) :=
  match place with
  | .signature => do
    let (matched, stream) ← readAndCheckSignature stream
    if matched then receiveLoop decode fits stream [] else return []
  | .header returnPackets => receiveLoop decode fits stream returnPackets
  | .body returnPackets size => do
    let (serializedPacket, stream) ← stream.read (List.replicate size 0) size
    let packet ← decode serializedPacket
    receiveLoop decode fits stream (returnPackets ++ [packet])
  | .returned result => result

/-- More than the number of reads left. -/
def readsLeft (place : ReceivePlace) (stream : Reader) : ℕ :=
  match place with
  | .signature => 2 * stream.remaining + 2
  | .header _ => 2 * stream.remaining + 1
  | .body _ _ => 2 * stream.remaining + 2
  | .returned _ => 0

end Next

/-! ## What a read does -/

section Laws

variable {decode : List UInt8 → Except Fault Packet} {fits : ℕ → Bool}

/-- Without bytes of the file there is nothing to decide on. -/
theorem bad_afterRead {α : Type} {stream : Reader} {read : Except Fault (α × Reader)}
    (hread : ∀ value stream', read = .ok (value, stream') → stream'.bad = true)
    (hbad : stream.bad = true) (place : α → ReceivePlace) : (afterRead stream read place).2.bad = true := by
  cases read with
  | error fault => exact hbad
  | ok value => exact hread value.1 value.2 rfl

/-- The read of the signature takes the stream as it is. -/
theorem exists_read_of_readAndCheckSignature {stream stream' : Reader} {matched : Bool}
    (h : readAndCheckSignature stream = .ok (matched, stream')) : ∃ signatureBuffer,
      stream.read (List.replicate (kSignatureLength + 1) 0) kSignatureLength
        = .ok (signatureBuffer, stream') := by
  unfold readAndCheckSignature at h
  obtain ⟨⟨signatureBuffer, middle⟩, hread, h⟩ := bind_eq_ok.mp h
  obtain ⟨signature, -, h⟩ := bind_eq_ok.mp h
  obtain ⟨-, rfl⟩ := Prod.mk.inj (Except.ok.inj h)
  exact ⟨signatureBuffer, hread⟩

theorem bad_next (place : ReceivePlace) (stream : Reader) (hbad : stream.bad = true) :
    (place.next decode fits stream).2.bad = true := by
  cases place with
  | signature =>
    refine bad_afterRead (fun matched stream' hread => ?_) hbad _
    obtain ⟨_, hread⟩ := exists_read_of_readAndCheckSignature hread
    exact Reader.bad_of_read hread hbad
  | header returnPackets =>
    rw [next]
    split
    · exact hbad
    · exact bad_afterRead (fun _ _ hread => Reader.bad_of_read hread hbad) hbad _
  | body returnPackets size =>
    exact bad_afterRead (fun _ _ hread => Reader.bad_of_read hread hbad) hbad _
  | returned result => exact hbad

/-- What the body of the loop does once it has the size. -/
theorem receiveIteration_of_read (hfits : SizeLimited fits) {stream stream' : Reader}
    {header : List UInt8} (hread : stream.read (List.replicate 8 0) (8 : ℕ) = .ok (header, stream')) :
    receiveIteration decode fits stream =
      if (sizeOfBytes header).toInt64 = 0 then .ok none
      else if fits (sizeOfBytes header).toNat = false then
        .error (.allocation (sizeOfBytes header).toNat)
      else stream'.read (List.replicate (sizeOfBytes header).toNat 0) (sizeOfBytes header).toNat
        >>= fun (serializedPacket, stream) => decode serializedPacket >>= fun packet =>
          .ok (some (packet, stream)) := by
  rw [receiveIteration, hread, ok_bind]
  split_ifs with hzero hfit
  · simp only [if_pos hzero]
    rfl
  · simp only [if_neg hzero, UInt64.toUInt64_toInt64, allocate_of_not_fits hfit, error_bind]
  · -- a size that can be allocated is not negative as a streamsize
    have hfit' : fits (sizeOfBytes header).toNat = true := by simpa using hfit
    simp only [if_neg hzero, UInt64.toUInt64_toInt64, allocate_of_fits hfit', ok_bind,
      toInt_toInt64 (hfits _ hfit')]
    rfl

/-- The loop goes through the reads of its body. -/
theorem result_next_header (hfits : SizeLimited fits) (returnPackets : List Packet) (stream : Reader) :
    ((header returnPackets).next decode fits stream).1.result decode fits
        ((header returnPackets).next decode fits stream).2
      = receiveLoop decode fits stream returnPackets := by
  rw [receiveLoop, next]
  by_cases heof : stream.eof = true
  · rw [if_pos heof, dif_pos heof]
    rfl
  rw [if_neg heof, dif_neg heof]
  cases hread : stream.read (List.replicate 8 0) (8 : ℕ) with
  | error fault =>
    have hstep : receiveIteration decode fits stream = .error fault := by
      rw [receiveIteration, hread, error_bind]
    rw [hstep]
    rfl
  | ok value =>
    obtain ⟨header, stream'⟩ := value
    have hstep := @receiveIteration_of_read decode fits hfits stream stream' header hread
    rw [afterRead]
    by_cases hzero : (sizeOfBytes header).toInt64 = 0
    · rw [if_pos hzero] at hstep
      rw [hstep]
      simp only [if_pos hzero]
      rfl
    rw [if_neg hzero] at hstep
    simp only [if_neg hzero, UInt64.toUInt64_toInt64]
    by_cases hfit : fits (sizeOfBytes header).toNat = false
    · rw [if_pos hfit] at hstep
      rw [hstep, allocate_of_not_fits hfit]
      rfl
    · rw [if_neg hfit] at hstep
      rw [allocate_of_fits (by simpa using hfit), hstep]
      simp only [List.length_replicate, result]
      cases stream'.read (List.replicate (sizeOfBytes header).toNat 0) (sizeOfBytes header).toNat with
      | error fault => rfl
      | ok value =>
        obtain ⟨serializedPacket, last⟩ := value
        simp only [ok_bind]
        cases decode serializedPacket with
        | error fault => rfl
        | ok packet => rfl

/-- After the next read the result is the same. -/
theorem result_next (hfits : SizeLimited fits) (place : ReceivePlace) (stream : Reader) :
    (place.next decode fits stream).1.result decode fits (place.next decode fits stream).2
      = place.result decode fits stream := by
  cases place with
  | signature =>
    rw [next, result]
    cases readAndCheckSignature stream with
    | error fault => rfl
    | ok value =>
      obtain ⟨matched, stream'⟩ := value
      cases matched with
      | true => rfl
      | false => rfl
  | header returnPackets => exact result_next_header hfits returnPackets stream
  | body returnPackets size =>
    rw [next, result]
    cases stream.read (List.replicate size 0) size with
    | error fault => rfl
    | ok value =>
      obtain ⟨serializedPacket, stream'⟩ := value
      rw [afterRead, ok_bind]
      cases hdecode : decode serializedPacket with
      | error fault => simp [hdecode, result]
      | ok packet => simp [hdecode, result]
  | returned result => rfl

/-- A read that finds its bytes leaves alone what follows them. -/
theorem next_append (place : ReceivePlace) (front : List UInt8) (h : place.wanted ≤ front.length) :
    ∃ rest, (place.next decode fits (Reader.good front)).2 = Reader.good rest ∧
      ∀ tail, place.next decode fits (Reader.good (front ++ tail))
        = ((place.next decode fits (Reader.good front)).1, Reader.good (rest ++ tail)) := by
  cases place with
  | signature =>
    have hfront : 6 ≤ front.length := h
    refine ⟨front.drop 6, ?_, fun tail => ?_⟩
    · rw [next, readAndCheckSignature_good, if_neg (Nat.not_lt.mpr hfront)]
      rfl
    · have hlength : ¬ (front ++ tail).length < 6 := by
        rw [List.length_append]
        omega
      rw [next, next, readAndCheckSignature_good, readAndCheckSignature_good, if_neg hlength,
        List.take_append_of_le_length hfront, List.drop_append_of_le_length hfront]
      rfl
  | header returnPackets =>
    have hfront : 8 ≤ front.length := h
    have hbuffer : 8 ≤ (List.replicate 8 (0 : UInt8)).length := by simp
    have hread := Reader.read_append_of_le hbuffer hfront
    have hfirst := hread []
    rw [List.append_nil, List.append_nil] at hfirst
    refine ⟨front.drop 8, ?_, fun tail => ?_⟩
    · rw [next, if_neg (by simp [Reader.good]), hfirst]
      rfl
    · rw [next, next, if_neg (by simp [Reader.good]), if_neg (by simp [Reader.good]), hfirst,
        hread tail]
      rfl
  | body returnPackets size =>
    have hfront : size ≤ front.length := h
    have hbuffer : size ≤ (List.replicate size (0 : UInt8)).length := by simp
    have hread := Reader.read_append_of_le hbuffer hfront
    have hfirst := hread []
    rw [List.append_nil, List.append_nil] at hfirst
    refine ⟨front.drop size, ?_, fun tail => ?_⟩
    · rw [next, hfirst]
      rfl
    · rw [next, next, hfirst, hread tail]
      rfl
  | returned result => exact ⟨front, rfl, fun tail => rfl⟩

/-- A read that does not find all its bytes ends the stream. -/
theorem next_short (place : ReceivePlace) (front : List UInt8) (h : front.length < place.wanted) :
    (place.next decode fits (Reader.good front)).2.bad = true := by
  cases place with
  | signature =>
    have hfront : front.length < 6 := h
    rw [next, readAndCheckSignature_good, if_pos hfront]
    rfl
  | header returnPackets =>
    have hfront : front.length < 8 := h
    rw [next, if_neg (by simp [Reader.good]), Reader.read_of_lt (by simp) hfront]
    rfl
  | body returnPackets size =>
    have hfront : front.length < size := h
    rw [next, Reader.read_of_lt (by simp) hfront]
    rfl
  | returned result => exact absurd h (Nat.not_lt_zero _)

/-- A header that is not zero was read from the file. -/
theorem remaining_lt_of_header {stream stream' : Reader} {header : List UInt8}
    (heof : ¬ stream.eof = true)
    (hread : stream.read (List.replicate 8 0) (8 : ℕ) = .ok (header, stream'))
    (hsize : ¬ (sizeOfBytes header).toInt64 = 0) : stream'.remaining < stream.remaining := by
  have hrest := (Reader.rest_le_of_read hread).1
  have hstream : stream.remaining = stream.rest.length + 1 := by
    rw [Reader.remaining, if_neg heof]
  rw [hstream, Reader.remaining]
  rcases Reader.read_progress hread with htaken | heof' | hzero
  · split <;> omega
  · rw [if_pos heof']
    omega
  · exact absurd (by rw [hzero]; rfl) hsize

/-- Every read is one of those left. -/
theorem readsLeft_next (place : ReceivePlace) (stream : Reader) (h : place.outcome = none) :
    (place.next decode fits stream).1.readsLeft (place.next decode fits stream).2
      < place.readsLeft stream := by
  cases place with
  | signature =>
    rw [next]
    cases hread : readAndCheckSignature stream with
    | error fault => exact Nat.succ_pos _
    | ok value =>
      obtain ⟨matched, stream'⟩ := value
      obtain ⟨_, hread⟩ := exists_read_of_readAndCheckSignature hread
      have hremaining := Reader.remaining_le_of_read hread
      cases matched with
      | true =>
        show 2 * stream'.remaining + 1 < 2 * stream.remaining + 2
        omega
      | false => exact Nat.succ_pos _
  | header returnPackets =>
    rw [next]
    by_cases heof : stream.eof = true
    · rw [if_pos heof]
      exact Nat.succ_pos _
    rw [if_neg heof]
    cases hread : stream.read (List.replicate 8 0) (8 : ℕ) with
    | error fault => exact Nat.succ_pos _
    | ok value =>
      obtain ⟨header, stream'⟩ := value
      rw [afterRead]
      dsimp only
      by_cases hzero : (sizeOfBytes header).toInt64 = 0
      · rw [if_pos hzero]
        exact Nat.succ_pos _
      rw [if_neg hzero]
      have hremaining := remaining_lt_of_header heof hread hzero
      cases allocate fits (sizeOfBytes header).toInt64.toUInt64.toNat with
      | error fault => exact Nat.succ_pos _
      | ok serializedPacket =>
        show 2 * stream'.remaining + 2 < 2 * stream.remaining + 1
        omega
  | body returnPackets size =>
    rw [next]
    cases hread : stream.read (List.replicate size 0) size with
    | error fault => exact Nat.succ_pos _
    | ok value =>
      obtain ⟨serializedPacket, stream'⟩ := value
      have hremaining := Reader.remaining_le_of_read hread
      rw [afterRead]
      cases decode serializedPacket with
      | error fault => exact Nat.succ_pos _
      | ok packet =>
        show 2 * stream'.remaining + 1 < 2 * stream.remaining + 2
        omega
  | returned result => cases h

end Laws

end ReceivePlace

/-- `Receive` on a file that grows. -/
def receiveProgram (decode : List UInt8 → Except Fault Packet) {fits : ℕ → Bool}
    (hfits : SizeLimited fits) : StreamProgram ReceivePlace (Except Fault (List Packet)) where
  start := .signature
  outcome := ReceivePlace.outcome
  wanted := ReceivePlace.wanted
  next := ReceivePlace.next decode fits
  result := ReceivePlace.result decode fits
  readsLeft := ReceivePlace.readsLeft
  result_of_outcome place stream result houtcome := by
    cases place with
    | returned _ => exact Option.some.inj houtcome
    | _ => cases houtcome
  result_next := ReceivePlace.result_next hfits
  next_append := ReceivePlace.next_append
  next_short := ReceivePlace.next_short
  bad_next := ReceivePlace.bad_next
  readsLeft_next := ReceivePlace.readsLeft_next

/-- All at once, its reads are `Receive` on the content of the file. -/
theorem receiveProgram_result (decode : List UInt8 → Except Fault Packet) {fits : ℕ → Bool}
    (hfits : SizeLimited fits) (content : List UInt8) :
    (receiveProgram decode hfits).result (receiveProgram decode hfits).start (Reader.good content)
      = receiveContent decode fits (some content) := rfl

/-! ## One sender and its receivers -/

/-- A `Receive`, from its open on. -/
structure ReceiveCall where
  /-- Where it is. -/
  cursor : Cursor ReceivePlace
  /-- History: the file when it was opened. -/
  began : List UInt8

/-- An object that sends, the file, and the objects that receive. -/
structure FileProcesses (ι : Type*) where
  /-- `first_time_sending_` of the object that sends. -/
  firstTimeSending : Bool
  /-- The file. -/
  content : List UInt8
  /-- In a `Send`: what it has written and the file does not have yet. -/
  pending : Option (List UInt8)
  /-- The last `Receive` of every object. -/
  receives : ι → Option ReceiveCall

/-- What can happen next to the file or a call. -/
inductive FileAction (ι : Type*) where
  /-- A `Send` opens the file. -/
  | startSend (packet : Packet)
  /-- Bytes that it has written reach the file. -/
  | flush (count : ℕ)
  /-- It closes the file, which has all bytes by then. -/
  | finishSend
  /-- A `Receive` opens the file. -/
  | startReceive (i : ι)
  /-- It goes on. -/
  | receive (i : ι) (move : CursorMove)

/-- The packet that a `Send` starts with. -/
def FileAction.sent {ι : Type*} : FileAction ι → Option Packet
  | .startSend packet => some packet
  | _ => none

theorem FileAction.eq_of_sent {ι : Type*} {action : FileAction ι} {packet : Packet}
    (h : action.sent = some packet) : action = .startSend packet := by
  cases action with
  | startSend other => rw [Option.some.inj h]
  | _ => cases h

/-- The bytes that a `Send` writes behind the signature. -/
def sendBytes (fits : ℕ → Bool) (packet : Packet) : Except Fault (List UInt8) := do
  let serializedPacket ← serializePacket fits packet
  let size := UInt64.ofNat serializedPacket.length
  let count : Int64 := size.toInt64
  return sizeBytes size ++ serializedPacket.take count.toInt.toNat

namespace FileProcesses

variable {ι : Type*}

/-- Nothing was sent, and nobody receives; there may be an old file. -/
def fresh (stale : List UInt8) : FileProcesses ι := ⟨true, stale, none, fun _ => none⟩

variable [DecidableEq ι]

/-- One step; `none` where it is not possible, or where `Send` throws. -/
def step (processes : FileProcesses ι) : FileAction ι → Option (FileProcesses ι)
  | .startSend packet =>
    match processes.pending, sendBytes addressable packet with
    | none, .ok bytes =>
      if processes.firstTimeSending then
        -- the open empties the file, and the signature is the first to be written
        some { processes with
          firstTimeSending := false
          content := []
          pending := some (kSignature ++ bytes) }
      else some { processes with pending := some bytes }
    | _, _ => none
  | .flush count => processes.pending.map fun bytes => { processes with
      content := processes.content ++ bytes.take count
      pending := some (bytes.drop count) }
  | .finishSend =>
    if processes.pending = some [] then some { processes with pending := none } else none
  | .startReceive i =>
    if (processes.receives i).all fun call => call.cursor.place.outcome.isSome then
      let call := ⟨.opened (receiveProgram (deserialize addressable) sizeLimited_addressable),
        processes.content⟩
      some { processes with receives := Function.update processes.receives i (some call) }
    else none
  | .receive i move => (processes.receives i).bind fun call =>
      (call.cursor.move (receiveProgram (deserialize addressable) sizeLimited_addressable)
        processes.content move).map fun cursor =>
          let call := { call with cursor := cursor }
          { processes with receives := Function.update processes.receives i (some call) }

/-! ## The invariant -/

variable {processes processes' : FileProcesses ι} {packet : Packet} {i : ι}

/-- The bytes of a `Send` are those of the frame. -/
theorem sendBytes_eq (hsized : packet.Sized) : sendBytes addressable packet = .ok packet.frame := by
  have hsize : packet.messageSize < 2 ^ 63 := hsized
  have hnat : (UInt64.ofNat packet.messageSize).toNat = packet.messageSize :=
    toNat_ofNat_size (by omega)
  rw [sendBytes, serializePacket_eq (by omega) (addressable_eq_true.mpr hsize), ok_bind]
  simp only [Packet.length_message]
  rw [toInt_toInt64 (by rw [hnat]; exact hsize), hnat, Int.toNat_natCast, sizeBytes_ofNat (by omega),
    List.take_of_length_le (by rw [Packet.length_message])]
  rfl

/-- **A `Send` at once** is the one of `FileTransport`, on the same file and with the same flag. -/
theorem run_send (hsized : packet.Sized) (hpending : processes.pending = none)
    {transport : FileTransport} {disk : Disk}
    (hflag : transport.firstTimeSending = processes.firstTimeSending)
    (hcontent : disk transport.filename = some processes.content) : ∃ last,
      Transition.run step processes
        [.startSend packet, .flush (kSignature ++ packet.frame).length, .finishSend] = some last ∧
      (transport.send addressable true packet disk).2.1.firstTimeSending = last.firstTimeSending ∧
      (transport.send addressable true packet disk).2.2 transport.filename = some last.content := by
  have hall : packet.frame.length ≤ (kSignature ++ packet.frame).length := by
    rw [List.length_append]
    exact Nat.le_add_left ..
  rw [send_eq hsized, hcontent, hflag, if_pos rfl]
  simp only [Function.update_self, sentContent]
  cases hfirst : processes.firstTimeSending with
  | true =>
    refine ⟨{ processes with
      firstTimeSending := false, content := kSignature ++ packet.frame, pending := none }, ?_, rfl, rfl⟩
    simp [Transition.run_cons, step, hpending, sendBytes_eq hsized, hfirst]
  | false =>
    refine ⟨{ processes with content := processes.content ++ packet.frame, pending := none }, ?_,
      hfirst.symm, rfl⟩
    simp only [Transition.run_cons, step, hpending, sendBytes_eq hsized, hfirst, Bool.false_eq_true,
      if_false, Option.bind_some, Option.map_some, List.take_of_length_le hall,
      List.drop_of_length_le hall, if_true, Transition.run_nil]

/-- After the `Send` calls `sent`: the file and what is still to come to it are their frames, and every
`Receive` follows the file. -/
structure Shared (sent : List Packet) (processes : FileProcesses ι) : Prop where
  /-- The first `Send` was made. -/
  signed : processes.firstTimeSending = false
  /-- The bytes of the file. -/
  file : processes.content ++ processes.pending.getD [] = kSignature ++ Packet.frames sent
  /-- The calls of the receivers. -/
  receives : ∀ i call, processes.receives i = some call →
    Cursor.Follows (receiveProgram (deserialize addressable) sizeLimited_addressable) call.began
      processes.content call.cursor

namespace Shared

variable {sent : List Packet}

/-- The next `Send` adds its frame to what is to come. -/
theorem startSend (h : Shared sent processes) (hsized : packet.Sized)
    (hstep : processes.step (.startSend packet) = some processes') :
    Shared (sent ++ [packet]) processes' := by
  have hfile := h.file
  rw [step, sendBytes_eq hsized] at hstep
  cases hpending : processes.pending with
  | some bytes =>
    rw [hpending] at hstep
    cases hstep
  | none =>
    rw [hpending] at hstep hfile
    simp only [h.signed, Bool.false_eq_true, if_false, Option.some.injEq] at hstep
    subst hstep
    refine ⟨rfl, ?_, h.receives⟩
    rw [Option.getD_none, List.append_nil] at hfile
    rw [Option.getD_some, hfile, Packet.frames_append, Packet.frames_cons, Packet.frames_nil,
      List.append_nil, List.append_assoc]

/-- Bytes come to the file, and every `Receive` goes on as before. -/
theorem flush (h : Shared sent processes) {count : ℕ}
    (hstep : processes.step (.flush count) = some processes') : Shared sent processes' := by
  obtain ⟨bytes, hpending, rfl⟩ := Option.map_eq_some_iff.mp hstep
  have hfile := h.file
  refine ⟨h.signed, ?_, fun i call hcall => (h.receives i call hcall).grow _⟩
  rw [hpending, Option.getD_some] at hfile
  rw [Option.getD_some, List.append_assoc, List.take_append_drop, hfile]

/-- A `Send` ends with nothing to come. -/
theorem finishSend (h : Shared sent processes)
    (hstep : processes.step .finishSend = some processes') : Shared sent processes' := by
  rw [step] at hstep
  split_ifs at hstep with hpending
  obtain rfl := Option.some.inj hstep
  have hfile := h.file
  rw [hpending] at hfile
  exact ⟨h.signed, hfile, h.receives⟩

/-- A new or a moved call follows the file if it does so by itself. -/
theorem update (h : Shared sent processes) {call : ReceiveCall}
    (hcall : Cursor.Follows (receiveProgram (deserialize addressable) sizeLimited_addressable) call.began
      processes.content call.cursor) :
    Shared sent { processes with receives := Function.update processes.receives i (some call) } := by
  refine ⟨h.signed, h.file, fun j other hother => ?_⟩
  by_cases hj : j = i
  · subst hj
    obtain rfl : call = other := by simpa using hother
    exact hcall
  · exact h.receives j other (by simpa [hj] using hother)

/-- **One step.** -/
theorem step (h : Shared sent processes) {action : FileAction ι}
    (hsized : ∀ packet, action = .startSend packet → packet.Sized)
    (hstep : processes.step action = some processes') :
    Shared (sent ++ action.sent.toList) processes' := by
  cases action with
  | startSend packet => exact h.startSend (hsized packet rfl) hstep
  | flush count =>
    show Shared (sent ++ []) processes'
    rw [List.append_nil]
    exact h.flush hstep
  | finishSend =>
    show Shared (sent ++ []) processes'
    rw [List.append_nil]
    exact h.finishSend hstep
  | startReceive i =>
    show Shared (sent ++ []) processes'
    rw [List.append_nil]
    rw [FileProcesses.step] at hstep
    split_ifs at hstep
    obtain rfl := Option.some.inj hstep
    exact h.update (.opened processes.content)
  | receive i move =>
    show Shared (sent ++ []) processes'
    rw [List.append_nil]
    obtain ⟨call, hcall, hmoved⟩ := Option.bind_eq_some_iff.mp hstep
    obtain ⟨cursor, hmove, rfl⟩ := Option.map_eq_some_iff.mp hmoved
    exact h.update ((h.receives i call hcall).move hmove)

end Shared

/-- The first `Send` makes a file of its own. -/
theorem shared_of_first {stale : List UInt8} (hsized : packet.Sized)
    (hstep : (fresh stale : FileProcesses ι).step (.startSend packet) = some processes) :
    Shared [packet] processes := by
  simp only [step, fresh, sendBytes_eq hsized, if_true, Option.some.injEq] at hstep
  subst hstep
  refine ⟨rfl, ?_, fun i call hcall => by cases hcall⟩
  rw [Option.getD_some, List.nil_append, Packet.frames_cons, Packet.frames_nil, List.append_nil]

/-- The invariant after every run. -/
theorem shared_of_run {stale : List UInt8} {first : Packet} {actions : List (FileAction ι)}
    (hsized : ∀ packet, FileAction.startSend packet ∈ .startSend first :: actions → packet.Sized)
    (hrun : Transition.run step (fresh stale) (.startSend first :: actions) = some processes) :
    Shared (first :: actions.filterMap FileAction.sent) processes := by
  obtain ⟨start, hstart, hrun⟩ := Transition.run_cons_eq_some.mp hrun
  have hallowed : ∀ action ∈ actions, ∀ packet, action = .startSend packet → packet.Sized := by
    rintro action hmem packet rfl
    exact hsized packet (List.mem_cons_of_mem _ hmem)
  apply Transition.run_induction_of_forall (fun actions processes =>
    Shared (first :: actions.filterMap FileAction.sent) processes) _ _ hallowed hrun
  · exact shared_of_first (hsized first List.mem_cons_self) hstart
  · intro actions action middle last _ hmiddle haction hstep
    have hlast := hmiddle.step haction hstep
    rw [List.filterMap_append, ← List.cons_append]
    cases hsent : action.sent <;> simpa [hsent] using hlast

/-- The moves of a `Receive` are steps, with the file as it is. -/
theorem run_receive {call : ReceiveCall} {moves : List CursorMove} {cursor : Cursor ReceivePlace}
    (hcall : processes.receives i = some call)
    (hrun : Transition.run (Cursor.move
      (receiveProgram (deserialize addressable) sizeLimited_addressable) processes.content)
        call.cursor moves = some cursor) :
    Transition.run step processes (moves.map (.receive i)) = some { processes with
      receives := Function.update processes.receives i (some { call with cursor := cursor }) } := by
  induction moves generalizing processes call with
  | nil =>
    obtain rfl : call.cursor = cursor := Option.some.inj hrun
    rw [List.map_nil, Transition.run_nil, ← hcall, Function.update_eq_self]
  | cons move moves ih =>
    obtain ⟨middle, hmove, hrest⟩ := Transition.run_cons_eq_some.mp hrun
    have hlater := @ih { processes with
      receives := Function.update processes.receives i (some { call with cursor := middle }) }
      { call with cursor := middle } (Function.update_self ..) hrest
    rw [Function.update_idem] at hlater
    refine Transition.run_cons_eq_some.mpr ⟨_, ?_, hlater⟩
    rw [step, hcall, Option.bind_some, hmove, Option.map_some]

end FileProcesses

/-- What lies within fewer bytes comes first. -/
theorem packetsWithin_prefix (packets : List Packet) {j k : ℕ} (h : j ≤ k) :
    packetsWithin packets j <+: packetsWithin packets k := by
  induction packets generalizing j k with
  | nil => exact List.prefix_rfl
  | cons packet packets ih =>
    rw [packetsWithin, packetsWithin]
    by_cases hj : 8 + packet.messageSize ≤ j
    · rw [if_pos hj, if_pos (hj.trans h)]
      exact List.cons_prefix_cons.mpr ⟨rfl, ih (Nat.sub_le_sub_right h _)⟩
    · rw [if_neg hj]
      exact List.nil_prefix

/-- **Receiving while a packet is sent.** From the first `Send` of an object on, in every interleaving of
the pieces in which its packets reach the file with the reads of any number of `Receive` calls: a `Receive`
that has returned did what it does on the file cut after some `k` bytes, no fewer than the file had when it
was opened and no more than it has now. It returned exactly the packets with frames among these if and only
if the cut is silent, and with them the packets that were complete when it was opened. And every `Receive`
can come to its end, whatever the others do not do. -/
theorem receive_while_sending {ι : Type*} [DecidableEq ι] (stale : List UInt8) (first : Packet)
    (actions : List (FileAction ι)) (processes : FileProcesses ι)
    (hsized : ∀ packet, FileAction.startSend packet ∈ .startSend first :: actions →
      packet.schema.length + packet.data.length + 16 < 2 ^ 63)
    (hrun : Transition.run FileProcesses.step (.fresh stale) (.startSend first :: actions)
      = some processes) (i : ι) (call : ReceiveCall) (hcall : processes.receives i = some call) :
    (∀ result, call.cursor.place = .returned result → ∃ k, call.began.length ≤ k ∧
      k ≤ processes.content.length ∧
      result = receiveContent (deserialize addressable) addressable
        (some ((kSignature ++ Packet.frames (first :: actions.filterMap FileAction.sent)).take k)) ∧
      (result = .ok (packetsWithin (first :: actions.filterMap FileAction.sent) (k - 6)) ↔
        SilentCut (first :: actions.filterMap FileAction.sent) (k - 6)) ∧
      packetsWithin (first :: actions.filterMap FileAction.sent) (call.began.length - 6)
        <+: packetsWithin (first :: actions.filterMap FileAction.sent) (k - 6)) ∧
    ∃ (moves : List CursorMove) (last : FileProcesses ι) (result : Except Fault (List Packet)),
      Transition.run FileProcesses.step processes (moves.map (.receive i)) = some last ∧
        last.content = processes.content ∧ ∃ ended, last.receives i = some ended ∧
          ended.cursor.place = .returned result := by
  have h := FileProcesses.shared_of_run hsized hrun
  have hfollows := h.receives i call hcall
  have hfile : processes.content
      <+: kSignature ++ Packet.frames (first :: actions.filterMap FileAction.sent) := by
    rw [← h.file]
    exact List.prefix_append ..
  have hframed : ∀ packet ∈ first :: actions.filterMap FileAction.sent, packet.Sized := by
    intro packet hmem
    rcases List.mem_cons.mp hmem with rfl | hmem
    · exact hsized packet List.mem_cons_self
    · obtain ⟨action, haction, hsent⟩ := List.mem_filterMap.mp hmem
      exact hsized packet (List.mem_cons_of_mem _ (FileAction.eq_of_sent hsent ▸ haction))
  constructor
  · intro result hreturned
    obtain ⟨moment, hbegan, hmoment, hresult⟩ := hfollows.exists_moment (r := result)
      (by rw [hreturned]; rfl)
    rw [receiveProgram_result, List.prefix_iff_eq_take.mp (hmoment.trans hfile)] at hresult
    refine ⟨moment.length, hbegan.length_le, hmoment.length_le, hresult, ?_,
      packetsWithin_prefix _ (Nat.sub_le_sub_right hbegan.length_le 6)⟩
    rw [hresult]
    exact receiveContent_take_iff hframed moment.length
  · obtain ⟨moves, cursor, hmoves, hended⟩ := hfollows.exists_run_ended
    obtain ⟨result, hresult⟩ := Option.isSome_iff_exists.mp hended
    refine ⟨moves, _, result, FileProcesses.run_receive hcall hmoves, rfl, _,
      Function.update_self .., ?_⟩
    exact ReceivePlace.eq_returned hresult

/-- A `Receive` finds the end of the file while the second packet is on its way. -/
theorem receive_while_sending_second :
    ∃ processes call, Transition.run FileProcesses.step (.fresh [1, 2, 3] : FileProcesses Unit)
        [.startSend ⟨[65], [1]⟩, .flush 32, .finishSend, .startReceive (), .receive () (.fetch 20),
          .startSend ⟨[66], [2]⟩, .receive () .read, .receive () .read, .receive () (.fetch 20),
          .receive () .read, .receive () .read, .flush 2] = some processes ∧
      processes.receives () = some call ∧ call.cursor.place = .returned (.ok [⟨[65], [1]⟩]) ∧
      ∃ k, 32 ≤ k ∧ k ≤ 34 ∧
        (.ok [⟨[65], [1]⟩] = (.ok (packetsWithin [⟨[65], [1]⟩, ⟨[66], [2]⟩] (k - 6)) :
            Except Fault (List Packet)) ↔ SilentCut [⟨[65], [1]⟩, ⟨[66], [2]⟩] (k - 6)) := by
  obtain ⟨processes, call, hrun, hcall, hreturned, hbegan, hcontent⟩ : ∃ processes call,
      Transition.run FileProcesses.step (.fresh [1, 2, 3] : FileProcesses Unit)
        (.startSend ⟨[65], [1]⟩ :: [.flush 32, .finishSend, .startReceive (),
          .receive () (.fetch 20), .startSend ⟨[66], [2]⟩, .receive () .read, .receive () .read,
          .receive () (.fetch 20), .receive () .read, .receive () .read, .flush 2]) = some processes ∧
      processes.receives () = some call ∧ call.cursor.place = .returned (.ok [⟨[65], [1]⟩]) ∧
      call.began.length = 32 ∧ processes.content.length = 34 := ⟨_, _, rfl, rfl, rfl, rfl, rfl⟩
  refine ⟨processes, call, hrun, hcall, hreturned, ?_⟩
  have hsized : ∀ packet, FileAction.startSend packet ∈
      (.startSend ⟨[65], [1]⟩ :: [.flush 32, .finishSend, .startReceive (),
        .receive () (.fetch 20), .startSend ⟨[66], [2]⟩, .receive () .read, .receive () .read,
        .receive () (.fetch 20), .receive () .read, .receive () .read, .flush 2] :
          List (FileAction Unit)) → packet.schema.length + packet.data.length + 16 < 2 ^ 63 := by
    intro packet hmem
    simp only [List.mem_cons, FileAction.startSend.injEq, reduceCtorEq, false_or,
      List.not_mem_nil, or_false] at hmem
    rcases hmem with rfl | rfl <;> decide
  obtain ⟨k, hlow, hhigh, -, hexact, -⟩ :=
    (receive_while_sending [1, 2, 3] ⟨[65], [1]⟩ _ processes hsized hrun () call hcall).1 _ hreturned
  exact ⟨k, hbegan ▸ hlow, hcontent ▸ hhigh, hexact⟩

end Contra
