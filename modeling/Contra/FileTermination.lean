import Contra.FileFrames

/-! # How long the file loop runs

`Receive` tests nothing but `eof` in front of each round of its loop and looks at the outcome of no
read. `receiveLoopWithin` is the same loop with a bound on its rounds and no result when the bound is
used up. `receiveWithin_eq` says how many rounds are enough on every file: one for each eight bytes
behind the signature and one more, whatever the bytes are and whatever the decoder does. -/

namespace Contra

open CheckedMemory FileStream

section Bounded

variable (decode : List UInt8 → Except Fault Packet) (fits : ℕ → Bool)

/-- The `while` loop of `Receive` with at most `rounds` rounds; `none` where it would go on. -/
def receiveLoopWithin (rounds : ℕ) (stream : Reader) (returnPackets : List Packet) :
    Option (Except Fault (List Packet)) :=
  if stream.eof = true then some (.ok returnPackets)
  else
    match rounds with
    | 0 => none
    | rounds + 1 =>
      match receiveIteration decode fits stream with
      | .error fault => some (.error fault)
      | .ok none => some (.ok returnPackets)
      | .ok (some (packet, stream')) => receiveLoopWithin rounds stream' (returnPackets ++ [packet])

/-- `Receive` on a file with the given content and at most `rounds` rounds of its loop. -/
def receiveWithin (rounds : ℕ) (content : List UInt8) : Option (Except Fault (List Packet)) :=
  match readAndCheckSignature (Reader.openFile (some content)) with
  | .error fault => some (.error fault)
  | .ok (matched, stream) =>
    if matched then receiveLoopWithin decode fits rounds stream [] else some (.ok [])

end Bounded

/-- The rounds that a stream has in it: a header takes eight bytes, and the round that meets the end
of the file comes on top. -/
def roundsLeft (stream : Reader) : ℕ := if stream.eof = true then 0 else stream.rest.length / 8 + 1

section Rounds

variable {decode : List UInt8 → Except Fault Packet} {fits : ℕ → Bool}

/-- **One round** takes one of the rounds that are left. -/
theorem roundsLeft_receiveIteration {stream stream' : Reader} {packet : Packet}
    (heof : stream.eof = false)
    (h : receiveIteration decode fits stream = .ok (some (packet, stream'))) :
    roundsLeft stream' + 1 ≤ roundsLeft stream := by
  obtain ⟨-, hprogress⟩ := receiveIteration_progress h
  have hstream : roundsLeft stream = stream.rest.length / 8 + 1 := by
    rw [roundsLeft, heof]
    rfl
  rw [hstream]
  rcases hprogress with htaken | heof'
  · have hlast : roundsLeft stream' ≤ stream'.rest.length / 8 + 1 := by
      unfold roundsLeft
      split <;> omega
    omega
  · rw [roundsLeft, if_pos heof']
    omega

/-- Enough rounds for what is left of the stream are as good as no bound. -/
theorem receiveLoopWithin_eq {rounds : ℕ} {stream : Reader} (returnPackets : List Packet)
    (hrounds : roundsLeft stream ≤ rounds) :
    receiveLoopWithin decode fits rounds stream returnPackets
      = some (receiveLoop decode fits stream returnPackets) := by
  induction rounds generalizing stream returnPackets with
  | zero =>
    have heof : stream.eof = true := by
      by_contra heof
      rw [roundsLeft, if_neg heof] at hrounds
      omega
    rw [receiveLoopWithin, if_pos heof, receiveLoop, dif_pos heof]
  | succ rounds ih =>
    by_cases heof : stream.eof = true
    · rw [receiveLoopWithin, if_pos heof, receiveLoop, dif_pos heof]
    rw [receiveLoopWithin, if_neg heof, receiveLoop, dif_neg heof]
    -- both loops do the same round; the next one has one round less to do it in
    cases hstep : receiveIteration decode fits stream with
    | error fault => rfl
    | ok outcome =>
      cases outcome with
      | none => rfl
      | some next =>
        have hless := roundsLeft_receiveIteration (by simpa using heof) hstep
        exact ih _ (by omega)

/-- A round appends at most one packet. -/
theorem length_le_of_receiveLoopWithin {rounds : ℕ} {stream : Reader}
    {returnPackets packets : List Packet}
    (h : receiveLoopWithin decode fits rounds stream returnPackets = some (.ok packets)) :
    packets.length ≤ returnPackets.length + rounds := by
  induction rounds generalizing stream returnPackets with
  | zero =>
    rw [receiveLoopWithin] at h
    split_ifs at h
    obtain rfl : returnPackets = packets := by simpa using h
    omega
  | succ rounds ih =>
    rw [receiveLoopWithin] at h
    split_ifs at h
    · obtain rfl : returnPackets = packets := by simpa using h
      omega
    cases hstep : receiveIteration decode fits stream with
    | error fault => simp [hstep] at h
    | ok outcome =>
      cases outcome with
      | none =>
        obtain rfl : returnPackets = packets := by simpa [hstep] using h
        omega
      | some next =>
        rw [hstep] at h
        have := ih h
        rw [List.length_append, List.length_singleton] at this
        omega

end Rounds

section Content

variable (decode : List UInt8 → Except Fault Packet) (fits : ℕ → Bool)

/-- The signature test comes in front of the rounds, as in `receiveContent_some`. -/
theorem receiveWithin_eq_ite (rounds : ℕ) (content : List UInt8) :
    receiveWithin decode fits rounds content =
      if content.take 6 = kSignature then
        receiveLoopWithin decode fits rounds (Reader.good (content.drop 6)) []
      else some (.ok []) := by
  rw [receiveWithin, Reader.openFile, readAndCheckSignature_good]
  by_cases hmatch : content.take 6 = kSignature
  · have hlength : ¬ content.length < 6 := Nat.not_lt.mpr (six_le_of_take_eq_kSignature hmatch)
    simp only [hmatch, hlength, decide_true, if_true, if_false]
  · simp only [hmatch, decide_false, if_false]
    rfl

/-- **Termination on every file.** With any decoder and any limit on containers, `Receive` ends on
every content: its loop needs at most one round for each eight bytes behind a matching signature and
one more, and none without the signature. It returns at most as many packets. -/
theorem receive_terminates (content : List UInt8) :
    receiveWithin decode fits
        (if content.take 6 = kSignature then (content.length - 6) / 8 + 1 else 0) content
      = some (receiveContent decode fits (some content)) ∧
    ∀ packets, receiveContent decode fits (some content) = .ok packets →
      packets.length ≤ if content.take 6 = kSignature then (content.length - 6) / 8 + 1 else 0 := by
  rw [receiveWithin_eq_ite, receiveContent_some]
  by_cases hmatch : content.take 6 = kSignature
  · have hrounds : roundsLeft (Reader.good (content.drop 6)) = (content.length - 6) / 8 + 1 := by
      rw [roundsLeft, Reader.good, List.length_drop]
      rfl
    have hloop : receiveLoopWithin decode fits ((content.length - 6) / 8 + 1)
        (Reader.good (content.drop 6)) [] = some (receiveLoop decode fits _ []) :=
      receiveLoopWithin_eq [] hrounds.le
    simp only [if_pos hmatch]
    refine ⟨hloop, fun packets hpackets => ?_⟩
    rw [hpackets] at hloop
    simpa using length_le_of_receiveLoopWithin hloop
  · simp only [if_neg hmatch]
    refine ⟨trivial, fun packets hpackets => ?_⟩
    obtain rfl : [] = packets := Except.ok.inj hpackets
    exact le_rfl

end Content

end Contra
