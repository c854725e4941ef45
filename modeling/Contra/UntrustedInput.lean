import Contra.FileFrames
import Contra.ZmqTransport

/-! # Reads on untrusted input

Neither receive path compares the sizes in a message with the size of the message before it decodes
it. `receive_reads_inside_iff` says on which ZeroMQ messages and on which files no read leaves a
buffer all the same: those where every message that the decoder gets to see is long enough for the
sizes it announces, or announces one that cannot be allocated. -/

namespace Contra

open CheckedMemory FileStream

section Reads

variable {fits : ℕ → Bool}

/-- A ZeroMQ message is read inside its bounds if it cannot be copied, or can be decoded so. -/
theorem receiveMessage_reads_inside_iff (hfits : SizeLimited fits) (message : List UInt8) :
    (∀ span, receiveMessage fits message ≠ .error (.outOfBounds span))
      ↔ (fits message.length = true → ReadsInside fits message) := by
  rw [receiveMessage_eq]
  by_cases hfit : fits message.length = false
  · simp [hfit]
  · have hfit' : fits message.length = true := by simpa using hfit
    rw [if_neg hfit, deserialize_reads_inside_iff (hfits _ hfit')]
    simp [hfit']

/-- The buffers that the loop of `Receive` hands to the decoder on a file of which `rest` is left:
the first frame of an allocatable size, and what follows a complete frame that decodes. -/
inductive Reaches (fits : ℕ → Bool) : List UInt8 → List UInt8 → Prop where
  /-- The buffer of the next frame. -/
  | here {rest : List UInt8} (hnonzero : frameSizeField rest ≠ 0)
      (hfit : fits (frameSizeField rest) = true) : Reaches fits rest (frameBuffer rest)
  /-- A buffer behind the next frame. -/
  | next {rest buffer : List UInt8} (hnonzero : frameSizeField rest ≠ 0)
      (hfit : fits (frameSizeField rest) = true) (hwhole : 8 + frameSizeField rest ≤ rest.length)
      (haccepts : Accepts fits (frameBuffer rest))
      (hlater : Reaches fits (rest.drop (8 + frameSizeField rest)) buffer) : Reaches fits rest buffer

/-- One frame of `Reaches`, in the order in which the loop looks at it. -/
theorem forall_reaches_iff {rest : List UInt8} {property : List UInt8 → Prop}
    (hnonzero : frameSizeField rest ≠ 0) (hfit : fits (frameSizeField rest) = true) :
    (∀ buffer, Reaches fits rest buffer → property buffer) ↔
      property (frameBuffer rest) ∧ (8 + frameSizeField rest ≤ rest.length →
        Accepts fits (frameBuffer rest) →
          ∀ buffer, Reaches fits (rest.drop (8 + frameSizeField rest)) buffer → property buffer) := by
  constructor
  · intro h
    exact ⟨h _ (.here hnonzero hfit), fun hwhole haccepts buffer hlater =>
      h buffer (.next hnonzero hfit hwhole haccepts hlater)⟩
  · rintro ⟨hhere, hnext⟩ buffer hreaches
    cases hreaches with
    | here _ _ => exact hhere
    | next _ _ hwhole haccepts hlater => exact hnext hwhole haccepts buffer hlater

/-- The loop reads inside its buffers exactly if the decoder does on every buffer it reaches. -/
theorem receiveLoop_reads_inside_iff (hfits : SizeLimited fits) (rest : List UInt8)
    (returnPackets : List Packet) :
    (∀ span, receiveLoop (deserialize fits) fits (Reader.good rest) returnPackets
        ≠ .error (.outOfBounds span))
      ↔ ∀ buffer, Reaches fits rest buffer → ReadsInside fits buffer := by
  -- the file gets shorter with every frame
  induction hlength : rest.length using Nat.strong_induction_on generalizing rest returnPackets with
  | _ length ih =>
    rw [receiveLoop_good _ hfits]
    -- a zero header and a size that cannot be allocated stop the loop before the decoder
    by_cases hzero : frameSizeField rest = 0
    · have hnone : ∀ buffer, ¬ Reaches fits rest buffer := by
        intro buffer hreaches
        cases hreaches <;> contradiction
      simp [hzero, hnone]
    by_cases hfit : fits (frameSizeField rest) = false
    · have hnone : ∀ buffer, ¬ Reaches fits rest buffer := by
        intro buffer hreaches
        cases hreaches <;> simp_all
      simp [hzero, hfit, hnone]
    have hfit' : fits (frameSizeField rest) = true := by simpa using hfit
    have hbuffer : (frameBuffer rest).length < 2 ^ 63 := by
      rw [length_frameBuffer]
      exact hfits _ hfit'
    have hdecode : (∀ span, deserialize fits (frameBuffer rest) ≠ .error (.outOfBounds span))
        ↔ ReadsInside fits (frameBuffer rest) := deserialize_reads_inside_iff hbuffer
    rw [if_neg hzero, if_neg hfit, forall_reaches_iff hzero hfit', ← hdecode]
    cases hpacket : deserialize fits (frameBuffer rest) with
    | error fault =>
      have hrejected : ¬ Accepts fits (frameBuffer rest) := by
        intro haccepts
        have := (deserialize_eq_ok_iff hbuffer _).mpr ⟨haccepts, rfl⟩
        rw [hpacket] at this
        cases this
      simp [hrejected]
    | ok packet =>
      have haccepts := ((deserialize_eq_ok_iff hbuffer packet).mp hpacket).1
      by_cases hwhole : 8 + frameSizeField rest ≤ rest.length
      · rw [ok_bind, if_pos hwhole,
          ih _ (by rw [List.length_drop]; omega) (rest.drop (8 + frameSizeField rest)) _ rfl]
        simp [hwhole, haccepts]
      · simp [hwhole]

/-- `Receive` on a file: the loop runs behind a matching signature only. -/
theorem receiveContent_reads_inside_iff (hfits : SizeLimited fits) (content : List UInt8) :
    (∀ span, receiveContent (deserialize fits) fits (some content) ≠ .error (.outOfBounds span))
      ↔ (content.take 6 = kSignature →
          ∀ buffer, Reaches fits (content.drop 6) buffer → ReadsInside fits buffer) := by
  rw [receiveContent_some]
  by_cases hsignature : content.take 6 = kSignature
  · rw [if_pos hsignature, receiveLoop_reads_inside_iff hfits]
    simp [hsignature]
  · simp [hsignature]

end Reads

/-- **Reads on untrusted input.** Handling one ZeroMQ message reads inside the message exactly if
the message announces only bytes it has, or more than can be allocated; and `Receive` on a file reads
inside its buffers exactly if this holds of every buffer it decodes. -/
theorem receive_reads_inside_iff (fits : ℕ → Bool) (hfits : SizeLimited fits) :
    (∀ message, (∀ span, receiveMessage fits message ≠ .error (.outOfBounds span))
      ↔ (fits message.length = true → ReadsInside fits message)) ∧
    ∀ (transport : FileTransport) (disk : Disk) (content : List UInt8),
      disk transport.filename = some content →
        ((∀ span, transport.receive fits disk ≠ .error (.outOfBounds span))
          ↔ (content.take 6 = kSignature →
              ∀ buffer, Reaches fits (content.drop 6) buffer → ReadsInside fits buffer)) := by
  refine ⟨receiveMessage_reads_inside_iff hfits, ?_⟩
  intro transport disk content hcontent
  rw [FileTransport.receive, hcontent]
  exact receiveContent_reads_inside_iff hfits content

/-- Sixteen zero bytes are a message, and the frame of this message makes a file, on which every read stays
inside. -/
theorem receive_reads_inside_iff_addressable :
    (∀ span, receiveMessage addressable (List.replicate 16 0) ≠ .error (.outOfBounds span)) ∧
    ∀ span, (⟨"tmp.contra", true⟩ : FileTransport).receive addressable
      (fun _ => some (kSignature ++ (LittleEndian.encode 8 16 ++ List.replicate 16 0)))
        ≠ .error (.outOfBounds span) := by
  obtain ⟨hmessage, hfile⟩ := receive_reads_inside_iff addressable sizeLimited_addressable
  have hinside : ReadsInside addressable (List.replicate 16 0) :=
    ⟨by decide, fun _ => ⟨by decide, fun _ => by decide⟩⟩
  refine ⟨(hmessage _).mpr fun _ => hinside, ?_⟩
  refine (hfile ⟨"tmp.contra", true⟩ _ _ rfl).mpr fun _ buffer hreaches => ?_
  cases hreaches with
  | here _ _ => exact hinside
  | next _ _ _ _ hlater =>
    -- nothing is left behind the frame, so the next header is zero
    cases hlater with
    | here hnonzero _ => exact absurd rfl hnonzero
    | next hnonzero _ _ _ _ => exact absurd rfl hnonzero

/-- The first size is read from an empty message, and behind the end of a frame of one byte. -/
theorem receive_reads_outside :
    receiveMessage addressable [] = .error (.outOfBounds ⟨0, 8⟩) ∧
    (⟨"tmp.contra", true⟩ : FileTransport).receive addressable
        (fun _ => some (kSignature ++ [1, 0, 0, 0, 0, 0, 0, 0, 0]))
      = .error (.outOfBounds ⟨0, 8⟩) := by
  refine ⟨rfl, ?_⟩
  rw [FileTransport.receive, receiveContent_signed, receiveLoop_good _ sizeLimited_addressable]
  rfl

end Contra
