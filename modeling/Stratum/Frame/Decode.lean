import Stratum.Frame.Basic
import Stratum.Wire.Cursor

/-!
# Reading a frame

A frame is read at a cursor only when it is there as a whole: before that the answer is how many bytes
are missing. A header that declares a payload over the cap is refused at once, whatever follows it.
-/

namespace Stratum

/-- What can be said about the frame at a place. -/
inductive FrameStep where
  /-- So many bytes are missing to know more. -/
  | incomplete (needed : Nat)
  /-- No frame can be read here. -/
  | invalid (cause : FrameFault)
  /-- The frame is there. -/
  | frame (f : Frame)
  deriving DecidableEq

/-- Reads the frame at a cursor. The cursor moves if and only if there is one. -/
def Frame.decode (limits : FrameLimits) (c : Cursor) : Except Fault (FrameStep × Cursor) :=
  match FrameHeader.peek? c.rest with
  | none => .ok (.incomplete (frameHeaderLength - c.remaining), c)
  | some h =>
    if limits.maxPayload < h.payloadLength then .ok (.invalid .declaredOverCap, c)
    else
      let total := frameHeaderLength + h.payloadLength.toNat
      if c.has total then do
        let payload := (c.rest.drop frameHeaderLength).take h.payloadLength.toNat
        let f ← Frame.make h.extensionType h.messageType payload limits
        return (.frame f, c.advance total)
      else .ok (.incomplete (total - c.remaining), c)

end Stratum
