import Stratum.Frame.Decode

/-!
# Reading a stream of frames

A frame reader collects the bytes of a stream as they arrive and gives back whole frames. It keeps the
bytes that it has collected, and remembers how many of them belong to frames given back; from time to
time it drops those. Once a header declares a payload over the cap, the place of the next frame is
unknown and the reader is poisoned: it takes and gives nothing any more.
-/

namespace Stratum

/-- The state of reading a stream of frames. -/
structure FrameReader where
  /-- The cap on payloads. -/
  limits : FrameLimits
  /-- The bytes kept of the stream. -/
  stored : Bytes
  /-- How many of them, from the first on, belong to frames given back. -/
  start : Nat
  /-- Whether a header was refused. -/
  poisoned : Bool
  deriving DecidableEq

namespace FrameReader

/-- A reader that has seen nothing. The cap has to pass its check. -/
def make (limits : FrameLimits) : Except Fault FrameReader := do
  limits.validate
  return { limits, stored := [], start := 0, poisoned := false }

/-- The bytes that belong to no frame given back. -/
def unread (r : FrameReader) : Bytes := r.stored.drop r.start

/-- The number of bytes that belong to no frame given back. -/
def buffered (r : FrameReader) : Nat := r.stored.length - r.start

/-- Drops the bytes of the frames given back. -/
def compact (r : FrameReader) : FrameReader := { r with stored := r.unread, start := 0 }

/-- Takes bytes of the stream. If all that is kept was given back, it is dropped first. -/
def feed (r : FrameReader) (bs : Bytes) : Except Fault Unit × FrameReader :=
  if r.poisoned then (.error (.frame .poisoned), r)
  else
    let r := if 0 < r.start ∧ r.start = r.stored.length then r.compact else r
    (.ok (), { r with stored := r.stored ++ bs })

/-- Gives back the next frame, if it is there as a whole. If it is not, the bytes of the frames given back
are dropped, once they are about half of what is kept. -/
def next (r : FrameReader) : Except Fault (Option Frame) × FrameReader :=
  if r.poisoned then (.error (.frame .poisoned), r)
  else
    match Frame.decode r.limits (Cursor.ofBytes r.unread) with
    | .error e => (.error e, r)
    | .ok (.incomplete _, _) =>
      (.ok none, if 0 < r.start ∧ r.stored.length / 2 ≤ r.start then r.compact else r)
    | .ok (.invalid _, _) => (.error (.frame .streamOverCap), { r with poisoned := true })
    | .ok (.frame f, c) => (.ok (some f), { r with start := r.start + c.position })

/-- Gives back the frames that are there, at most `fuel`. -/
def drainWithin : (fuel : Nat) → FrameReader → Except Fault (List Frame) × FrameReader
  | 0, r => (.ok [], r)
  | fuel + 1, r =>
    match r.next with
    | (.error cause, r) => (.error cause, r)
    | (.ok none, r) => (.ok [], r)
    | (.ok (some f), r) =>
      let (frames, r) := drainWithin fuel r
      (frames.map (f :: ·), r)

/-- Gives back all frames that are there. Each takes some bytes, so the number of bytes bounds that of
the frames. -/
def drain (r : FrameReader) : Except Fault (List Frame) × FrameReader := drainWithin (r.buffered + 1) r

/-- Takes a stream piece by piece, and gives back all frames that are there after each. -/
def readPieces (r : FrameReader) : List Bytes → Except Fault (List Frame) × FrameReader
  | [] => (.ok [], r)
  | piece :: pieces =>
    match r.feed piece with
    | (.error cause, r) => (.error cause, r)
    | (.ok (), r) =>
      match r.drain with
      | (.error cause, r) => (.error cause, r)
      | (.ok frames, r) =>
        let (more, r) := readPieces r pieces
        (more.map (frames ++ ·), r)

end FrameReader

end Stratum
