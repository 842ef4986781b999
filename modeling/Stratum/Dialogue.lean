import Stratum.Link

/-!
# Dialogues

A program that talks to its peer takes turns: each receives what the program awaits and sends what it has
to say. A turn for which not enough has arrived waits, and is taken again when there is more.

A dialogue is such a program together with the other end of its connection. How the bytes travel plays no
part: whatever one end has sent arrives at the other before that one goes on.
-/

namespace Stratum

/-- What a program that talks to its peer is doing. -/
inductive Progress where
  /-- It waits for more bytes from the peer. -/
  | waiting
  /-- It has come to its end. -/
  | finished
  /-- A fault has ended it. -/
  | stopped (cause : Fault)
  deriving DecidableEq

/-- Whether a program has ended. -/
def Progress.hasEnded : Progress → Bool
  | waiting => false
  | _ => true

/-- Takes turns, at most `fuel`, until one waits or ends the program. A turn says whether the program goes
on. -/
def takeTurns {σ : Type} (turn : EStateM Fault σ Bool) : (fuel : Nat) → σ → Progress × σ
  | 0, s => (.waiting, s)
  | fuel + 1, s =>
    match turn s with
    | .ok true s => takeTurns turn fuel s
    | .ok false s => (.finished, s)
    | .error cause s => (if cause = .transport .receiveFailed then .waiting else .stopped cause, s)

/-- A program that talks to its peer, given by the states it has. -/
structure Program (σ : Type) where
  /-- Its end of the connection. -/
  transport : σ → Transport
  /-- The state with another end of the connection. -/
  withTransport : σ → Transport → σ
  /-- Goes on as far as what has arrived allows. -/
  run : σ → Progress × σ

/-- A program with the other end of its connection. -/
structure Dialogue (σ : Type) where
  /-- The program. -/
  program : σ
  /-- The end of its peer. -/
  peer : Transport := {}
  /-- What the program is doing. -/
  progress : Progress := .waiting

namespace Dialogue

variable {σ : Type} (p : Program σ)

/-- Lets the program go on after the peer has come to another state: everything that the peer has sent
arrives, and everything that the program sends arrives at the peer. A program that has ended closes its
end, and does nothing more. -/
def advance (d : Dialogue σ) (peer : Transport) : Dialogue σ :=
  if d.progress.hasEnded then { d with peer := peer.delivered }
  else
    let (progress, s) := p.run (p.withTransport d.program ((p.transport d.program).arriveFrom peer))
    let t := if progress.hasEnded then (p.transport s).close else p.transport s
    { program := p.withTransport s t.delivered, peer := peer.delivered.arriveFrom t, progress }

/-- The peer does something, and the program goes on. -/
def step {α : Type} (x : TransportM α) : EStateM Fault (Dialogue σ) α := fun d =>
  match x d.peer with
  | .ok a peer => .ok a (d.advance p peer)
  | .error cause peer => .error cause (d.advance p peer)

/-- The peer closes its end, and the program goes on. -/
def hangUp (d : Dialogue σ) : Dialogue σ := d.advance p d.peer.close

end Dialogue

namespace Connection

/-- Receives frames until one cannot be received, at most `fuel`. -/
def receiveFramesWithin (S : Suite) (c : Connection) : (fuel : Nat) → List Frame
  | 0 => []
  | fuel + 1 =>
    match receiveFrame S c with
    | .ok f c => f :: receiveFramesWithin S c fuel
    | .error _ _ => []

/-- Receives frames until one cannot be received. Each takes some bytes, so the number of bytes bounds
that of the frames. -/
def receiveFrames (S : Suite) (c : Connection) : List Frame :=
  receiveFramesWithin S c c.transport.unread

end Connection

end Stratum
